import PowerScreen.PrintStatus.Panel

/-! # Metadata of the current file

The panel is run next to what it should show: the reply to the request of the
current name once it is handled, and until then the time left and the layers as they
are without any metadata. Late replies and fields a reply lacks tell exactly when the
two agree.
-/
namespace PowerScreen.PrintStatus
open Library Library.Run

inductive Event where
  | connected
  | report (r : Report)
  | reply (i : ℕ) (j : Json)

/-- The panel with the job it should be about. -/
structure Job where
  panel : Panel
  /-- Cleared by an exception, which ends the program. -/
  running : Bool := true
  /-- The request for the file that is named now. -/
  current : Option ℕ := none
  /-- What its reply said, once it is handled. -/
  handled : Option Metadata := none
  /-- The time left and the layers without metadata. -/
  bareTime : Option UInt32 := none
  bareLayers : ℤ × ℤ := (0, 0)

variable (A : Arith)

namespace Job

def afterReport (c : Job) (r : Report) (p : Panel) : Job :=
  { c with
    panel := p
    current := if renames r then
        (if c.panel.sent.length < p.sent.length then some c.panel.sent.length else none)
      else c.current
    handled := if renames r then none else c.handled
    bareTime := (passedOf A r).elim (if renames r then none else c.bareTime)
      fun passed => timeLeft 0 passed
    bareLayers := (layers A p.state (infoOf p.state r) .null).getD c.bareLayers }

def afterReply (c : Job) (i : ℕ) (j : Json) (p : Panel) : Job :=
  { c with
    panel := { p with waiting := p.waiting.erase i }
    handled := if c.current = some i then readMetadata A j else c.handled }

def goOn (c : Job) (f : Panel → Job) (p : Option Panel) : Job := p.elim { c with running := false } f

def step (c : Job) (e : Event) : Job :=
  if c.running then
    match e with
    | .connected => { c with panel := { c.panel with state := c.panel.state.reset } }
    | .report r => c.goOn (c.afterReport A r) (c.panel.report A r)
    | .reply i j =>
      if i ∈ c.panel.waiting then c.goOn (c.afterReply A i j) (c.panel.handleMetadata A j) else c
  else c

/-- The cached fields are those of the reply for the current file; before it is
handled the time left and the layers owe nothing to metadata. -/
def Own (c : Job) : Prop := c.running → match c.handled with
  | some m => c.panel.estimatedTime = m.estimate.getD 0 ∧ c.panel.currentFile = m.file ∧
      c.panel.material = m.material.getD ""
  | none => c.panel.timeLeft = c.bareTime ∧ c.panel.layers = c.bareLayers

instance (c : Job) : Decidable c.Own := by
  unfold Own
  cases c.handled <;> exact inferInstance

/-- The cached estimate shows nothing: it is zero, or the time is over with and without it. -/
def SilentEstimate (estimate : UInt32) (passed : Option UInt32) : Prop :=
  ∀ s ∈ passed, estimate = 0 ∨ (0x80000000 ≤ estimate - s ∧ 0x80000000 ≤ 0 - s)

/-- The cached file shows nothing: what the report does not tell of the layers, the
file gives as zero. -/
def SilentFile (s : State) (info file : Json) : Prop :=
  (intAt A info "total_layer" = some none → fileLayers A file = some 0) ∧
    (intAt A info "current_layer" = some none →
      ∀ total, maxLayer A info file = some total → fileLayer A s file total = some 0)

/-- Before the reply for the current file a report shows nothing cached. -/
def Quiet (c : Job) (r : Report) : Prop :=
  renames r ∨ c.handled = none →
    (renames r ∨ SilentEstimate c.panel.estimatedTime (passedOf A r)) ∧
      SilentFile A (received c.panel.state r) (infoOf (received c.panel.state r) r)
        c.panel.currentFile

/-- The reply for the current file has an estimate and a material, unless none is cached. -/
def Complete (c : Job) (m : Metadata) : Prop :=
  (m.estimate = none → c.panel.estimatedTime = 0) ∧ (m.material = none → c.panel.material = "")

/-- A reply to an older request says what is cached already; before the reply for the
current file it only has to leave the time that is shown. -/
def Harmless (c : Job) (m : Metadata) : Prop := match c.handled with
  | some _ => (∀ estimate ∈ m.estimate, estimate = c.panel.estimatedTime) ∧
      m.file = c.panel.currentFile ∧ ∀ material ∈ m.material, material = c.panel.material
  | none => ∀ estimate ∈ m.estimate, ∀ passed,
      secondsOf A (c.panel.state.field "print_stats" "print_duration") = some (some passed) →
        timeLeft estimate passed = c.panel.timeLeft

/-- The event finds nothing of an older file, or nothing that shows. -/
def Unmixed (c : Job) : Event → Prop
  | .connected => True
  | .report r => c.running → (c.panel.report A r).isSome → c.Quiet A r
  | .reply i j => c.running → i ∈ c.panel.waiting → (c.panel.handleMetadata A j).isSome →
      ∀ m, readMetadata A j = some m →
        if c.current = some i then c.Complete m else c.Harmless A m

end Job

theorem timeLeft_eq_zero_iff (estimate s : UInt32) :
    timeLeft estimate s = timeLeft 0 s ↔
      estimate = 0 ∨ (0x80000000 ≤ estimate - s ∧ 0x80000000 ≤ 0 - s) := by
  by_cases hz : estimate = 0
  · simp [hz]
  · have hne : estimate - s ≠ 0 - s := fun h => hz ((UInt32.sub_left_inj s).mp h)
    unfold timeLeft
    rw [or_iff_right hz, ← UInt32.not_lt, ← UInt32.not_lt]
    split_ifs with h h' h' <;> simp_all

theorem fileLayers_null : fileLayers A .null = some 0 := rfl

theorem fileLayer_null (s : State) (total : ℤ) : fileLayer A s .null total = some 0 := rfl

theorem maxLayer_null {info file : Json} {t : ℤ} (h : maxLayer A info file = some t) :
    ∃ t', maxLayer A info .null = some t' ∧
      (t = t' ↔ (intAt A info "total_layer" = some none → fileLayers A file = some 0)) := by
  obtain ⟨given, hg, h⟩ := Option.bind_eq_some_iff.mp h
  rw [maxLayer, hg]
  cases given with
  | none =>
    have hfile : fileLayers A file = some t := h
    exact ⟨0, fileLayers_null A, by simp [hfile]⟩
  | some total =>
    cases h
    exact ⟨t, rfl, by simp⟩

theorem currentLayer_null {s : State} {info file : Json} {total t : ℤ}
    (h : currentLayer A s info file total = some t) (total' : ℤ) :
    ∃ t', currentLayer A s info .null total' = some t' ∧
      (t = t' ↔ (intAt A info "current_layer" = some none → fileLayer A s file total = some 0)) := by
  obtain ⟨given, hg, h⟩ := Option.bind_eq_some_iff.mp h
  rw [currentLayer, hg]
  cases given with
  | none =>
    have hfile : fileLayer A s file total = some t := h
    exact ⟨0, fileLayer_null A s total', by simp [hfile]⟩
  | some current =>
    cases h
    exact ⟨t, rfl, by simp⟩

/-- Without the file the layers are shown as well, the same exactly when it is silent. -/
theorem layers_null {s : State} {info file : Json} {l : ℤ × ℤ}
    (h : layers A s info file = some l) :
    ∃ l', layers A s info .null = some l' ∧ (l = l' ↔ Job.SilentFile A s info file) := by
  obtain ⟨total, ht, h⟩ := Option.bind_eq_some_iff.mp h
  obtain ⟨current, hc, h⟩ := Option.bind_eq_some_iff.mp h
  cases h
  obtain ⟨total', ht', hiff⟩ := maxLayer_null A ht
  obtain ⟨current', hc', hiff'⟩ := currentLayer_null A hc total'
  have hbare : layers A s info .null = some (current', total') := by
    rw [layers, ht', Option.bind_eq_bind, Option.bind_some, hc']
    rfl
  refine ⟨(current', total'), hbare, ?_⟩
  rw [Prod.mk.injEq, hiff, hiff', Job.SilentFile, and_comm]
  simp [ht]

namespace Job

theorem own_of_none {c : Job} (h : c.handled = none) : c.Own ↔
    (c.running → c.panel.timeLeft = c.bareTime ∧ c.panel.layers = c.bareLayers) := by
  rw [Own, h]

theorem own_of_some {c : Job} {m : Metadata} (h : c.handled = some m) : c.Own ↔
    (c.running → c.panel.estimatedTime = m.estimate.getD 0 ∧ c.panel.currentFile = m.file ∧
      c.panel.material = m.material.getD "") := by
  rw [Own, h]

/-- The time left is the bare one exactly when the cached estimate does not show. -/
theorem timeLeft_afterReport_iff {c : Job} {r : Report} {p : Panel} (hrun : c.running)
    (h : c.Own) (hphase : renames r ∨ c.handled = none) (hp : c.panel.report A r = some p) :
    p.timeLeft = (c.afterReport A r p).bareTime ↔
      (renames r ∨ SilentEstimate c.panel.estimatedTime (passedOf A r)) := by
  obtain ⟨-, -, he, -, ht, -⟩ := report_spec A hp
  rw [ht, he, afterReport]
  by_cases hr : renames r
  · simp only [hr, if_true, true_or]
  · have hold : c.panel.timeLeft = c.bareTime :=
      ((own_of_none (hphase.resolve_left hr)).mp h hrun).1
    simp only [hr, hold]
    cases passedOf A r with
    | none => simp [SilentEstimate]
    | some s => simpa [SilentEstimate] using timeLeft_eq_zero_iff _ s

/-- A report keeps the agreement exactly when it shows nothing that is cached. -/
theorem own_afterReport_iff {c : Job} {r : Report} {p : Panel} (hrun : c.running) (h : c.Own)
    (hp : c.panel.report A r = some p) : (c.afterReport A r p).Own ↔ c.Quiet A r := by
  obtain ⟨hs, hf, he, hm, -, hl⟩ := report_spec A hp
  rw [Quiet]
  by_cases hphase : renames r ∨ c.handled = none
  · have hnone : (c.afterReport A r p).handled = none := by
      rcases hphase with hr | hn
      · exact if_pos hr
      · rw [afterReport, hn, ite_self]
    obtain ⟨l, hbare, hiff⟩ := layers_null A hl
    have hlayers : p.layers = (c.afterReport A r p).bareLayers ↔
        SilentFile A (received c.panel.state r) (infoOf (received c.panel.state r) r)
          c.panel.currentFile := by
      rw [afterReport, hbare, Option.getD_some, hiff, hs, hf]
    rw [own_of_none hnone, imp_iff_right hphase, ← timeLeft_afterReport_iff A hrun h hphase hp,
      ← hlayers]
    exact imp_iff_right hrun
  · rw [not_or, Bool.not_eq_true] at hphase
    obtain ⟨m, hm'⟩ := Option.ne_none_iff_exists'.mp hphase.2
    have hsome : (c.afterReport A r p).handled = some m := by simp [afterReport, hphase.1, hm']
    rw [hphase.1] at he hm
    rw [own_of_some hm', ← hf, show c.panel.estimatedTime = p.estimatedTime from he.symm,
      show c.panel.material = p.material from hm.symm] at h
    rw [own_of_some hsome]
    exact iff_of_true h fun hr => absurd hr (by simp [hphase])

theorem getD_eq_getD_iff {α : Type*} (o : Option α) (a b : α) :
    o.getD a = o.getD b ↔ (o = none → a = b) := by
  cases o <;> simp

theorem getD_eq_self_iff {α : Type*} (o : Option α) (a : α) : o.getD a = a ↔ ∀ b ∈ o, b = a := by
  cases o <;> simp

/-- The reply for the current file has to be complete, an older one harmless. -/
theorem own_afterReply_iff {c : Job} {i : ℕ} {j : Json} {p : Panel} {m : Metadata}
    (hrun : c.running) (h : c.Own) (hm : readMetadata A j = some m)
    (hp : c.panel.handleMetadata A j = some p) :
    (c.afterReply A i j p).Own ↔ if c.current = some i then c.Complete m else c.Harmless A m := by
  rw [Panel.handleMetadata, hm, Option.bind_eq_bind, Option.bind_some] at hp
  obtain ⟨q, hq, hp⟩ := Option.bind_eq_some_iff.mp hp
  cases hp
  obtain ⟨he, hmat, hl, ht⟩ := takeEstimate_spec A hq
  by_cases hi : c.current = some i
  · have hsome : (c.afterReply A i j { q with
        currentFile := m.file, material := m.material.getD q.material }).handled = some m := by
      rw [afterReply, if_pos hi, hm]
    rw [own_of_some hsome, if_pos hi, Complete]
    simp only [afterReply, he, hmat, getD_eq_getD_iff, true_and]
    exact imp_iff_right hrun
  · rw [if_neg hi, Harmless]
    cases hh : c.handled with
    | none =>
      have hnone : (c.afterReply A i j { q with
          currentFile := m.file, material := m.material.getD q.material }).handled = none := by
        rw [afterReply, if_neg hi, hh]
      obtain ⟨htime, hlayers⟩ := (own_of_none hh).mp h hrun
      rw [own_of_none hnone, ← ht]
      simp only [afterReply, hl, htime, hlayers, and_true]
      exact imp_iff_right hrun
    | some m' =>
      have hsome : (c.afterReply A i j { q with
          currentFile := m.file, material := m.material.getD q.material }).handled = some m' := by
        rw [afterReply, if_neg hi, hh]
      obtain ⟨htime, hfile, hold⟩ := (own_of_some hh).mp h hrun
      rw [own_of_some hsome, ← htime, ← hfile, ← hold]
      simp only [afterReply, he, hmat]
      rw [getD_eq_self_iff, getD_eq_self_iff]
      exact imp_iff_right hrun

/-- One step keeps the panel on its own file exactly when nothing older mixes in. -/
theorem own_step_iff {c : Job} (h : c.Own) (e : Event) : (c.step A e).Own ↔ c.Unmixed A e := by
  by_cases hrun : c.running
  · cases e with
    | connected =>
      rw [step, if_pos hrun]
      exact iff_of_true h trivial
    | report r =>
      rw [step, if_pos hrun, Unmixed, imp_iff_right hrun]
      cases hp : c.panel.report A r with
      | none => simp [goOn, Own]
      | some p =>
        rw [imp_iff_right Option.isSome_some]
        exact own_afterReport_iff A hrun h hp
    | reply i j =>
      rw [step, if_pos hrun, Unmixed, imp_iff_right hrun]
      by_cases hi : i ∈ c.panel.waiting
      · rw [if_pos hi, imp_iff_right hi]
        cases hp : c.panel.handleMetadata A j with
        | none => simp [goOn, Own]
        | some p =>
          obtain ⟨m, hm, -⟩ := Option.bind_eq_some_iff.mp hp
          rw [imp_iff_right Option.isSome_some]
          simp only [hm, Option.some.injEq, forall_eq']
          exact own_afterReply_iff A hrun h hm hp
      · rw [if_neg hi]
        exact iff_of_true h fun hmem => absurd hmem hi
  · have hstep : c.step A e = c := if_neg hrun
    rw [hstep]
    refine iff_of_true h ?_
    cases e with
    | connected => trivial
    | _ => exact fun hr => absurd hr hrun

/-- In every run the panel is on its own file throughout exactly when no event finds
anything of an older file that shows. -/
theorem own_throughout_iff (s : State) (es : List Event) :
    Throughout (step A) Own { panel := { state := s } } es ↔
      EachStep (step A) (Unmixed A) { panel := { state := s } } es :=
  throughout_iff_eachStep (P := Own) (fun _ e h => own_step_iff A h e)
    ((own_of_none rfl).mpr fun _ => ⟨rfl, rfl⟩) es

/-- Exact arithmetic, for values a machine represents exactly. -/
def exactArith : Arith where
  seconds n := UInt32.ofNat n.toRat.floor.toNat
  int n := n.toRat.floor
  layerAt z first height := ((z.toRat - first.toRat) / height.toRat + 1).ceil

/-- A report of the file's name alone. -/
def namedFile (name : String) : Status where
  objects := [("print_stats", [("filename", .str name)])]
  keys := List.pairwise_singleton _ _
  fields o ho := by
    rw [List.mem_singleton.mp ho]
    exact Json.sorted_obj_iff.mpr ⟨List.pairwise_singleton _ _, by simp [Json.sorted_str]⟩

def metadataReply (seconds : ℤ) (material : String) : Json :=
  .obj [("result", .obj [("estimated_time", .num (.int seconds)),
    ("filament_type", .str material)])]

/-- The reply for the first file comes after the one for the second, which is printed. -/
theorem late_metadata_taken :
    ¬ Throughout (step exactArith) Own { panel := { state := ⟨[], by decide⟩ } }
      [.report (.update (namedFile "a.gcode") 0), .report (.update (namedFile "b.gcode") 1),
        .reply 1 (metadataReply 60 "PLA"), .reply 0 (metadataReply 3600 "ABS")] := by
  intro h
  have hlast : Own _ := h.2.2.2.2
  exact absurd hlast (by decide)

end Job
end PowerScreen.PrintStatus
