import PowerScreen.PrintStatus.Metadata
import PowerScreen.PrintStatus.Screen

/-! # The layers of a partial notification

A notification is shown by the layer information it carries itself, with the metadata of
the file for what is missing there. The store has the information of earlier notifications
as well.
-/
namespace PowerScreen.PrintStatus
open Library Library.Run

variable (A : Arith)

/-- A number of the layer information, or what the file says. -/
def numberOr (info : Json) (key : String) (fallback : Option ℤ) : Option ℤ := do
  match ← intAt A info key with
  | some n => return n
  | none => fallback

theorem maxLayer_eq (info file : Json) :
    maxLayer A info file = numberOr A info "total_layer" (fileLayers A file) := rfl

theorem currentLayer_eq (s : State) (info file : Json) (total : ℤ) :
    currentLayer A s info file total =
      numberOr A info "current_layer" (fileLayer A s file total) := rfl

/-- A number that is not told is not stored either, or stored as what the file says. -/
def NumberTold (info stored : Json) (key : String) (fallback : Option ℤ) : Prop :=
  intAt A info key = some none →
    intAt A stored key = some none ∨ ∃ n, intAt A stored key = some (some n) ∧ fallback = some n

/-- The same of both numbers; the layer of the file is cut at the total. -/
def InfoTold (s : State) (info stored file : Json) : Prop :=
  NumberTold A info stored "total_layer" (fileLayers A file) ∧
    ∀ total, maxLayer A info file = some total →
      NumberTold A info stored "current_layer" (fileLayer A s file total)

variable {A}

theorem numberOr_stored_iff {info stored : Json} {key : String} {fallback : Option ℤ} {v : ℤ}
    (hcarry : ∀ n, intAt A info key = some (some n) → intAt A stored key = some (some n))
    (h : numberOr A info key fallback = some v) :
    numberOr A stored key fallback = some v ↔ NumberTold A info stored key fallback := by
  obtain ⟨told, htold, h⟩ := Option.bind_eq_some_iff.mp h
  rw [NumberTold, htold]
  cases told with
  | some n =>
    cases h
    rw [numberOr, hcarry v htold]
    simp
  | none =>
    have hfallback : fallback = some v := h
    rw [imp_iff_right rfl, numberOr, hfallback]
    cases hstored : intAt A stored key with
    | none => simp
    | some stored => cases stored <;> simp [eq_comm]

theorem layers_stored_iff {s : State} {info stored file : Json} {l : ℤ × ℤ}
    (hcarry : ∀ key n, intAt A info key = some (some n) → intAt A stored key = some (some n))
    (h : layers A s info file = some l) :
    layers A s stored file = some l ↔ InfoTold A s info stored file := by
  obtain ⟨total, htotal, h⟩ := Option.bind_eq_some_iff.mp h
  obtain ⟨current, hcurrent, h⟩ := Option.bind_eq_some_iff.mp h
  cases h
  have hmax := numberOr_stored_iff (hcarry "total_layer") htotal
  have hcur := numberOr_stored_iff (hcarry "current_layer") hcurrent
  rw [InfoTold, ← hmax, htotal]
  simp only [Option.some.injEq, forall_eq', ← hcur, ← maxLayer_eq, ← currentLayer_eq]
  constructor
  · intro hl
    obtain ⟨t, ht, hl⟩ := Option.bind_eq_some_iff.mp hl
    obtain ⟨c, hc, hl⟩ := Option.bind_eq_some_iff.mp hl
    cases hl
    exact ⟨ht, hc⟩
  · rintro ⟨ht, hc⟩
    rw [layers, ht, Option.bind_eq_bind, Option.bind_some, hc]
    rfl

theorem intAt_mergePatch {v : Json} (hv : v.Sorted) (old : Json) {key : String} {n : ℤ}
    (h : intAt A v key = some (some n)) : intAt A (Json.mergePatch old v) key = some (some n) := by
  cases v with
  | obj ps =>
    have hps := (Json.sorted_obj_iff.mp hv).1
    have hread : Json.optional (fun v => (arith? v).map A.int) ((ps.lookup key).getD .null) =
        some (some n) := h
    cases hkey : ps.lookup key with
    | none => simp [hkey, Json.optional] at hread
    | some w =>
      rw [hkey, Option.getD_some] at hread
      have hne : w ≠ .null := by
        rintro rfl
        simp [Json.optional] at hread
      have hobj : w.isObject = false := by
        cases w with
        | obj ms => simp [Json.optional, arith?] at hread
        | _ => rfl
      have hget := Json.get?_mergePatch hps old key
      rw [hkey] at hget
      simp only [hne, if_false, Json.mergePatch_of_not_object _ hobj] at hget
      have hstored : intAt A (Json.mergePatch old (.obj ps)) key =
          Json.optional (fun v => (arith? v).map A.int)
            (((Json.mergePatch old (.obj ps)).get? key).getD .null) := by
        rw [Json.mergePatch]
        rfl
      rw [hstored, hget]
      exact hread
  | _ => rwa [Json.mergePatch_of_not_object old rfl]

theorem sorted_field? {st : Status} {o f : String} {v : Json} (h : st.field? o f = some v) :
    v.Sorted := by
  obtain ⟨fs, ho, hf⟩ := (Session.field?_eq_some_iff st o f v).mp h
  exact (Json.sorted_obj_iff.mp (st.fields _ ho)).2 _ hf

theorem intAt_null (key : String) (n : ℤ) : intAt A .null key ≠ some (some n) := by
  unfold intAt Json.getAt Json.asContainer
  split_ifs
  · cases hindex : Json.arrayIndex 0 key <;> simp [hindex, Json.getAt, Json.optional]
  · simp [Json.getAt, Json.optional]

/-- What a report tells of the layers is stored when it is shown. -/
theorem intAt_stored (s : State) (r : Report) {key : String} {n : ℤ}
    (h : intAt A (infoOf (received s r) r) key = some (some n)) :
    intAt A ((received s r).field "print_stats" "info") key = some (some n) := by
  cases r with
  | subscribed st id t => exact h
  | update st t =>
    rw [received, s.receive_eq, Option.getD_some, Report.status, field_mergeEntry]
    change intAt A ((st.field? "print_stats" "info").getD .null) key = some (some n) at h
    cases hinfo : st.field? "print_stats" "info" with
    | none =>
      rw [hinfo] at h
      exact absurd h (intAt_null key n)
    | some v =>
      rw [hinfo, Option.getD_some] at h
      by_cases hv : v = .null
      · exact absurd (hv ▸ h) (intAt_null key n)
      · simp only [hv, if_false]
        exact intAt_mergePatch (sorted_field? hinfo) _ h

namespace Screen

variable (A)

/-- The layers shown are those of the stored information. -/
def ShowsStored (s : Screen) : Prop :=
  layers A s.panel.state (s.panel.state.field "print_stats" "info") s.panel.currentFile =
    some s.panel.layers

/-- So it is after a report that was handled to its end. -/
def FollowsStored (s : Screen) : Event → Prop
  | .report r => (s.step A (.report r)).running → (s.step A (.report r)).ShowsStored A
  | _ => True

/-- What a report does not tell of the layers is not stored either, or as the file says. -/
def LayersTold (s : Screen) : Event → Prop
  | .report r => (s.step A (.report r)).running →
      let stored := received s.panel.state r
      InfoTold A stored (infoOf stored r) (stored.field "print_stats" "info") s.panel.currentFile
  | _ => True

variable {A}

theorem followsStored_iff (s : Screen) (e : Event) : s.FollowsStored A e ↔ s.LayersTold A e := by
  cases e with
  | report r =>
    refine forall_congr' fun hrun => ?_
    have hstep := step_report (A := A) (running_of_step hrun) r
    cases hconsume : s.consume A r with
    | none =>
      rw [hstep, hconsume] at hrun
      cases hrun
    | some s' =>
      obtain ⟨hpanel, -⟩ := consume_spec hconsume
      obtain ⟨hstate, hfile, -, -, -, hlayers⟩ := report_spec A hpanel
      rw [hstep, hconsume, goOn, Option.getD_some, ShowsStored, hstate, hfile]
      rw [hstate, hfile] at hlayers
      exact layers_stored_iff (fun _ _ => intAt_stored s.panel.state r) hlayers
  | _ => exact Iff.rfl

variable (A)

/-- Every report of a run shows the layers of the stored information exactly if none leaves
out what is stored otherwise than the file says. -/
theorem layers_followed_iff (s : State) (es : List Event) :
    EachStep (step A) (FollowsStored A) (start s) es ↔
      EachStep (step A) (LayersTold A) (start s) es :=
  eachStep_iff_of_invariant (I := fun _ => True) (fun s e _ => followsStored_iff s e)
    (fun _ _ _ _ => trivial) trivial es

/-- Layer 5 of 100 is printed. -/
def layerStatus : Status where
  objects := [("print_stats", [("info", .obj [("current_layer", .num (.int 5)),
    ("total_layer", .num (.int 100))])])]
  keys := List.pairwise_singleton _ _
  fields := by decide

/-- The next report, of the print state, puts the layers to zero. -/
theorem layers_forgotten : ¬ EachStep (step Job.exactArith) (FollowsStored Job.exactArith)
    (start ⟨[], by decide⟩)
    [.report (.subscribed layerStatus 7 0), .report (.update (.ofPrintState "printing") 1)] := by
  rintro ⟨-, h, -⟩
  exact absurd (h (by decide)) (by unfold ShowsStored; decide)

end Screen

end PowerScreen.PrintStatus
