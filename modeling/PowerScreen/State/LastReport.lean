import PowerScreen.State.Store

/-! # The stored state against the last report of every field

The protocol replaces a field by its complete new value; the store merges it into
what it holds. The abstract session remembers the last reported value of every
field, and the store agrees with it throughout a run exactly when every report
mentions all the keys stored under the fields it carries.
-/
namespace PowerScreen
open Library Library.Run

inductive Report where
  | subscribed (st : Status) (id : ℕ) (eventtime : ℚ)
  | update (st : Status) (eventtime : ℚ)

def Report.status : Report → Status
  | .subscribed st _ _ => st
  | .update st _ => st

namespace State

/-- The callback of the subscription and the consumer of the notifications. -/
def receive (s : State) : Report → Option State
  | .subscribed st id t => s.setData "printer_state" (st.subscribeReply id t) ["result", "status"]
  | .update st t => s.consume (st.notification t)

theorem receive_eq (s : State) (r : Report) :
    s.receive r = some (s.mergeEntry "printer_state" r.status.json r.status.sorted_json) := by
  cases r with
  | subscribed st id t => exact s.setData_subscribeReply st id t
  | update st t => exact s.consume_notification st t

def printer (s : State) : Json := s.data.get "printer_state"

def field (s : State) (o f : String) : Json := (s.printer.get o).get f

theorem printer_sorted (s : State) : s.printer.Sorted := Json.Sorted.get s.sorted _

theorem field_sorted (s : State) (o f : String) : (s.field o f).Sorted :=
  (s.printer_sorted.get o).get f

theorem printer_mergeEntry (s : State) (st : Status) :
    (s.mergeEntry "printer_state" st.json st.sorted_json).printer =
      Json.mergePatch s.printer st.json := by
  simp [printer, mergeEntry, data, Json.get, Json.get?, Json.members]

/-- The pointer read of a field whose object is stored as an object. -/
theorem getData_field {s : State} {o : String} {v : Json} (h : s.printer.get? o = some v)
    (hv : v.isObject) (f : String) : s.getData ["printer_state", o, f] = some (s.field o f) := by
  have hroot : Json.getAt ["printer_state", o, f] s.data = Json.getAt [o, f] s.printer := rfl
  have hobj : s.printer.get o = v := by simp [Json.get, h]
  rw [getData, hroot, field, hobj]
  cases hp : s.printer with
  | obj ms =>
    rw [hp] at h
    cases v with
    | obj fs =>
      rw [Json.getAt_cons_obj, show ms.lookup o = some (.obj fs) from h]
      rfl
    | _ => simp [Json.isObject] at hv
  | _ => simp [hp, Json.get?, Json.members] at h

end State

/-- What one report does to the object of a field: it stays, or it is merged. -/
theorem get?_mergePatch_status (st : Status) (p : Json) (o : String) :
    (Json.mergePatch p st.json).get? o = match st.objects.lookup o with
      | none => p.get? o
      | some fs => some (Json.mergePatch (p.get o) (.obj fs)) := by
  have hsort := (Json.sorted_obj_iff.mp st.sorted_json).1
  rw [Status.json, Json.get?_mergePatch hsort, st.lookup_json]
  cases st.objects.lookup o <;> simp

theorem field_mergeEntry (s : State) (st : Status) (o f : String) :
    (s.mergeEntry "printer_state" st.json st.sorted_json).field o f = match st.field? o f with
      | none => s.field o f
      | some v => if v = .null then .null else Json.mergePatch (s.field o f) v := by
  have hget := get?_mergePatch_status st s.printer o
  rw [State.field, s.printer_mergeEntry st, Status.field?]
  cases ho : st.objects.lookup o with
  | none =>
    have hobj : (Json.mergePatch s.printer st.json).get o = s.printer.get o := by
      simp [Json.get, hget, ho]
    rw [hobj]
    rfl
  | some fs =>
    have hfs := (Json.sorted_obj_iff.mp (st.fields _ (Assoc.mem_of_lookup ho))).1
    have hobj : (Json.mergePatch s.printer st.json).get o =
        Json.mergePatch (s.printer.get o) (.obj fs) := by simp [Json.get, hget, ho]
    rw [hobj, Json.get, Json.get?_mergePatch hfs, Option.bind_some]
    cases fs.lookup f with
    | none => rfl
    | some v =>
      dsimp only
      split_ifs <;> rfl

/-- The protocol's view: the last value reported of every field. -/
abbrev Reported := String → String → Option Json

def Reported.report (r : Reported) (st : Status) : Reported :=
  fun o f => (st.field? o f).or (r o f)

structure Session where
  state : State
  reported : Reported

namespace Session

/-- The connection has just been made: the store is reset and nothing is reported. -/
def connected (s : State) : Session := ⟨s.reset, fun _ _ => none⟩

def step (c : Session) (r : Report) : Session :=
  ⟨(c.state.receive r).getD c.state, c.reported.report r.status⟩

/-- Every field reads as its last reported value. -/
def Agrees (c : Session) : Prop :=
  ∀ o f v, c.reported o f = some v → c.state.getData ["printer_state", o, f] = some v

/-- Every value of the report is null or mentions, at every level, all the keys that
are stored under its field, and has no null inside. -/
def Replaces (c : Session) (r : Report) : Prop :=
  ∀ o ∈ r.status.objects, ∀ m ∈ o.2, m.2 = .null ∨ Json.covers (c.state.field o.1 m.1) m.2

/-- The objects of the printer are stored as objects, those reported among them. -/
structure Shape (c : Session) : Prop where
  objects : ∀ o v, c.state.printer.get? o = some v → v.isObject
  known : ∀ o f v, c.reported o f = some v → (c.state.printer.get? o).isSome

theorem step_state (c : Session) (r : Report) :
    (c.step r).state = c.state.mergeEntry "printer_state" r.status.json r.status.sorted_json := by
  rw [step, c.state.receive_eq r, Option.getD_some]

theorem shape_connected (s : State) : Shape (connected s) where
  objects o v h := by
    simp [connected, State.printer, State.reset, State.data, Json.get, Json.get?, Json.members] at h
  known o f v h := by simp [connected] at h

theorem Shape.step {c : Session} (h : Shape c) (r : Report) : Shape (c.step r) where
  objects o v hv := by
    rw [step_state, State.printer_mergeEntry, get?_mergePatch_status] at hv
    cases ho : r.status.objects.lookup o with
    | none =>
      rw [ho] at hv
      exact h.objects o v hv
    | some fs =>
      rw [ho] at hv
      cases hv
      simp [Json.mergePatch, Json.isObject]
  known o f v hv := by
    rw [step_state, State.printer_mergeEntry, get?_mergePatch_status]
    cases ho : r.status.objects.lookup o with
    | none =>
      have hold : c.reported o f = some v := by
        simpa [Session.step, Reported.report, Status.field?, ho] using hv
      exact h.known o f v hold
    | some fs => rfl

theorem Shape.getData {c : Session} (h : Shape c) {o f : String} {v : Json}
    (hr : c.reported o f = some v) :
    c.state.getData ["printer_state", o, f] = some (c.state.field o f) := by
  obtain ⟨w, hw⟩ := Option.isSome_iff_exists.mp (h.known o f v hr)
  exact State.getData_field hw (h.objects o w hw) f

theorem agrees_iff_field {c : Session} (h : Shape c) :
    c.Agrees ↔ ∀ o f v, c.reported o f = some v → c.state.field o f = v := by
  constructor
  · intro ha o f v hr
    have hread := ha o f v hr
    rwa [h.getData hr, Option.some.injEq] at hread
  · intro ha o f v hr
    rw [h.getData hr, ha o f v hr]

/-- A merged field holds the reported value exactly when the value replaces it. -/
theorem merged_eq_iff (s : State) {v : Json} (hv : v.Sorted) (o f : String) :
    (if v = .null then .null else Json.mergePatch (s.field o f) v) = v ↔
      v = .null ∨ Json.covers (s.field o f) v := by
  by_cases hn : v = .null
  · simp [hn]
  · simp only [hn, if_false, false_or]
    exact Json.mergePatch_eq_self_iff (s.field_sorted o f) hv

theorem field?_eq_some_iff (st : Status) (o f : String) (v : Json) :
    st.field? o f = some v ↔ ∃ fs, (o, fs) ∈ st.objects ∧ (f, v) ∈ fs := by
  rw [Status.field?, Option.bind_eq_some_iff]
  constructor
  · rintro ⟨fs, ho, hf⟩
    exact ⟨fs, Assoc.mem_of_lookup ho, Assoc.mem_of_lookup hf⟩
  · rintro ⟨fs, ho, hf⟩
    have hfs := (Json.sorted_obj_iff.mp (st.fields _ ho)).1
    exact ⟨fs, Assoc.lookup_of_mem st.keys ho, Assoc.lookup_of_mem hfs hf⟩

/-- One report keeps the agreement exactly when it replaces what it reports. -/
theorem agrees_step_iff {c : Session} (h : Shape c) (ha : c.Agrees) (r : Report) :
    (c.step r).Agrees ↔ c.Replaces r := by
  rw [agrees_iff_field (h.step r), step_state]
  rw [agrees_iff_field h] at ha
  constructor
  · rintro hnew ⟨o, fs⟩ ho ⟨f, v⟩ hf
    have hfield : r.status.field? o f = some v := (field?_eq_some_iff _ _ _ _).mpr ⟨fs, ho, hf⟩
    have hv : v.Sorted := (Json.sorted_obj_iff.mp (r.status.fields _ ho)).2 _ hf
    have heq := hnew o f v (by simp [step, Reported.report, hfield])
    rw [field_mergeEntry, hfield] at heq
    exact (merged_eq_iff c.state hv o f).mp heq
  · intro hrep o f v hr
    rw [field_mergeEntry]
    cases hfield : r.status.field? o f with
    | none =>
      have hold : c.reported o f = some v := by
        simpa [step, Reported.report, hfield] using hr
      exact ha o f v hold
    | some w =>
      have hw : w = v := by simpa [step, Reported.report, hfield] using hr
      subst hw
      obtain ⟨fs, ho, hf⟩ := (field?_eq_some_iff _ _ _ _).mp hfield
      have hv : w.Sorted := (Json.sorted_obj_iff.mp (r.status.fields _ ho)).2 _ hf
      exact (merged_eq_iff c.state hv o f).mpr (hrep _ ho _ hf)

theorem agrees_connected (s : State) : (connected s).Agrees := fun o f v hr => by
  simp [connected] at hr

/-- Two mesh profiles are stored. -/
def twoProfiles : Status where
  objects := [("bed_mesh", [("profile_name", .str "default"),
    ("profiles", .obj [("cold", .obj []), ("default", .obj [])])])]
  keys := by decide
  fields := by decide

/-- The profile `cold` has been deleted: the complete new value of `profiles`. -/
def coldDeleted : Status where
  objects := [("bed_mesh", [("profiles", .obj [("default", .obj [])])])]
  keys := by decide
  fields := by decide

end Session
end PowerScreen
