import PowerScreen.ExcludeObject.Deltas

/-! # The delta path against the full-state path

Besides the panel, the store receives the same deltas; the panel reads what has
accumulated there from time to time. A null current object is merged away in the
store, where the panel would have cleared its own.
-/
namespace PowerScreen.ExcludeObject
open Library Library.Run
namespace Delta

variable (st : ObjectStatus)

/-- The store after the deltas of a fresh connection. -/
def stored (s : State) (ds : List Delta) : State :=
  (run PowerScreen.Session.step (PowerScreen.Session.connected s)
    (ds.map fun d => .update (d.status st) d.eventtime)).state

def fullStatus (s : State) (ds : List Delta) : Option Json :=
  (stored st s ds).getData ["printer_state", "exclude_object"]

theorem get?_step (c : PowerScreen.Session) (d : Delta) :
    (c.step (.update (d.status st) d.eventtime)).state.printer.get? "exclude_object" =
      some (Json.mergePatch (c.state.printer.get "exclude_object") (.obj (d.fields st))) := by
  rw [PowerScreen.Session.step_state, State.printer_mergeEntry, get?_mergePatch_status]
  rfl

/-- A field of the accumulated status: the value of the status once a delta has
carried it, and nothing if that value is null. -/
theorem get?_run {k : String} {v : Json} {f : Delta → Bool} (hv : v.isObject = false)
    (hf : ∀ d : Delta, (d.fields st).lookup k = if f d then some v else none)
    (c : PowerScreen.Session) (ds : List Delta) :
    ((run PowerScreen.Session.step c
        (ds.map fun d => .update (d.status st) d.eventtime)).state.printer.get
      "exclude_object").get? k =
      if ds.any f then (if v = .null then none else some v)
      else (c.state.printer.get "exclude_object").get? k := by
  induction ds generalizing c with
  | nil => rfl
  | cons d ds ih =>
    have hsort := (Json.sorted_obj_iff.mp (d.sorted_fields st)).1
    rw [List.map_cons, run_cons, ih, Json.get, get?_step, Option.getD_some,
      Json.get?_mergePatch hsort, hf d, List.any_cons]
    cases f d
    · rfl
    · cases ds.any f <;> simp [Json.mergePatch_of_not_object _ hv]

/-- The pointer read finds the entry of the store. -/
theorem fullStatus_eq (s : State) (ds : List Delta) :
    fullStatus st s ds = some ((stored st s ds).printer.get "exclude_object") := by
  have hshape : (stored st s ds).printer = .null ∨ (stored st s ds).printer.isObject := by
    refine @run_of_step _ _ PowerScreen.Session.step
      (fun c => c.state.printer = .null ∨ c.state.printer.isObject) (fun c r _ => ?_) _
      (Or.inl rfl) _
    rw [PowerScreen.Session.step_state, State.printer_mergeEntry]
    exact Or.inr rfl
  have hroot : fullStatus st s ds = Json.getAt ["exclude_object"] (stored st s ds).printer := rfl
  rw [hroot]
  cases hp : (stored st s ds).printer with
  | null => rfl
  | obj ms => rfl
  | _ => simp [hp, Json.isObject] at hshape

/-- What the store has accumulated acts as one delta, without a null current object. -/
def remembered (ds : List Delta) : Delta :=
  { accumulated ds with current := ds.any current && st.current.isSome }

theorem get?_stored (s : State) (ds : List Delta) {k : String} {v : Json} {f : Delta → Bool}
    (hv : v.isObject = false)
    (hf : ∀ d : Delta, (d.fields st).lookup k = if f d then some v else none)
    (hr : (f (remembered st ds) = true) = (ds.any f = true ∧ v ≠ .null)) :
    ((stored st s ds).printer.get "exclude_object").get? k =
      (Json.obj ((remembered st ds).fields st)).get? k := by
  have hempty :
      ((PowerScreen.Session.connected s).state.printer.get "exclude_object").get? k = none := rfl
  have hrem : (Json.obj ((remembered st ds).fields st)).get? k =
      if f (remembered st ds) then some v else none := hf _
  rw [stored, get?_run st hv hf, hempty, hrem]
  simp only [hr]
  by_cases hany : ds.any f <;> by_cases hvn : v = .null <;> simp [hany, hvn]

theorem content_sync_fullStatus (s : State) (p : Panel) (ds : List Delta) :
    ((fullStatus st s ds).bind p.syncFromState).map Panel.content =
      (remembered st ds).apply st p.content := by
  have hcurrent : (st.current.elim .null .str : Json).isObject = false := by
    cases st.current <;> rfl
  rw [fullStatus_eq, Option.bind_some, Panel.content_syncFromState, ← content_merge_fields,
    Panel.content_merge, Panel.content_merge,
    get?_stored st s ds rfl (fun d => (d.lookup_fields st).1) (by simp [remembered, accumulated]),
    get?_stored st s ds rfl (fun d => (d.lookup_fields st).2.1)
      (by simp [remembered, accumulated]),
    get?_stored st s ds hcurrent (fun d => (d.lookup_fields st).2.2)
      (by cases hc : st.current <;> simp [remembered, hc])]

/-- A null current object that has been delivered finds none to clear in the panel. -/
def Cleared (p : Panel) (ds : List Delta) : Prop :=
  Readable st ds → ds.any current → st.current = none → p.currentObject = ""

theorem writeCurrent_remembered_iff (ds : List Delta) (current : String) :
    (accumulated ds).writeCurrent st current = (remembered st ds).writeCurrent st current ↔
      (ds.any Delta.current → st.current = none → current = "") := by
  cases hany : ds.any Delta.current <;> cases hc : st.current <;>
    simp [writeCurrent, accumulated, remembered, hany, hc, eq_comm]

/-- The deltas lead to the content of one merge of what they carry exactly when the
exclusions recover; to that of the store's status, when besides no null current
object gets lost in the store. -/
theorem deliver_agrees_iff (s : State) (p : Panel) (ds : List Delta) :
    ((deliver st p ds).map Panel.content =
        (p.merge (.obj ((accumulated ds).fields st))).map Panel.content ↔ Recovers st p ds) ∧
    ((deliver st p ds).map Panel.content =
        ((fullStatus st s ds).bind p.syncFromState).map Panel.content ↔
      Recovers st p ds ∧ Cleared st p ds) := by
  constructor
  · rw [content_merge_fields, deliver_eq_apply_iff st p ds (accumulated ds) rfl rfl]
    exact and_iff_left fun _ => rfl
  · rw [content_sync_fullStatus, deliver_eq_apply_iff st p ds (remembered st ds) rfl rfl]
    exact and_congr_right fun _ => imp_congr_right fun _ =>
      writeCurrent_remembered_iff st ds p.currentObject

/-- One object of the print, excluded. -/
def excludedCube : ObjectStatus where
  objects := [.obj [("name", .str "cube")]]
  excluded := [.str "cube"]
  current := none
  objectsSorted := by decide
  excludedSorted := by decide

/-- The exclusion arrives first and is forgotten. -/
theorem early_exclusion_lost :
    ¬ (deliver excludedCube {} [⟨false, true, false, 0⟩, ⟨true, false, false, 1⟩]).map
        Panel.content =
      (({} : Panel).merge (.obj ((accumulated
        [⟨false, true, false, 0⟩, ⟨true, false, false, 1⟩]).fields excludedCube))).map
          Panel.content := by
  decide

end Delta
end PowerScreen.ExcludeObject
