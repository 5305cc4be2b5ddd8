import PowerScreen.State.LastReport

/-! # The print state as panels read it -/
namespace PowerScreen
open Library

namespace State

/-- The last `print_stats.state`, null when none was reported. -/
def printState (s : State) : Json := s.field "print_stats" "state"

def pin (s : State) (name : String) : Json := s.field ("output_pin " ++ name) "value"

end State

namespace Status

/-- A report of the print state alone. -/
def ofPrintState (s : String) : Status where
  objects := [("print_stats", [("state", .str s)])]
  keys := List.pairwise_singleton _ _
  fields o ho := by
    rw [List.mem_singleton.mp ho]
    exact Json.sorted_obj_iff.mpr ⟨List.pairwise_singleton _ _, by simp [Json.sorted_str]⟩

theorem field?_ofPrintState (s : String) :
    (ofPrintState s).field? "print_stats" "state" = some (.str s) := rfl

/-- The pointer of the panels into a notification finds the reported print state. -/
theorem getAt_notification_printState (st : Status) (t : ℚ) :
    Json.getAt ["params", "0", "print_stats", "state"] (st.notification t).json =
      some ((st.field? "print_stats" "state").getD .null) := by
  have hroot : Json.getAt ["params", "0", "print_stats", "state"] (st.notification t).json =
      Json.getAt ["print_stats", "state"] st.json := rfl
  rw [hroot, Status.json, Json.getAt_cons_obj, st.lookup_json, field?]
  cases st.objects.lookup "print_stats" with
  | none => rfl
  | some fs => rfl

end Status

/-- After a notification the print state is the one it reports, if it is a text. -/
theorem State.printState_update (s : State) (st : Status) (t : ℚ) :
    ((s.receive (.update st t)).getD s).printState = match st.field? "print_stats" "state" with
      | none => s.printState
      | some v => if v = .null then .null else Json.mergePatch s.printState v := by
  rw [s.receive_eq, Option.getD_some, State.printState, Report.status, field_mergeEntry]
  rfl

/-- A reported text is the print state. -/
theorem State.printState_ofPrintState (s : State) (st : String) (t : ℚ) :
    ((s.receive (.update (.ofPrintState st) t)).getD s).printState = .str st := by
  rw [State.printState_update, Status.field?_ofPrintState]
  exact Json.mergePatch_of_not_object s.printState rfl

end PowerScreen
