import PowerScreen.Library.Run
import PowerScreen.Library.JsonPointer

/-! # The accumulated printer state

`State` keeps one JSON object; every report of the printer is merged into the
entry `printer_state` of that object. The messages are those of the Moonraker
subscription: the reply to `printer.objects.subscribe` carries the full status
under `/result/status`, each `notify_status_update` a partial one under
`/params/0`.
-/
namespace PowerScreen
open Library

/-- A parsed document: its objects list their keys in order. -/
structure Doc where
  json : Json
  sorted : json.Sorted

/-- The data is null before the first write, which reads as the empty object. -/
structure State where
  entries : List (String × Json)
  sorted : (Json.obj entries).Sorted

namespace State

def data (s : State) : Json := .obj s.entries

def reset (_ : State) : State := ⟨[], by simp [Json.sorted_obj_iff]⟩

/-- `data[key].merge_patch(patch)` -/
def mergeEntry (s : State) (key : String) (patch : Json) (hp : patch.Sorted) : State :=
  ⟨Assoc.insert key (Json.mergePatch (s.data.get key) patch) s.entries,
    Json.sorted_insert s.sorted key (Json.sorted_mergePatch (Json.Sorted.get s.sorted key) hp)⟩

/-- `none` is the exception of a pointer that runs into a scalar. -/
def setData (s : State) (key : String) (j : Doc) (path : List String) : Option State :=
  match h : Json.getAt path j.json with
  | none => none
  | some patch =>
    some (if patch = .null then s else s.mergeEntry key patch (j.sorted.getAt h))

def getData (s : State) (path : List String) : Option Json := Json.getAt path s.data

def consume (s : State) (j : Doc) : Option State :=
  if j.json.contains "params" && !(j.json.get "params").isEmpty then
    s.setData "printer_state" j ["params", "0"]
  else some s

end State

/-- What Klipper reports: for each object the fields that have a new value. -/
structure Status where
  objects : List (String × List (String × Json))
  keys : Assoc.Sorted objects
  fields : ∀ o ∈ objects, (Json.obj o.2).Sorted

namespace Status

def json (st : Status) : Json := .obj (st.objects.map fun o => (o.1, .obj o.2))

/-- The complete new value of a field, when the report carries one. -/
def field? (st : Status) (o f : String) : Option Json := (st.objects.lookup o).bind (·.lookup f)

theorem lookup_json (st : Status) (o : String) :
    (st.objects.map fun o => (o.1, Json.obj o.2)).lookup o = (st.objects.lookup o).map .obj := by
  induction st.objects with
  | nil => rfl
  | cons m ms ih =>
    rw [List.map_cons, Assoc.lookup_cons, Assoc.lookup_cons, ih]
    split_ifs <;> rfl

theorem sorted_json (st : Status) : st.json.Sorted := by
  refine Json.sorted_obj_iff.mpr ⟨List.pairwise_map.mpr st.keys, fun m hm => ?_⟩
  obtain ⟨o, ho, rfl⟩ := List.mem_map.mp hm
  exact st.fields o ho

theorem json_ne_null (st : Status) : st.json ≠ .null := by simp [json]

/-- The `notify_status_update` message that carries a status. -/
def notification (st : Status) (eventtime : ℚ) : Doc where
  json := .obj [("jsonrpc", .str "2.0"), ("method", .str "notify_status_update"),
    ("params", .arr [st.json, .num (.float eventtime)])]
  sorted := by
    refine Json.sorted_obj_iff.mpr ⟨Assoc.sorted_of_keys
      (show ["jsonrpc", "method", "params"].Pairwise (· < ·) by decide), ?_⟩
    simp [Json.Sorted, Json.SortedElems, st.sorted_json]

/-- The reply to the subscription request. -/
def subscribeReply (st : Status) (id : ℕ) (eventtime : ℚ) : Doc where
  json := .obj [("id", .num (.int id)), ("jsonrpc", .str "2.0"),
    ("result", .obj [("eventtime", .num (.float eventtime)), ("status", st.json)])]
  sorted := by
    have hresult : (Json.obj [("eventtime", .num (.float eventtime)), ("status", st.json)]).Sorted :=
      Json.sorted_obj_iff.mpr ⟨Assoc.sorted_of_keys
        (show ["eventtime", "status"].Pairwise (· < ·) by decide), by
          simp [Json.Sorted, st.sorted_json]⟩
    refine Json.sorted_obj_iff.mpr ⟨Assoc.sorted_of_keys
      (show ["id", "jsonrpc", "result"].Pairwise (· < ·) by decide), ?_⟩
    intro m hm
    simp only [List.mem_cons, List.not_mem_nil, or_false] at hm
    rcases hm with rfl | rfl | rfl
    · simp [Json.Sorted]
    · exact Json.sorted_str _
    · exact hresult

end Status

namespace State

theorem setData_of_getAt {s : State} {key : String} {j : Doc} {path : List String} {patch : Json}
    (h : Json.getAt path j.json = some patch) (hn : patch ≠ .null) :
    s.setData key j path = some (s.mergeEntry key patch (j.sorted.getAt h)) := by
  unfold setData
  split
  · rename_i heq
    rw [h] at heq
    cases heq
  · rename_i p heq
    rw [h] at heq
    cases heq
    rw [if_neg hn]

theorem getAt_subscribeReply (st : Status) (id : ℕ) (t : ℚ) :
    Json.getAt ["result", "status"] (st.subscribeReply id t).json = some st.json := by
  rfl

theorem getAt_notification (st : Status) (t : ℚ) :
    Json.getAt ["params", "0"] (st.notification t).json = some st.json := by
  rfl

/-- Both kinds of report end in the same merge. -/
theorem setData_subscribeReply (s : State) (st : Status) (id : ℕ) (t : ℚ) :
    s.setData "printer_state" (st.subscribeReply id t) ["result", "status"] =
      some (s.mergeEntry "printer_state" st.json st.sorted_json) :=
  setData_of_getAt (getAt_subscribeReply st id t) st.json_ne_null

theorem consume_notification (s : State) (st : Status) (t : ℚ) :
    s.consume (st.notification t) =
      some (s.mergeEntry "printer_state" st.json st.sorted_json) := by
  have hparams : ((st.notification t).json.contains "params" &&
      !((st.notification t).json.get "params").isEmpty) = true := rfl
  rw [consume, if_pos hparams]
  exact setData_of_getAt (getAt_notification st t) st.json_ne_null

end State
end PowerScreen
