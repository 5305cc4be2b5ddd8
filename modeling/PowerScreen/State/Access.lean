import PowerScreen.State.Store

/-! # Reading the state

`get_data` reads through the unchecked access: what a pointer leads to is created as null
when nothing was stored there.
-/
namespace PowerScreen.State
open Library

/-- `data[ptr]`, the value and the state that is left; `none` is an exception. -/
def read (s : State) (key : String) (ts : List String) : Option (Json × State) :=
  match h : Json.modifyAt id ts (s.data.get key) with
  | none => none
  | some v => (Json.getAt ts (s.data.get key)).map fun j =>
    (j, ⟨Assoc.insert key v s.entries,
      Json.sorted_insert s.sorted key
        (Json.Sorted.modifyAt (fun _ hj => hj) (Json.Sorted.get s.sorted key) h)⟩)

/-- The same for the text of a pointer. -/
def readPointer (s : State) (p : String) : Option (Json × State) :=
  match Json.parsePointer p with
  | some (t :: ts) => s.read t ts
  | some [] => some (s.data, s)
  | none => none

theorem ext_entries {s s' : State} (h : s.entries = s'.entries) : s = s' := by
  cases s
  cases s'
  cases h
  rfl

theorem read_eq_some {s s' : State} {key : String} {ts : List String} {j : Json} :
    s.read key ts = some (j, s') ↔ Json.getAt ts (s.data.get key) = some j ∧
      ∃ v, Json.modifyAt id ts (s.data.get key) = some v ∧
        s'.entries = Assoc.insert key v s.entries := by
  unfold read
  split
  · rename_i hv
    simp [hv]
  · rename_i v hv
    simp only [Option.map_eq_some_iff, Prod.mk.injEq, hv, Option.some.injEq, exists_eq_left']
    constructor
    · rintro ⟨i, hi, rfl, rfl⟩
      exact ⟨hi, rfl⟩
    · rintro ⟨hj, hs⟩
      exact ⟨j, hj, rfl, (ext_entries hs).symm⟩

theorem isSome_read (s : State) (key : String) (ts : List String) :
    (s.read key ts).isSome = (Json.getAt ts (s.data.get key)).isSome := by
  unfold read
  split
  · rename_i hv
    rw [← Json.isSome_modifyAt id, hv]
    rfl
  · rw [Option.isSome_map]

/-- Where there is an entry, reading it leaves the state as it is. -/
theorem read_of_entryAt {s : State} {key : String} {ts : List String} {j : Json}
    (h : Json.entryAt (key :: ts) s.data = some j) : s.read key ts = some (j, s) := by
  obtain ⟨w, hw, hj⟩ := Option.bind_eq_some_iff.mp h
  have hget : s.data.get key = w := by rw [Json.get, hw, Option.getD_some]
  have hlook : s.entries.lookup key = some w := hw
  obtain ⟨hread, hmod⟩ := Json.access_of_entryAt (Json.Sorted.of_mem s.sorted
    (Assoc.mem_of_lookup hlook)) hj
  refine read_eq_some.mpr ⟨by rw [hget, hread], w, by rw [hget, hmod], ?_⟩
  exact (Assoc.insert_of_lookup (Json.sorted_obj_iff.mp s.sorted).1 hlook).symm

end PowerScreen.State
