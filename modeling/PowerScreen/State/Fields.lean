import PowerScreen.State.LastReport

/-! # Fields by the text of a pointer

Panels whose objects are known at run time only write the name of an object into the text
of a pointer, and read the field in a notification or in the store with it.
-/
namespace PowerScreen
open Library Library.Json

/-- A token that the text of a pointer spells as it is. -/
structure Spelled (t : String) : Prop where
  slash : '/' ∉ t.toList
  tilde : '~' ∉ t.toList

/-- The name of an object or of a field. -/
structure IsName (t : String) : Prop extends Spelled t where
  key : IsKey t

instance (t : String) : Decidable (Spelled t) :=
  decidable_of_iff ('/' ∉ t.toList ∧ '~' ∉ t.toList) ⟨fun h => ⟨h.1, h.2⟩, fun h => ⟨h.1, h.2⟩⟩

instance (t : String) : Decidable (IsName t) :=
  decidable_of_iff (Spelled t ∧ IsKey t) ⟨fun h => ⟨h.1, h.2⟩, fun h => ⟨h.1, h.2⟩⟩

theorem Spelled.unescape {t : String} (h : Spelled t) :
    (unescape t.toList).map String.ofList = some t := by
  rw [unescape_of_not_mem h.tilde, Option.map_some, String.ofList_toList]

theorem mapM_unescape {ts : List String} (h : ∀ t ∈ ts, Spelled t) :
    (ts.map String.toList).mapM (fun t => (unescape t).map String.ofList) = some ts := by
  induction ts with
  | nil => rfl
  | cons t ts ih =>
    rw [List.map_cons, List.mapM_cons, (h t List.mem_cons_self).unescape,
      ih fun u hu => h u (List.mem_cons_of_mem t hu)]
    rfl

theorem splitOn_intercalate {t : String} {ts : List String} (h : ∀ u ∈ t :: ts, Spelled u) :
    splitOn '/' (t.toList ++ (ts.map fun u => '/' :: u.toList).flatten) =
      (t :: ts).map String.toList := by
  induction ts generalizing t with
  | nil => simp [splitOn_of_not_mem (h t List.mem_cons_self).slash]
  | cons u ts ih =>
    rw [List.map_cons, List.flatten_cons, List.cons_append,
      splitOn_append (h t List.mem_cons_self).slash, ih fun v hv => h v (List.mem_cons_of_mem t hv)]
    rfl

/-- The tokens of a text that is written from them. -/
theorem parsePointer_spelled {p : String} {ts : List String} (h : ∀ t ∈ ts, Spelled t)
    (hp : p.toList = (ts.map fun t => '/' :: t.toList).flatten) : parsePointer p = some ts := by
  cases ts with
  | nil =>
    rw [parsePointer, hp]
    rfl
  | cons t ts =>
    rw [parsePointer, hp, List.map_cons, List.flatten_cons, List.cons_append]
    change ((splitOn '/' (t.toList ++ _)).mapM _) = _
    rw [splitOn_intercalate h, mapM_unescape h]

/-- A value of the printer's object `o` in a notification, null where it has none. -/
def Status.read (st : Status) (t : ℚ) (o f : String) : Option Json :=
  (parsePointer ("/params/0/" ++ o ++ "/" ++ f)).bind fun ts => getAt ts (st.notification t).json

/-- The same in the store. -/
def State.readField (s : State) (o f : String) : Option Json :=
  (parsePointer ("/printer_state/" ++ o ++ "/" ++ f)).bind s.getData

/-- The store as reports leave it: the objects of the printer are objects. -/
structure State.Records (s : State) : Prop where
  root : s.printer.IsRecord
  objects : ∀ o v, s.printer.get? o = some v → v.isObject

theorem Status.read_eq (st : Status) (t : ℚ) {o f : String} (ho : IsName o) (hf : IsName f) :
    st.read t o f = some ((st.field? o f).getD .null) := by
  have hparse : parsePointer ("/params/0/" ++ o ++ "/" ++ f) = some ["params", "0", o, f] :=
    parsePointer_spelled (by
      simp [ho.toSpelled, hf.toSpelled, (by decide : Spelled "params"),
        (by decide : Spelled "0")]) (by simp)
  have hroot : getAt ["params", "0", o, f] (st.notification t).json = getAt [o, f] st.json := rfl
  rw [Status.read, hparse, Option.bind_some, hroot, Status.json, getAt_cons_obj, st.lookup_json,
    Status.field?]
  cases st.objects.lookup o with
  | none =>
    have hnull : Json.null.IsRecord := Or.inl rfl
    exact hnull.getAt hf.key []
  | some fs => rfl

theorem State.Records.readField_eq {s : State} (hs : s.Records) {o f : String} (ho : IsName o)
    (hf : IsName f) : s.readField o f = some (s.field o f) := by
  have hparse : parsePointer ("/printer_state/" ++ o ++ "/" ++ f) =
      some ["printer_state", o, f] :=
    parsePointer_spelled (by
      simp [ho.toSpelled, hf.toSpelled, (by decide : Spelled "printer_state")]) (by simp)
  have hroot : s.getData ["printer_state", o, f] = getAt [o, f] s.printer := rfl
  have hobject : (s.printer.get o).IsRecord := by
    rw [Json.get]
    cases ho : s.printer.get? o with
    | none => exact Or.inl rfl
    | some v => exact Or.inr (hs.objects o v ho)
  rw [State.readField, hparse, Option.bind_some, hroot, hs.root.getAt ho.key,
    hobject.getAt hf.key]
  rfl

theorem State.records_reset (s : State) : s.reset.Records where
  root := Or.inl rfl
  objects o v h := by
    simp [State.printer, State.reset, State.data, Json.get, Json.get?, Json.members] at h

/-- A report keeps the store a record of objects. -/
theorem State.Records.receive {s : State} (h : s.Records) (r : Report) :
    ((s.receive r).getD s).Records where
  root := by
    rw [s.receive_eq r, Option.getD_some, State.printer_mergeEntry, Status.json, Json.mergePatch]
    exact isRecord_obj _
  objects o v hv := by
    rw [s.receive_eq r, Option.getD_some, State.printer_mergeEntry, get?_mergePatch_status] at hv
    cases ho : r.status.objects.lookup o with
    | none =>
      rw [ho] at hv
      exact h.objects o v hv
    | some fs =>
      rw [ho] at hv
      cases hv
      simp [Json.mergePatch, Json.isObject]

/-- A field after a report, for values that are no objects. -/
theorem State.field_receive (s : State) (r : Report) (o f : String) :
    ((s.receive r).getD s).field o f = match r.status.field? o f with
      | none => s.field o f
      | some v => if v = .null then .null else Json.mergePatch (s.field o f) v := by
  rw [s.receive_eq r, Option.getD_some]
  exact field_mergeEntry s r.status o f

end PowerScreen
