import Mathlib.Data.List.Basic

/-! # Reading a text piece by piece

What a loop of `getline` with a delimiter reads: every piece up to the next delimiter,
and the rest of the text only if there is any.
-/
namespace PowerScreen.Library

variable {α : Type*} [DecidableEq α]

omit [DecidableEq α] in
/-- For a list that can be gone through, where the type of its elements cannot. -/
theorem forall_mem_of_all {p : α → Prop} [DecidablePred p] {l : List α}
    (h : l.all (fun a => decide (p a)) = true) : ∀ a ∈ l, p a :=
  fun a ha => of_decide_eq_true (List.all_eq_true.mp h a ha)

def fields (d : α) : List α → List (List α)
  | [] => []
  | c :: cs =>
    if c = d then [] :: fields d cs
    else match fields d cs with
      | [] => [[c]]
      | f :: fs => (c :: f) :: fs

theorem fields_append_cons {d : α} {f : List α} (hf : d ∉ f) (cs : List α) :
    fields d (f ++ d :: cs) = f :: fields d cs := by
  induction f with
  | nil => simp [fields]
  | cons c f ih =>
    have hc : c ≠ d := fun h => hf (h ▸ List.mem_cons_self)
    rw [List.cons_append, fields, if_neg hc, ih fun h => hf (List.mem_cons_of_mem c h)]

theorem fields_of_not_mem {d : α} {f : List α} (hf : d ∉ f) (hne : f ≠ []) :
    fields d f = [f] := by
  induction f with
  | nil => exact absurd rfl hne
  | cons c f ih =>
    have hc : c ≠ d := fun h => hf (h ▸ List.mem_cons_self)
    rw [fields, if_neg hc]
    cases f with
    | nil => rfl
    | cons e f => rw [ih (fun h => hf (List.mem_cons_of_mem c h)) (List.cons_ne_nil e f)]

/-- Lines that each end in the delimiter are read back. -/
theorem fields_lines {d : α} {ls : List (List α)} (h : ∀ l ∈ ls, d ∉ l) :
    fields d (ls.flatMap (· ++ [d])) = ls := by
  induction ls with
  | nil => rfl
  | cons l ls ih =>
    rw [List.flatMap_cons, List.append_assoc, List.singleton_append,
      fields_append_cons (h l List.mem_cons_self),
      ih fun m hm => h m (List.mem_cons_of_mem l hm)]

omit [DecidableEq α] in
/-- A word without the delimiter lies on one side of it. -/
theorem infix_append_cons_iff {d : α} {p a b : List α} (hd : d ∉ p) :
    p <:+: a ++ d :: b ↔ p <:+: a ∨ p <:+: b := by
  constructor
  · rintro ⟨s, t, h⟩
    rcases List.append_eq_append_iff.mp h with ⟨u, ha, -⟩ | ⟨u, hsp, hu⟩
    · exact Or.inl ⟨s, u, ha.symm⟩
    · cases u with
      | nil => exact Or.inl ⟨s, [], by rw [hsp, List.append_nil, List.append_nil]⟩
      | cons e u =>
        obtain ⟨rfl, rfl⟩ := List.cons.inj hu
        have hmem : d ∈ s ++ p := hsp ▸ List.mem_append_right _ List.mem_cons_self
        rcases List.append_eq_append_iff.mp hsp with ⟨v, rfl, hp⟩ | ⟨v, rfl, hv⟩
        · exact absurd (hp ▸ List.mem_append_right _ List.mem_cons_self) hd
        · cases v with
          | nil =>
            have hp : d :: u = p := hv
            exact absurd (hp ▸ List.mem_cons_self) hd
          | cons f v =>
            obtain ⟨rfl, rfl⟩ := List.cons.inj hv
            exact Or.inr ⟨v, t, rfl⟩
  · rintro (⟨s, t, rfl⟩ | ⟨s, t, rfl⟩)
    · exact ⟨s, t ++ d :: b, by simp⟩
    · exact ⟨a ++ d :: s, t, by simp⟩

/-- What a list is read to comes from its elements. -/
theorem exists_of_mem_mapM {α β : Type*} {f : α → Option β} {l : List α} {l' : List β}
    (h : l.mapM f = some l') {b : β} (hb : b ∈ l') : ∃ a ∈ l, f a = some b := by
  induction l generalizing l' with
  | nil =>
    cases h
    cases hb
  | cons a l ih =>
    rw [List.mapM_cons] at h
    obtain ⟨b', hb', h⟩ := Option.bind_eq_some_iff.mp h
    obtain ⟨bs, hbs, h⟩ := Option.bind_eq_some_iff.mp h
    cases h
    rcases List.mem_cons.mp hb with rfl | hb
    · exact ⟨a, List.mem_cons_self, hb'⟩
    · obtain ⟨c, hc, hf⟩ := ih hbs hb
      exact ⟨c, List.mem_cons_of_mem _ hc, hf⟩

end PowerScreen.Library
