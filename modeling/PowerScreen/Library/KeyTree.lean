import PowerScreen.Library.Assoc

/-! # Trees addressed by paths of keys

Every node carries data, and its children in increasing order of their keys. A walk
down a path visits the nodes it passes and creates those that are missing; it
changes the data on the path and nothing else.
-/
namespace PowerScreen.Library

inductive KeyTree (κ α : Type*) where
  | node (data : α) (children : List (κ × KeyTree κ α))

namespace KeyTree

variable {κ α : Type*}

def data : KeyTree κ α → α
  | node d _ => d

def children : KeyTree κ α → List (κ × KeyTree κ α)
  | node _ cs => cs

def isLeaf (t : KeyTree κ α) : Bool := t.children.isEmpty

variable [LinearOrder κ]

/-- The node at the end of a path. -/
def get? (t : KeyTree κ α) : List κ → Option (KeyTree κ α)
  | [] => some t
  | k :: ks => (t.children.lookup k).bind fun c => c.get? ks

def data? (t : KeyTree κ α) (ks : List κ) : Option α := (t.get? ks).map data

/-- Walk down from the node at `here`: `visit` the nodes that are passed, and start
a missing one from `new` of its path. -/
def walk (visit : α → α) (new : List κ → α) (here : List κ) :
    List κ → KeyTree κ α → KeyTree κ α
  | [], t => t
  | k :: ks, t => node (visit t.data) (Assoc.insert k
      (walk visit new (here ++ [k]) ks
        ((t.children.lookup k).getD (node (new (here ++ [k])) []))) t.children)

theorem get?_append (t : KeyTree κ α) (p q : List κ) :
    t.get? (p ++ q) = (t.get? p).bind fun n => n.get? q := by
  induction p generalizing t with
  | nil => rfl
  | cons k p ih =>
    rw [List.cons_append, get?, get?, Option.bind_assoc]
    exact Option.bind_congr fun c _ => ih c

theorem data?_cons (t : KeyTree κ α) (k : κ) (ks : List κ) :
    t.data? (k :: ks) = (t.children.lookup k).bind fun c => c.data? ks := by
  rw [data?, get?, Option.map_bind]
  rfl

/-- A node has a child exactly where a longer path leads to a node. -/
theorem isLeaf_eq_false_iff {t n : KeyTree κ α} {q : List κ} (h : t.get? q = some n) :
    n.isLeaf = false ↔ ∃ k, (t.get? (q ++ [k])).isSome := by
  have hchild (k : κ) : t.get? (q ++ [k]) = n.children.lookup k := by
    rw [get?_append, h, Option.bind_some, get?]
    exact Option.bind_fun_some _
  simp only [hchild, Assoc.isSome_lookup_iff]
  rw [isLeaf]
  cases n.children with
  | nil => simp
  | cons m ms => exact iff_of_true rfl ⟨m.1, List.mem_cons_self⟩

/-- What a walk makes of the data on its path. -/
def walked (visit : α → α) (last : Bool) (d : α) : α := if last then d else visit d

/-- A walk changes the data of the nodes on its path, the last one apart, and creates
the missing ones. -/
theorem data?_walk (visit : α → α) (new : List κ → α) (here ks q : List κ) (t : KeyTree κ α) :
    (t.walk visit new here ks).data? q =
      if q <+: ks then some (walked visit (q = ks) ((t.data? q).getD (new (here ++ q))))
      else t.data? q := by
  induction ks generalizing t here q with
  | nil =>
    rw [walk]
    by_cases hq : q = []
    · rw [hq, if_pos (List.prefix_refl [])]
      rfl
    · rw [if_neg (mt List.prefix_nil.mp hq)]
  | cons k ks ih =>
    cases q with
    | nil => rw [if_pos (List.nil_prefix)]; rfl
    | cons l q =>
      rw [data?_cons, walk, children]
      by_cases hl : l = k
      · rw [hl, Assoc.lookup_insert_self, Option.bind_some, ih, data?_cons]
        have hpre : k :: q <+: k :: ks ↔ q <+: ks :=
          List.cons_prefix_cons.trans (and_iff_right rfl)
        have hend : decide (k :: q = k :: ks) = decide (q = ks) := by simp
        simp only [hpre, hend, List.append_assoc, List.singleton_append]
        cases hc : t.children.lookup k with
        | some c => rfl
        | none =>
          cases q with
          | nil => simp [data?, get?, data]
          | cons j q => simp [data?, get?, children]
      · have hpre : ¬ l :: q <+: k :: ks := fun h => hl (List.cons_prefix_cons.mp h).1
        rw [Assoc.lookup_insert_of_ne hl, if_neg hpre, data?_cons]

/-- At every node the children are in the order of their keys. -/
def Ordered (t : KeyTree κ α) : Prop := ∀ q n, t.get? q = some n → Assoc.Sorted n.children

theorem ordered_node (d : α) : Ordered (node d ([] : List (κ × KeyTree κ α))) := by
  intro q n h
  cases q with
  | nil => exact Option.some.inj h ▸ List.Pairwise.nil
  | cons k q => cases h

theorem Ordered.child {t c : KeyTree κ α} (h : t.Ordered) {k : κ}
    (hc : t.children.lookup k = some c) : c.Ordered :=
  fun q n hn => h (k :: q) n (by rw [get?, hc, Option.bind_some, hn])

theorem Ordered.walk {t : KeyTree κ α} (h : t.Ordered) (visit : α → α) (new : List κ → α)
    (here ks : List κ) : (t.walk visit new here ks).Ordered := by
  induction ks generalizing t here with
  | nil => exact h
  | cons k ks ih =>
    have hold : Ordered ((t.children.lookup k).getD (node (new (here ++ [k])) [])) := by
      cases hc : t.children.lookup k with
      | none => exact ordered_node _
      | some c => exact h.child hc
    intro q n hn
    cases q with
    | nil => exact Option.some.inj hn ▸ (h [] t rfl).insert k _
    | cons l q =>
      rw [KeyTree.walk, get?, children] at hn
      by_cases hl : l = k
      · rw [hl, Assoc.lookup_insert_self, Option.bind_some] at hn
        exact ih hold _ q n hn
      · rw [Assoc.lookup_insert_of_ne hl] at hn
        exact h (l :: q) n hn

end KeyTree
end PowerScreen.Library
