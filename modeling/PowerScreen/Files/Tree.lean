import Mathlib.Data.String.Basic
import PowerScreen.Library.Fields
import PowerScreen.Library.KeyTree

/-! # The tree of the files

Files are added by their paths, folder by folder. A pointer to a node is the path
to it, from the root down.
-/
namespace PowerScreen.Files
open Library

/-- What a node holds; `parent` is the node its link points to. -/
structure Node where
  name : String
  fullPath : String
  dateModified : ℕ
  parent : List String

abbrev Tree := KeyTree String Node

/-- A file of the listing. -/
structure File where
  path : String
  modified : ℕ

/-- `KUtils::split` at slashes. -/
def split (s : String) : List String := (fields '/' s.toList).map String.ofList

/-- The root is its own parent. -/
def root : Tree := .node ⟨"", "", 0, []⟩ []

/-- The child is found or created; `use` is what is done through the reference to it. -/
def findOrCreate (here : List String) (t : Tree) (value path : String) (modified : ℕ)
    (use : Tree → Tree) : Tree :=
  let date := if t.data.dateModified < modified then modified else t.data.dateModified
  let child := (t.children.lookup value).getD (.node ⟨value, path, modified, here⟩ [])
  .node { t.data with dateModified := date } (Assoc.insert value (use child) t.children)

/-- The path so far and one name more. -/
def extend (curPath p : String) : String :=
  if 0 < curPath.length then curPath ++ "/" ++ p else p

/-- The loop of `add_path`, at the node `here`. -/
def addPathFrom (modified : ℕ) (here : List String) (curPath : String) :
    List String → Tree → Tree
  | [], t => t
  | p :: ps, t => findOrCreate here t p (extend curPath p) modified
    (addPathFrom modified (here ++ [p]) (extend curPath p) ps)

def addPath (t : Tree) (paths : List String) (modified : ℕ) : Tree :=
  addPathFrom modified [] "" paths t

/-- Where the pointer that is returned leads: to the root for all but folders. -/
def findPath (t : Tree) (paths : List String) : List String :=
  match t.get? paths with
  | none => []
  | some n => if n.isLeaf then [] else paths

/-- The tree of a listing. -/
def build (files : List File) : Tree :=
  files.foldl (fun t f => addPath t (split f.path) f.modified) root

/-- Names joined by slashes. -/
def joinPath : List String → String
  | [] => ""
  | [p] => p
  | p :: q :: ps => p ++ "/" ++ joinPath (q :: ps)

/-- Names that can stand between slashes. -/
def IsName (p : String) : Prop := p ≠ "" ∧ '/' ∉ p.toList

/-- A relative path with no empty component. -/
def IsPath (s : String) : Prop := ∃ ps, ps ≠ [] ∧ (∀ p ∈ ps, IsName p) ∧ s = joinPath ps

/-- What is read between slashes has none. -/
theorem IsName.ne_nil {p : String} (h : IsName p) : p.toList ≠ [] :=
  mt String.toList_eq_nil_iff.mp h.1

theorem split_joinPath {ps : List String} (h : ∀ p ∈ ps, IsName p) :
    split (joinPath ps) = ps := by
  induction ps with
  | nil => rfl
  | cons p ps ih =>
    have hp := h p List.mem_cons_self
    have hps := fun q hq => h q (List.mem_cons_of_mem p hq)
    cases ps with
    | nil =>
      rw [joinPath, split, fields_of_not_mem hp.2 hp.ne_nil, List.map_singleton,
        String.ofList_toList]
    | cons q ps =>
      have htext : (joinPath (p :: q :: ps)).toList =
          p.toList ++ '/' :: (joinPath (q :: ps)).toList := by
        rw [joinPath, String.toList_append, String.toList_append, List.append_assoc]
        rfl
      rw [split, htext, fields_append_cons hp.2, List.map_cons, String.ofList_toList]
      exact congrArg (p :: ·) (ih hps)

theorem IsPath.eq_joinPath {s : String} (h : IsPath s) : joinPath (split s) = s := by
  obtain ⟨ps, -, hps, rfl⟩ := h
  rw [split_joinPath hps]

theorem IsPath.isName {s p : String} (h : IsPath s) (hp : p ∈ split s) : IsName p := by
  obtain ⟨ps, -, hps, rfl⟩ := h
  rw [split_joinPath hps] at hp
  exact hps p hp

/-- The path that the loop has accumulated at a node. -/
def pathOf (q : List String) : String := q.foldl extend ""

theorem extend_of_ne {a : String} (h : a ≠ "") (p : String) : extend a p = a ++ "/" ++ p := by
  rw [extend, if_pos]
  exact Nat.pos_of_ne_zero (mt String.length_eq_zero_iff.mp h)

theorem foldl_extend {a p : String} {q : List String} (ha : a ≠ "") :
    (p :: q).foldl extend a = a ++ "/" ++ joinPath (p :: q) := by
  induction q generalizing a p with
  | nil => rw [List.foldl_cons, extend_of_ne ha]; rfl
  | cons r q ih =>
    have hne : extend a p ≠ "" := by
      rw [extend_of_ne ha]
      intro h
      have hlist := congrArg String.toList h
      simp at hlist
    rw [List.foldl_cons, ih hne, extend_of_ne ha, joinPath]
    simp only [String.append_assoc]

/-- With no empty component the accumulated path is the joined one. -/
theorem pathOf_eq_joinPath {q : List String} (h : ∀ p ∈ q, IsName p) : pathOf q = joinPath q := by
  cases q with
  | nil => rfl
  | cons p q =>
    have hp := (h p List.mem_cons_self).1
    cases q with
    | nil => rfl
    | cons r q =>
      rw [pathOf, List.foldl_cons, show extend "" p = p from rfl, foldl_extend hp]
      rfl

end PowerScreen.Files
