import Mathlib.Data.String.Basic
import PowerScreen.Library.Assoc

/-! # JSON values

Objects are association lists in increasing key order, as the C++ library keeps
them, so that equal objects are equal lists. Integers and floating-point numbers
are told apart; a floating-point number is its exact rational value.
-/
namespace PowerScreen.Library

inductive Num where
  | int (z : ℤ)
  | float (q : ℚ)
deriving DecidableEq

def Num.toRat : Num → ℚ
  | .int z => z
  | .float q => q

inductive Json where
  | null
  | bool (b : Bool)
  | num (n : Num)
  | str (s : String)
  | arr (xs : List Json)
  | obj (ms : List (String × Json))

namespace Json

instance : Inhabited Json := ⟨.null⟩

mutual
def decEq : (a b : Json) → Decidable (a = b)
  | .null, .null => isTrue rfl
  | .bool a, .bool b => if h : a = b then isTrue (by rw [h]) else isFalse (by simp [h])
  | .num a, .num b => if h : a = b then isTrue (by rw [h]) else isFalse (by simp [h])
  | .str a, .str b => if h : a = b then isTrue (by rw [h]) else isFalse (by simp [h])
  | .arr a, .arr b => match decEqElems a b with
    | isTrue h => isTrue (by rw [h])
    | isFalse h => isFalse (by simp [h])
  | .obj a, .obj b => match decEqMembers a b with
    | isTrue h => isTrue (by rw [h])
    | isFalse h => isFalse (by simp [h])
  | .null, .bool _ | .null, .num _ | .null, .str _ | .null, .arr _ | .null, .obj _
  | .bool _, .null | .bool _, .num _ | .bool _, .str _ | .bool _, .arr _ | .bool _, .obj _
  | .num _, .null | .num _, .bool _ | .num _, .str _ | .num _, .arr _ | .num _, .obj _
  | .str _, .null | .str _, .bool _ | .str _, .num _ | .str _, .arr _ | .str _, .obj _
  | .arr _, .null | .arr _, .bool _ | .arr _, .num _ | .arr _, .str _ | .arr _, .obj _
  | .obj _, .null | .obj _, .bool _ | .obj _, .num _ | .obj _, .str _ | .obj _, .arr _ =>
    isFalse nofun
def decEqElems : (a b : List Json) → Decidable (a = b)
  | [], [] => isTrue rfl
  | [], _ :: _ => isFalse nofun
  | _ :: _, [] => isFalse nofun
  | a :: as, b :: bs => match decEq a b, decEqElems as bs with
    | isTrue h, isTrue h' => isTrue (by rw [h, h'])
    | isFalse h, _ => isFalse (by simp [h])
    | _, isFalse h => isFalse (by simp [h])
def decEqMembers : (a b : List (String × Json)) → Decidable (a = b)
  | [], [] => isTrue rfl
  | [], _ :: _ => isFalse nofun
  | _ :: _, [] => isFalse nofun
  | (k, a) :: as, (l, b) :: bs =>
    match (inferInstance : Decidable (k = l)), decEq a b, decEqMembers as bs with
    | isTrue h, isTrue h', isTrue h'' => isTrue (by rw [h, h', h''])
    | isFalse h, _, _ => isFalse (by simp [h])
    | _, isFalse h, _ => isFalse (by simp [h])
    | _, _, isFalse h => isFalse (by simp [h])
end

instance : DecidableEq Json := decEq

/-- The entries of an object; every other value has none. -/
def members : Json → List (String × Json)
  | .obj ms => ms
  | _ => []

def get? (j : Json) (k : String) : Option Json := j.members.lookup k

/-- What reading a missing entry yields. -/
def get (j : Json) (k : String) : Json := (j.get? k).getD .null

def contains (j : Json) (k : String) : Bool := (j.get? k).isSome

def isObject : Json → Bool
  | .obj _ => true
  | _ => false

def isArray : Json → Bool
  | .arr _ => true
  | _ => false

/-- Null and the containers without entries are empty, scalars are not. -/
def isEmpty : Json → Bool
  | .null => true
  | .arr xs => xs.isEmpty
  | .obj ms => ms.isEmpty
  | _ => false

def str? : Json → Option String
  | .str s => some s
  | _ => none

def num? : Json → Option Num
  | .num n => some n
  | _ => none

def bool? : Json → Option Bool
  | .bool b => some b
  | _ => none

/-- The entry of an object, or the default where there is none; an entry of another type
and a value that is no object are exceptions. -/
def value {α : Type*} (f : Json → Option α) (j : Json) (k : String) (d : α) : Option α :=
  if j.isObject then (j.get? k).elim (some d) f else none

/-- What a loop over the value visits; a scalar is visited itself. -/
def elements : Json → List Json
  | .null => []
  | .arr xs => xs
  | .obj ms => ms.map Prod.snd
  | j => [j]

/-- Null stands for a missing value, a value of another type is an exception. -/
def optional {α : Type*} (f : Json → Option α) (j : Json) : Option (Option α) :=
  if j = .null then some none else (f j).map some

mutual
/-- Every object inside the value has its keys in increasing order. -/
def Sorted : Json → Prop
  | .arr xs => SortedElems xs
  | .obj ms => Assoc.Sorted ms ∧ SortedMembers ms
  | _ => True
def SortedElems : List Json → Prop
  | [] => True
  | x :: xs => x.Sorted ∧ SortedElems xs
def SortedMembers : List (String × Json) → Prop
  | [] => True
  | (_, v) :: ms => v.Sorted ∧ SortedMembers ms
end

mutual
def decSorted : (j : Json) → Decidable j.Sorted
  | .arr xs => @decidable_of_iff _ (SortedElems xs) (by rw [Sorted]) (decSortedElems xs)
  | .obj ms =>
    @decidable_of_iff _ (Assoc.Sorted ms ∧ SortedMembers ms) (by rw [Sorted])
      (@instDecidableAnd _ _ inferInstance (decSortedMembers ms))
  | .null | .bool _ | .num _ | .str _ => isTrue (by simp [Sorted])
def decSortedElems : (xs : List Json) → Decidable (SortedElems xs)
  | [] => isTrue trivial
  | x :: xs => @instDecidableAnd _ _ (decSorted x) (decSortedElems xs)
def decSortedMembers : (ms : List (String × Json)) → Decidable (SortedMembers ms)
  | [] => isTrue trivial
  | (_, v) :: ms => @instDecidableAnd _ _ (decSorted v) (decSortedMembers ms)
end

instance : DecidablePred Sorted := decSorted

theorem sortedMembers_iff {ms : List (String × Json)} :
    SortedMembers ms ↔ ∀ m ∈ ms, m.2.Sorted := by
  induction ms with
  | nil => simp [SortedMembers]
  | cons m ms ih =>
    obtain ⟨k, v⟩ := m
    simp [SortedMembers, ih]

theorem sorted_null : Json.null.Sorted := by simp [Sorted]

theorem sorted_str (s : String) : (Json.str s).Sorted := by simp [Sorted]

theorem Sorted.members {j : Json} (h : j.Sorted) : Assoc.Sorted j.members := by
  cases j with
  | obj ms => rw [Sorted] at h; exact h.1
  | _ => exact List.Pairwise.nil

theorem Sorted.of_mem {j : Json} (h : j.Sorted) {m : String × Json} (hm : m ∈ j.members) :
    m.2.Sorted := by
  cases j with
  | obj ms => rw [Sorted] at h; exact sortedMembers_iff.mp h.2 m hm
  | _ => simp [Json.members] at hm

theorem Sorted.get {j : Json} (h : j.Sorted) (k : String) : (j.get k).Sorted := by
  cases hk : j.get? k with
  | none => simp [Json.get, hk, sorted_null]
  | some v =>
    have hv : v.Sorted := h.of_mem (Assoc.mem_of_lookup hk)
    simpa [Json.get, hk] using hv

theorem sorted_obj_iff {ms : List (String × Json)} :
    (Json.obj ms).Sorted ↔ Assoc.Sorted ms ∧ ∀ m ∈ ms, m.2.Sorted := by
  rw [Sorted, sortedMembers_iff]

theorem sorted_insert {ms : List (String × Json)} (h : (Json.obj ms).Sorted) (k : String)
    {v : Json} (hv : v.Sorted) : (Json.obj (Assoc.insert k v ms)).Sorted := by
  obtain ⟨hs, hm⟩ := sorted_obj_iff.mp h
  refine sorted_obj_iff.mpr ⟨hs.insert k v, fun m hmem => ?_⟩
  rcases Assoc.mem_insert hmem with rfl | hmem
  · exact hv
  · exact hm m hmem

theorem sorted_erase {ms : List (String × Json)} (h : (Json.obj ms).Sorted) (k : String) :
    (Json.obj (Assoc.erase k ms)).Sorted := by
  obtain ⟨hs, hm⟩ := sorted_obj_iff.mp h
  exact sorted_obj_iff.mpr ⟨hs.erase k, fun m hmem => hm m (List.mem_of_mem_filter hmem)⟩

end Json
end PowerScreen.Library
