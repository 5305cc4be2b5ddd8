import Mathlib.Data.List.Infix
import Mathlib.Logic.Function.Basic
import Mathlib.Tactic

/-! # The regular files of a file system

A tree maps the path of a regular file, as its list of components, to its content.
The operations are those of a shell script without `set -e`: an operation on a
missing file changes nothing.
-/
namespace PowerScreen.Library

abbrev Path := List String

abbrev FileTree (α : Type*) := Path → Option α

namespace FileTree

variable {α : Type*}

def write (p : Path) (v : α) (t : FileTree α) : FileTree α := Function.update t p (some v)

def remove (p : Path) (t : FileTree α) : FileTree α := Function.update t p none

/-- `cp p q` -/
def copy (p q : Path) (t : FileTree α) : FileTree α :=
  match t p with
  | none => t
  | some v => t.write q v

/-- `mv p q` for a file `q` -/
def move (p q : Path) (t : FileTree α) : FileTree α :=
  match t p with
  | none => t
  | some v => (t.remove p).write q v

/-- `rm -rf d` -/
def removeAll (d : Path) (t : FileTree α) : FileTree α := fun p => if d <+: p then none else t p

/-- The writes of an archive, one after the other. -/
def writeAll (files : List (Path × α)) (t : FileTree α) : FileTree α :=
  files.foldl (fun t f => t.write f.1 f.2) t

@[simp] theorem write_apply (p q : Path) (v : α) (t : FileTree α) :
    t.write p v q = if q = p then some v else t q := by
  rw [write, Function.update_apply]

@[simp] theorem remove_apply (p q : Path) (t : FileTree α) :
    t.remove p q = if q = p then none else t q := by
  rw [remove, Function.update_apply]

theorem copy_of_none {p : Path} {t : FileTree α} (h : t p = none) (q : Path) : t.copy p q = t := by
  rw [copy, h]

theorem move_of_none {p : Path} {t : FileTree α} (h : t p = none) (q : Path) : t.move p q = t := by
  rw [move, h]

@[simp] theorem copy_apply (p q r : Path) (t : FileTree α) :
    t.copy p q r = if r = q then (t p).or (t q) else t r := by
  cases hp : t p with
  | none =>
    rw [copy_of_none hp]
    split_ifs with h
    · rw [h, Option.none_or]
    · rfl
  | some v =>
    rw [copy, hp]
    dsimp only
    rw [write_apply, Option.some_or]

@[simp] theorem move_apply (p q r : Path) (t : FileTree α) :
    t.move p q r = if r = q then (t p).or (t q) else if r = p then none else t r := by
  cases hp : t p with
  | none =>
    rw [move_of_none hp]
    split_ifs with hq h
    · rw [hq, Option.none_or]
    · rw [h, hp]
    · rfl
  | some v =>
    rw [move, hp]
    dsimp only
    rw [write_apply, remove_apply, Option.some_or]

@[simp] theorem removeAll_apply (d p : Path) (t : FileTree α) :
    t.removeAll d p = if d <+: p then none else t p := rfl

theorem writeAll_cons (f : Path × α) (files : List (Path × α)) (t : FileTree α) :
    t.writeAll (f :: files) = (t.write f.1 f.2).writeAll files := rfl

/-- Files that the archive does not hold stay as they are. -/
theorem writeAll_apply_of_notMem {files : List (Path × α)} {p : Path}
    (h : p ∉ files.map Prod.fst) (t : FileTree α) : t.writeAll files p = t p := by
  induction files generalizing t with
  | nil => rfl
  | cons f files ih =>
    rw [List.map_cons, List.mem_cons, not_or] at h
    rw [writeAll_cons, ih h.2, write_apply, if_neg h.1]

end FileTree
end PowerScreen.Library
