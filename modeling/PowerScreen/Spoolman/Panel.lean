import PowerScreen.Library.CellTable
import PowerScreen.Library.ComparisonSort
import PowerScreen.Library.JsonPointer

/-! # The spools

A table with a row for every spool that is not hidden, and in its last two columns what can be done
with it. The rows stay when the table is filled again.
-/
namespace PowerScreen.Spoolman
open Library

structure Cell where
  text : String := ""
  mergeRight : Bool := false
  deriving DecidableEq

/-- The columns from 0 to 7. -/
inductive TableColumn where
  | id
  | name
  | material
  | color
  | weight
  | length
  | activate
  | archive
  deriving DecidableEq

abbrev Row := TableColumn → Cell

def blank : Row := fun _ => {}

def symbolUpload : String := "\uF093"
def symbolDrive : String := "\uF01C"
def symbolPlay : String := "\uF04B"

abbrev Table := List Row

def Row.set (col : TableColumn) (f : Cell → Cell) (r : Row) : Row := Function.update r col (f (r col))

def Row.setValue (col : TableColumn) (text : String) : Row → Row :=
  Row.set col fun c => { c with text := text }

def Row.setMerge (col : TableColumn) (merge : Bool) : Row → Row :=
  Row.set col fun c => { c with mergeRight := merge }

def setCellValue (row : ℕ) (col : TableColumn) (text : String) (t : Table) : Table :=
  CellTable.modifyRow blank row (Row.setValue col text) t

def clearCellCtrl (row : ℕ) (col : TableColumn) (t : Table) : Table :=
  CellTable.modifyRow blank row (Row.setMerge col false) t

def addCellCtrl (row : ℕ) (col : TableColumn) (t : Table) : Table :=
  CellTable.modifyRow blank row (Row.setMerge col true) t

/-- A number as an unsigned one of 32 bits. -/
def uint32? : Json → Option ℕ
  | .num (.int z) => some (z % 2 ^ 32).toNat
  | .num (.float q) => some (q.num.tdiv q.den % 2 ^ 32).toNat
  | .bool b => some b.toNat
  | _ => none

def double? (j : Json) : Option ℚ := j.num?.map Num.toRat

def readId (el : Json) : Option ℕ := uint32? (el.get "id")

/-- A field that is not null; `none` where it is, or where the pointer leads nowhere. -/
def fieldOf {α : Type*} (f : Json → Option α) (path : List String) (el : Json) : Option α :=
  (Json.getAt path el).bind f

/-- A field of which null stands for a default. -/
def fieldOr {α : Type*} (f : Json → Option α) (path : List String) (d : α) (el : Json) :
    Option α :=
  (Json.getAt path el).bind fun j => (Json.optional f j).map fun v => v.getD d

def vendorPath : List String := ["filament", "vendor", "name"]
def namePath : List String := ["filament", "name"]
def materialPath : List String := ["filament", "material"]

/-- What the row of a spool shows. -/
structure Spool where
  id : ℕ
  archived : Bool
  name : String
  material : String
  remainingWeight : ℚ
  remainingLen : ℚ
  deriving DecidableEq

def spoolName (vendor filamentName : String) : String := vendor ++ " - " ++ filamentName

/-- An element of the list; a hidden one is not read any further. -/
def readSpool (skipArchive : Bool) (el : Json) : Option (Option Spool) := do
  let archived ← (el.get "archived").bool?
  if skipArchive && archived then return none
  let id ← readId el
  let vendor ← fieldOr Json.str? vendorPath "" el
  let filamentName ← fieldOr Json.str? namePath "" el
  let material ← fieldOr Json.str? materialPath "" el
  let remainingWeight ← fieldOr double? ["remaining_weight"] 0 el
  let remainingLen ← fieldOr double? ["remaining_length"] 0 el
  return some ⟨id, archived, spoolName vendor filamentName, material, remainingWeight,
    remainingLen / 1000⟩

-- `fixed1` is the format of a number with one decimal
variable (fixed1 : ℚ → String)

/-- The cells of a row in the order they are written. -/
def writeSpool (activeId row : ℕ) (s : Spool) (t : Table) : Table :=
  let t := setCellValue row .id s.id.repr t
  let t := setCellValue row .name s.name t
  let t := setCellValue row .material s.material t
  let t := setCellValue row .color "" t
  let t := setCellValue row .weight (fixed1 s.remainingWeight ++ " g") t
  let t := setCellValue row .length (fixed1 s.remainingLen ++ " m") t
  let t := clearCellCtrl row .activate t
  let t :=
    if s.archived then setCellValue row .archive symbolUpload t
    -- prevent archiving active spool
    else if s.id ≠ activeId then setCellValue row .archive symbolDrive t
    else t
  if s.id = activeId then setCellValue row .activate "(active)" (addCellCtrl row .activate t)
  else if s.archived then setCellValue row .activate "" t
  else setCellValue row .activate symbolPlay t

def writeHeader (t : Table) : Table :=
  setCellValue 0 .length "Remain\nLength" (setCellValue 0 .weight "Remain\nWeight"
    (setCellValue 0 .material "MAT" (setCellValue 0 .name "Name" (setCellValue 0 .id "ID" t))))

/-- The rows from a place on; the place behind the last one, unless an element is an exception. -/
def writeSpools (skipArchive : Bool) (activeId : ℕ) : ℕ → List Json → Table → Table × Option ℕ
  | row, [], t => (t, some row)
  | row, el :: els, t =>
    match readSpool skipArchive el with
    | none => (t, none)
    | some none => writeSpools skipArchive activeId row els t
    | some (some s) =>
      writeSpools skipArchive activeId (row + 1) els (writeSpool fixed1 activeId row s t)

/-- The spools by their ids. -/
structure Spools where
  members : List (ℕ × Json)
  sorted : Assoc.Sorted members
  ids : ∀ m ∈ members, readId m.2 = some m.1

def Spools.empty : Spools := ⟨[], List.Pairwise.nil, fun _ h => absurd h List.not_mem_nil⟩

def Spools.values (s : Spools) : List Json := s.members.map Prod.snd

/-- Of several spools with an id the first is kept. -/
def Spools.insertNew (s : Spools) (id : ℕ) (el : Json) (h : readId el = some id) : Spools where
  members := Assoc.insertNew id el s.members
  sorted := s.sorted.insertNew id el
  ids := by
    intro m hm
    rcases Assoc.mem_insertNew hm with rfl | hm
    · exact h
    · exact s.ids m hm

/-- The elements that have an id, until one is an exception. -/
def Spools.addAll : List Json → Spools → Spools × Bool
  | [], s => (s, true)
  | el :: els, s =>
    if el.contains "id" then
      match h : readId el with
      | none => (s, false)
      | some id => addAll els (s.insertNew id el h)
    else addAll els s

structure Panel where
  table : Table
  showArchived : Bool
  /-- The number with a sign, taken modulo `2 ^ 32` as the ids are. -/
  activeId : ℕ
  spools : Spools
  sortedBy : ℕ

def Panel.new : Panel := ⟨[blank], false, 2 ^ 32 - 1, Spools.empty, 1⟩

/-- `false` where an exception ends it. -/
def Panel.populateSpools (sortedSpools : List Json) (p : Panel) : Panel × Bool :=
  if p.spools.members.isEmpty then (p, true)
  else
    let written := writeSpools fixed1 (!p.showArchived) p.activeId 1 sortedSpools (writeHeader p.table)
    match written.2 with
    | none => ({ p with table := written.1 }, false)
    | some row => ({ p with table := CellTable.setRowCount blank row written.1 }, true)

inductive Column where
  | id
  | name
  | material
  | weight
  | length
  deriving DecidableEq

/-- `SORTED_BY_ID` and the others. -/
def Column.bit : Column → ℕ
  | .id => 1 <<< 0
  | .name => 1 <<< 1
  | .material => 1 <<< 2
  | .weight => 1 <<< 3
  | .length => 1 <<< 4

/-- `reversed ? x > y : y > x`; a value that cannot be read is an exception. -/
def compareBy {κ : Type*} [LinearOrder κ] (reversed : Bool) (key : Json → Option κ) :
    Json → Json → Option Bool :=
  if reversed then ComparisonSort.byKey fun el => (key el).map OrderDual.toDual
  else ComparisonSort.byKey key

def nameKey (el : Json) : Option String :=
  (fieldOf Json.str? vendorPath el).bind fun vendor =>
    (fieldOf Json.str? namePath el).map fun filamentName => spoolName vendor filamentName

def materialKey : Json → Option String := fieldOf Json.str? materialPath

def weightKey : Json → Option ℚ := fieldOf double? ["remaining_weight"]

def lengthKey : Json → Option ℚ := fieldOf double? ["remaining_length"]

def Column.compare (reversed : Bool) : Column → Json → Json → Option Bool
  | .id => compareBy reversed readId
  | .name => compareBy reversed nameKey
  | .material => compareBy reversed materialKey
  | .weight => compareBy reversed weightKey
  | .length => compareBy reversed lengthKey

variable (S : ComparisonSort.StdSort)

/-- Sorts the spools, notes the column and fills the table. -/
def Panel.resort (lt : Json → Json → Option Bool) (sortedBy : ℕ) (p : Panel) : Panel × Bool :=
  match S.sort lt p.spools.values with
  | none => (p, false)
  | some sortedSpools => { p with sortedBy := sortedBy }.populateSpools fixed1 sortedSpools

def Panel.resortById (p : Panel) : Panel × Bool :=
  p.resort fixed1 S (ComparisonSort.byKey readId) Column.id.bit

/-- The answer that lists the spools. -/
def Panel.handleSpools (j : Json) (p : Panel) : Panel × Bool :=
  let s := j.get "result"
  if s.isEmpty then (p, true)
  else
    let added := Spools.empty.addAll s.elements
    if added.2 then { p with spools := added.1 }.resortById fixed1 S
    else ({ p with spools := added.1 }, false)

/-- The active spool, from the answer at the start or a notification. -/
def Panel.handleActiveId (v : Json) (p : Panel) : Panel × Bool :=
  if v = .null then (p, true)
  else
    match uint32? v with
    | none => (p, false)
    | some id => { p with activeId := id }.resortById fixed1 S

def Panel.handleShowArchived (p : Panel) : Panel × Bool :=
  { p with showArchived := !p.showArchived }.resortById fixed1 S

def Panel.reversed (c : Column) (p : Panel) : Bool := p.sortedBy &&& c.bit ≠ 0

/-- A click on a header. -/
def Panel.handleHeader (c : Column) (p : Panel) : Panel × Bool :=
  p.resort fixed1 S (c.compare (p.reversed c)) ((p.sortedBy ^^^ c.bit) &&& c.bit)

end PowerScreen.Spoolman
