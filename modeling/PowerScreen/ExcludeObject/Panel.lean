import PowerScreen.Library.Json

/-! # The Exclude Object panel

The panel keeps the labeled objects of the print, fed by partial `exclude_object`
statuses, and remembers the object waiting for the confirmation by its index in
that list. Reading an object that is not of the expected shape is an exception of
the JSON library and is modelled by `none`. Coordinates are exact.
-/
namespace PowerScreen.ExcludeObject
open Library

structure Object where
  name : String
  x0 : ℚ := 0
  y0 : ℚ := 0
  x1 : ℚ := 0
  y1 : ℚ := 0
  excluded : Bool := false
deriving DecidableEq

structure Box where
  x0 : ℚ
  y0 : ℚ
  x1 : ℚ
  y1 : ℚ
deriving DecidableEq

/-- The first point starts the box, every other one extends it. -/
def Box.extend : Option Box → ℚ × ℚ → Option Box
  | none, (x, y) => some ⟨x, y, x, y⟩
  | some b, (x, y) => some ⟨min b.x0 x, min b.y0 y, max b.x1 x, max b.y1 y⟩

/-- A point is an array that starts with two numbers; any other is skipped. -/
def point? : Json → Option (ℚ × ℚ)
  | .arr (.num x :: .num y :: _) => some (x.toRat, y.toRat)
  | _ => none

def polygonBox (o : Json) : Option Box :=
  match o.get "polygon" with
  | .arr pts => (pts.filterMap point?).foldl Box.extend none
  | _ => none

/-- The square around the center; the two coordinates are read without a check. -/
def centerBox (o : Json) : Option Box :=
  match o.get "center" with
  | .arr (cx :: cy :: _) => do
    let x ← cx.num?
    let y ← cy.num?
    some ⟨x.toRat - 4, y.toRat - 4, x.toRat + 4, y.toRat + 4⟩
  | _ => some ⟨0, 0, 0, 0⟩

/-- `o.value("name", std::string())` -/
def readName : Json → Option String
  | .obj ms => match ms.lookup "name" with
    | none => some ""
    | some v => v.str?
  | _ => none

def readObject (o : Json) : Option Object := do
  let name ← readName o
  let b ← match polygonBox o with
    | some b => some b
    | none => centerBox o
  some { name, x0 := b.x0, y0 := b.y0, x1 := b.x1, y1 := b.y1 }

/-- The flag a rebuilt entry takes over: that of the last old entry with its name. -/
def keptFlag (old : List Object) (name : String) : Bool :=
  old.foldl (fun e o => if o.name = name then o.excluded else e) false

def mergeObjects (old : List Object) (os : List Json) : Option (List Object) :=
  os.mapM fun o => (readObject o).map fun ob => { ob with excluded := keptFlag old ob.name }

def mergeExcluded (objects : List Object) (names : List Json) : List Object :=
  (names.filterMap Json.str?).foldl
    (fun obs n => obs.map fun ob => if ob.name = n then { ob with excluded := true } else ob)
    (objects.map fun ob => { ob with excluded := false })

structure Panel where
  objects : List Object := []
  currentObject : String := ""
  /-- Object waiting for the confirmation, -1 when there is none. -/
  pending : ℤ := -1
  confirmTitle : String := "Exclude object?"
  confirmVisible : Bool := false
  lastSignature : String := ""
  /-- What the rows, their buttons and the map were last built from. -/
  shownObjects : List Object := []
  shownCurrent : String := ""

inductive Target where
  | cancel
  | ok
  | exclude (row : ℕ)

namespace Panel

/-- The list after the `objects` field; a field that is no array is passed over. -/
def mergeObjectsField (old : List Object) : Option Json → Option (List Object)
  | some (.arr os) => mergeObjects old os
  | _ => some old

def mergeExcludedField (objects : List Object) : Option Json → List Object
  | some (.arr names) => mergeExcluded objects names
  | _ => objects

def mergeCurrentField (current : String) : Option Json → String
  | some v => v.str?.getD ""
  | none => current

/-- Each of the three fields is optional. -/
def merge (p : Panel) (status : Json) : Option Panel :=
  if status.isObject then
    (mergeObjectsField p.objects (status.get? "objects")).map fun objects =>
      { p with objects := mergeExcludedField objects (status.get? "excluded_objects")
               currentObject := mergeCurrentField p.currentObject (status.get? "current_object") }
  else some p

def signature (p : Panel) : String :=
  p.objects.foldl (fun sig o => sig ++ (o.name ++ (if o.excluded then "!" else "") ++ ","))
    (p.currentObject ++ "|")

def rebuild (p : Panel) : Panel :=
  { p with shownObjects := p.objects, shownCurrent := p.currentObject }

/-- Rebuild when the signature has changed. -/
def refresh (p : Panel) : Panel :=
  if p.signature ≠ p.lastSignature then
    ({ p with lastSignature := p.signature } : Panel).rebuild
  else p

/-- A status update: the `exclude_object` part of a notification, null when absent. -/
def consume (p : Panel) (status : Json) : Option Panel :=
  if status = .null then some p else (p.merge status).map refresh

/-- The periodic reading of the accumulated state. -/
def syncFromState (p : Panel) (full : Json) : Option Panel :=
  if full.isObject then (p.merge full).map refresh else some p.refresh

def foreground (p : Panel) (full : Json) : Option Panel :=
  (p.syncFromState full).map fun p => { p.rebuild with confirmVisible := false }

/-- Underscores are shown as blanks. -/
def displayName (name : String) : String :=
  if name = "" then "Object"
  else String.ofList (name.toList.map fun c => if c = '_' then ' ' else c)

def ask (p : Panel) (index : ℤ) : Panel :=
  if index < 0 then p
  else match p.objects[index.toNat]? with
    | none => p
    | some ob =>
      if ob.excluded then p
      else { p with pending := index, confirmVisible := true
                    confirmTitle := "Exclude " ++ displayName ob.name ++ "?" }

def excludeScript (name : String) : String := "EXCLUDE_OBJECT NAME=" ++ name

/-- The scripts sent come with the new state. -/
def doExclude (p : Panel) : Panel × List String :=
  if p.pending < 0 then (p, [])
  else match p.objects[p.pending.toNat]? with
    | none => (p, [])
    | some ob =>
      let q := { p with objects := p.objects.set p.pending.toNat { ob with excluded := true }
                        pending := -1 }
      (({ q with lastSignature := q.signature } : Panel).rebuild, [excludeScript ob.name])

/-- A click; the rows are those of the last rebuild. -/
def handleEvent (p : Panel) : Target → Panel × List String
  | .cancel => ({ p with pending := -1, confirmVisible := false }, [])
  | .ok => doExclude { p with confirmVisible := false }
  | .exclude row => if row < p.shownObjects.length then (p.ask row, []) else (p, [])

/-- The part of the panel that belongs to its dialog. -/
def dialog (p : Panel) : ℤ × String × Bool := (p.pending, p.confirmTitle, p.confirmVisible)

@[simp] theorem refresh_objects (p : Panel) : p.refresh.objects = p.objects := by
  unfold refresh; split_ifs <;> rfl

@[simp] theorem refresh_currentObject (p : Panel) :
    p.refresh.currentObject = p.currentObject := by
  unfold refresh; split_ifs <;> rfl

@[simp] theorem refresh_dialog (p : Panel) : p.refresh.dialog = p.dialog := by
  unfold refresh; split_ifs <;> rfl

/-- A status never touches the dialog. -/
theorem merge_dialog {p q : Panel} {status : Json} (h : p.merge status = some q) :
    q.dialog = p.dialog := by
  unfold merge at h
  split_ifs at h with hobj
  · obtain ⟨objects, -, rfl⟩ := Option.map_eq_some_iff.mp h
    rfl
  · cases h
    rfl

theorem consume_dialog {p q : Panel} {status : Json} (h : p.consume status = some q) :
    q.dialog = p.dialog := by
  unfold consume at h
  split_ifs at h
  · cases h
    rfl
  · obtain ⟨r, hr, rfl⟩ := Option.map_eq_some_iff.mp h
    rw [refresh_dialog, merge_dialog hr]

theorem syncFromState_dialog {p q : Panel} {full : Json} (h : p.syncFromState full = some q) :
    q.dialog = p.dialog := by
  unfold syncFromState at h
  split_ifs at h
  · obtain ⟨r, hr, rfl⟩ := Option.map_eq_some_iff.mp h
    rw [refresh_dialog, merge_dialog hr]
  · cases h
    exact refresh_dialog p

end Panel
end PowerScreen.ExcludeObject
