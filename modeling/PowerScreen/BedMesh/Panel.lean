import PowerScreen.Library.Run
import PowerScreen.State.Access

/-! # The bed mesh panel

Every report with a bed mesh refreshes the panel from what it carries; what it lacks comes
from the store, as does the table with the parameters of the active profile. Opening the
panel refreshes it from the store alone.
-/
namespace PowerScreen.BedMesh
open Library Library.Run

def uploadSymbol : String := "\uf093"

def closeSymbol : String := "\uf00d"

/-- A row of the profiles; the first cell of the active one covers the second. -/
structure Row where
  merged : Bool
  name : String
  load : String
  delete : String
deriving DecidableEq

/-- A value in the table of the parameters. -/
inductive Cell where
  | text (s : String)
  | number (q : ℚ)
  | wholes (zs : List ℤ)
deriving DecidableEq

structure Panel where
  activeProfile : String := ""
  saveEnabled : Bool := true
  meshHidden : Bool := false
  mesh : List (List ℚ) := []
  profileLabel : String := ""
  /-- The lowest and the highest value. -/
  stats : Option (ℚ × ℚ) := none
  profileInfo : List (String × Cell) := []
  /-- The profiles, while their table is shown. -/
  profiles : Option (List Row) := some []

def number? (j : Json) : Option ℚ := j.num?.map Library.Num.toRat

/-- The conversion of a number to `int`. -/
abbrev ToInt := Library.Num → ℤ

def whole? (toInt : ToInt) : Json → Option ℤ
  | .num n => some (toInt n)
  | .bool b => some b.toNat
  | _ => none

def matrix? : Json → Option (List (List ℚ))
  | .arr rows => rows.mapM fun
    | .arr xs => xs.mapM number?
    | _ => none
  | _ => none

/-- The keys that an iteration over the items shows. -/
def itemKeys : Json → List String
  | .null => []
  | .obj ms => ms.map Prod.fst
  | .arr xs => (List.range xs.length).map Nat.repr
  | _ => [""]

def profilePointer (profile : String) : String :=
  "/printer_state/bed_mesh/profiles/" ++ profile ++ "/mesh_params"

section
variable (toInt : ToInt)

def wholesAt (params : Json) (keys : List String) : Option (List ℤ) :=
  (keys.mapM fun k => (Json.getAt [k] params).bind (Json.optional (whole? toInt))).map
    List.reduceOption

/-- The rows for the parameters, none where there are no parameters. -/
def infoRows (params : Json) : Option (List (String × Cell)) :=
  if params = .null then some [] else do
    let algo ← Json.optional Json.str? (← Json.getAt ["algo"] params)
    let tension ← Json.optional number? (← Json.getAt ["tension"] params)
    let xvalues ← wholesAt toInt params ["min_x", "max_x", "x_count"]
    let yvalues ← wholesAt toInt params ["min_y", "max_y", "y_count"]
    return (algo.map fun a => ("Algorithm", Cell.text a)).toList ++
      (tension.map fun t => ("Tension", Cell.number t)).toList ++
      [("X (min, max, count)", .wholes xvalues), ("Y (min, max, count)", .wholes yvalues)]

/-- The rows that are not written stay. -/
def refreshProfileInfo (s : State) (info : List (String × Cell)) (profile : String) :
    Option (State × List (String × Cell)) := do
  let (params, s) ← s.readPointer (profilePointer profile)
  let rows ← infoRows toInt params
  return (s, rows ++ info.drop rows.length)

/-- A value, or what the store has for it. -/
def orStored (s : State) (j : Json) (field : String) : Option (Json × State) :=
  if j = .null then s.read "printer_state" ["bed_mesh", field] else some (j, s)

def lowest (mesh : List (List ℚ)) : ℚ := mesh.flatten.foldl min (10 ^ 9)

def highest (mesh : List (List ℚ)) : ℚ := mesh.flatten.foldl max (-10 ^ 9)

def row (active name : String) : Row :=
  if name = active then ⟨true, name, "", closeSymbol⟩
  else ⟨false, name, uploadSymbol, closeSymbol⟩

/-- Without profiles their table is hidden. -/
def profileRows (active : String) (profiles : Json) : Option (List Row) :=
  if itemKeys profiles = [] then none else some ((itemKeys profiles).map (row active))

/-- The mesh of a profile that is active. -/
def showMesh (s : State) (p : Panel) (bm : Json) (name : String) : Option (State × Panel) := do
  let (s, info) ← refreshProfileInfo toInt s p.profileInfo name
  let (j, s) ← orStored s (← Json.getAt ["probed_matrix"] bm) "probed_matrix"
  let mesh ← matrix? j
  return (s, { p with
    activeProfile := name
    saveEnabled := true
    meshHidden := false
    mesh := mesh
    profileLabel := name
    stats := if mesh.isEmpty then p.stats else some (lowest mesh, highest mesh)
    profileInfo := info })

def activate (s : State) (p : Panel) (bm : Json) (name : String) : Option (State × Panel) :=
  if name = "" then
    some (s, { p with activeProfile := name, meshHidden := true, saveEnabled := false })
  else showMesh toInt s p bm name

/-- The profiles come after the mesh. -/
def refreshNamed (s : State) (p : Panel) (bm : Json) (name : String) :
    Option (State × Panel) := do
  let (s, p) ← activate toInt s p bm name
  let (profiles, s) ← orStored s (← Json.getAt ["profiles"] bm) "profiles"
  return (s, { p with profiles := profileRows name profiles })

def refreshViews (s : State) (p : Panel) (bm : Json) : Option (State × Panel) :=
  if bm = .null then some (s, p) else
    (Json.getAt ["profile_name"] bm).bind fun
      | .null => some (s, { p with saveEnabled := false })
      | .str name => refreshNamed toInt s p bm name
      | _ => none

/-- Opening the panel. -/
def foreground (s : State) (p : Panel) : Option (State × Panel) := do
  let (bm, s) ← s.read "printer_state" ["bed_mesh"]
  refreshViews toInt s p bm

end

theorem sorted_nil : (Json.obj []).Sorted :=
  Json.sorted_obj_iff.mpr ⟨List.Pairwise.nil, fun _ h => absurd h List.not_mem_nil⟩

/-- The store before the first report. -/
def emptyStore : State := ⟨[], sorted_nil⟩

structure Screen where
  store : State := emptyStore
  panel : Panel := {}
  /-- Cleared by an exception, which ends the program. -/
  running : Bool := true

namespace Screen

inductive Event where
  | connected
  | report (st : Status)

/-- What a report carries of the bed mesh. -/
def carried (st : Status) : Json := ((st.objects.lookup "bed_mesh").map Json.obj).getD .null

def merged (s : Screen) (st : Status) : State :=
  s.store.mergeEntry "printer_state" st.json st.sorted_json

variable (toInt : ToInt)

/-- The store comes first. -/
def consume (s : Screen) (st : Status) : Option Screen :=
  (refreshViews toInt (s.merged st) s.panel (carried st)).map fun r =>
    { s with store := r.1, panel := r.2 }

def step (s : Screen) (e : Event) : Screen :=
  if s.running then
    match e with
    | .connected => { s with store := s.store.reset }
    | .report st => (s.consume toInt st).getD { s with running := false }
  else s

end Screen

end PowerScreen.BedMesh
