import PowerScreen.Library.Json

/-! # The console

The log, the command history and the shortcuts. The history is the one that Fluidd keeps in the
database of Moonraker; the shortcuts offer it before the commands that Klipper knows.
-/
namespace PowerScreen.Console
open Library

structure Panel where
  history : List String
  allMacros : List String
  logLines : List String

def Panel.new : Panel := ⟨[], [], []⟩

inductive Request where
  | script (command : String)
  | postItem (history : List String)

/-- Lines are dropped at the front as long as there are more than 150. -/
def Panel.appendLog (line : String) (p : Panel) : Panel :=
  { p with logLines := (p.logLines ++ [line]).drop ((p.logLines ++ [line]).length - 150) }

/-- A command goes into the history in front of another one. -/
def Panel.record (cmd : String) (p : Panel) : Panel × List Request :=
  match p.history with
  | [] => (p, [])
  | front :: _ =>
    if front ≠ cmd then
      let kept := if 20 ≤ p.history.length then p.history.dropLast else p.history
      ({ p with history := cmd :: kept }, [.postItem (cmd :: kept)])
    else (p, [])

/-- `handle_kb_input` on `LV_EVENT_READY`. -/
def Panel.ready (cmd : String) (p : Panel) : Panel × List Request :=
  if cmd = "" then (p, [])
  else
    let recorded := (p.appendLog ("> " ++ cmd)).record cmd
    (recorded.1, .script cmd :: recorded.2)

/-- `get<std::list<std::string>>`. -/
def readStrings : Json → Option (List String)
  | .arr xs => xs.mapM Json.str?
  | _ => none

/-- The keys that `items()` goes through. -/
def itemKeys : Json → List String
  | .obj ms => ms.map Prod.fst
  | .arr xs => (List.range xs.length).map toString
  | .null => []
  | _ => [""]

/-- The commands of an answer to `printer.gcode.help`. -/
def commands (j : Json) : List String := ((j.get? "result").map itemKeys).getD []

/-- `handle_macros`, with the history that the state holds; `none` is an exception. -/
def Panel.handleMacros (dbHistory j : Json) (p : Panel) : Option Panel :=
  (if dbHistory = .null then some p.history else readStrings dbHistory).map fun history =>
    { p with history := history, allMacros := p.allMacros ++ commands j }

def startsWith (m start : List Char) : Bool := start.isPrefixOf m

/-- What is typed is a prefix, as it is or in capitals. -/
def chipMatches (typed m : String) : Bool :=
  typed = "" || startsWith m.toList (typed.toList.map Char.toUpper) ||
    startsWith m.toList typed.toList

/-- The shortcuts of `refresh_chips`. -/
def Panel.chips (typed : String) (p : Panel) : List String :=
  (p.history.filter (chipMatches typed) ++ p.allMacros.filter (chipMatches typed)).take 16

end PowerScreen.Console
