import PowerScreen.State.DisplayLists
import PowerScreen.State.Fields

/-! # The lamps

One button of the Home stands for all the lamps on display. The panel keeps for each of
them whether it is on, by the reports of the printer and by what it has sent itself.
-/
namespace PowerScreen.Leds
open Library Library.Json Library.Run

/-- `get<double>() > 0.0` -/
def positive (j : Json) : Option Bool := j.num?.map fun n => decide (0 < n.toRat)

def size : Json → ℕ
  | .null => 0
  | .arr xs => xs.length
  | .obj ms => ms.length
  | _ => 1

/-- `at(i)`; a value that is no array is an exception. -/
def elemAt (i : ℕ) : Json → Option Json
  | .arr xs => xs[i]?
  | _ => none

/-- The white channel of the first lamp, when that has four channels. -/
def white (color : Json) : Option (Option Bool) :=
  if size color = 0 then some none
  else (elemAt 0 color).bind fun c =>
    if size c = 4 then ((elemAt 3 c).bind positive).map some else some none

structure Panel where
  leds : List (String × Bool) := []
  /-- What the button on the Home shows. -/
  shown : Bool := false

namespace Panel

def anyOn (p : Panel) : Bool := p.leds.any Prod.snd

/-- The callback sets the button. -/
def notifyState (p : Panel) : Panel := { p with shown := p.anyOn }

/-- The keys of a map, every lamp off. -/
def init (configured : List (String × Json)) (p : Panel) : Panel :=
  ({ p with leds := configured.foldl (fun m e => Assoc.insertNew e.1 false m) [] } :
    Panel).notifyState

/-- The color is read behind the value. The second component tells whether there was one. -/
def consumeLed (st : Status) (t : ℚ) (led : String × Bool) :
    Option ((String × Bool) × Bool) := do
  let value ← Json.optional positive (← st.read t led.1 "value")
  let color ← white (← st.read t led.1 "color_data")
  return ((led.1, color.getD (value.getD led.2)), value.isSome || color.isSome)

def consume (p : Panel) (st : Status) (t : ℚ) : Option Panel := do
  let read ← p.leds.mapM (consumeLed st t)
  let q : Panel := { p with leds := read.map Prod.fst }
  return if read.any Prod.snd then q.notifyState else q

/-- Here a value makes the color be passed over. -/
def refreshLed (s : State) (led : String × Bool) : Option (String × Bool) := do
  match ← Json.optional positive (← s.readField led.1 "value") with
  | some on => return (led.1, on)
  | none => return (led.1, (← white (← s.readField led.1 "color_data")).getD led.2)

def refresh (p : Panel) (s : State) : Option Panel := do
  let leds ← p.leds.mapM (refreshLed s)
  return ({ p with leds := leds } : Panel).notifyState

/-- The name of an object is behind the last blank. -/
def objName (id : String) : String := State.lastWord id id

def sendValue (id : String) (on : Bool) : String :=
  let value := if on then "1" else "0"
  if State.hasPrefix "output_pin " id then "SET_PIN PIN=" ++ objName id ++ " VALUE=" ++ value
  else "SET_LED LED=" ++ objName id ++ " WHITE=" ++ value

/-- The scripts come with the new panel. -/
def toggle (p : Panel) : Panel × List String :=
  let turnOn := !p.anyOn
  (({ p with leds := p.leds.map fun led => (led.1, turnOn) } : Panel).notifyState,
    p.leds.map fun led => sendValue led.1 turnOn)

end Panel

/-- The panel with the store it shares with the program, and the scripts it has sent. -/
structure Lamps where
  store : State
  panel : Panel := {}
  sent : List String := []

inductive Event where
  | connected
  /-- The list of the printer's objects has come, and the lamps on display with it. -/
  | created (configured : List (String × Json))
  | report (r : Report)
  | toggle

namespace Lamps

/-- The first report of a connection ends in a reading of the store. -/
def receive (l : Lamps) (r : Report) : Option Lamps :=
  let store := (l.store.receive r).getD l.store
  (match r with
    | .subscribed .. => l.panel.refresh store
    | .update st t => l.panel.consume st t).map fun p => { l with store := store, panel := p }

def handle (l : Lamps) : Event → Option Lamps
  | .connected => some { l with store := l.store.reset }
  | .created configured => some { l with panel := l.panel.init configured }
  | .report r => l.receive r
  | .toggle => some { l with panel := l.panel.toggle.1, sent := l.sent ++ l.panel.toggle.2 }

/-- After an exception there is no state any more. -/
def step (l : Option Lamps) (e : Event) : Option Lamps := l.bind (·.handle e)

end Lamps

end PowerScreen.Leds
