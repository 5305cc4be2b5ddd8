import PowerScreen.Config.Preserved
import PowerScreen.SysInfo.Checker

/-! # The settings on the System panel

Each setting is an entry of the configuration. The panel reads them when it is made, and a
change is stored and saved at once. A start of the program completes the saved document and
makes the panel anew; the backlight keeps what was written to it.
-/
namespace PowerScreen.SysInfo.Settings
open Library Library.Json Update

def sleepOptions : List String :=
  ["Never", "5 Minutes", "10 Minutes", "30 Minutes", "1 Hour", "5 Hours"]

def sleepsecToDdIdx : List (ℤ × ℕ) :=
  [(-1, 0), (300, 1), (600, 2), (1800, 3), (3600, 4), (18000, 5)]

def sleepLabelToSec : List (String × ℤ) :=
  [("Never", -1), ("5 Minutes", 300), ("10 Minutes", 600), ("30 Minutes", 1800), ("1 Hour", 3600),
    ("5 Hours", 18000)]

def logLevels : List String := ["trace", "debug", "info"]

/-- `get<int32_t>()`; a fraction is cut off. -/
def int32? : Json → Option ℤ
  | .num (.int n) => some (n.bmod (2 ^ 32))
  | .num (.float q) => some ((q.num.tdiv q.den).bmod (2 ^ 32))
  | .bool b => some b.toNat
  | _ => none

/-- `data[json_pointer(p)]`: the value, and the document with what the access creates. -/
def getJson (p : String) (data : Json) : Option (Json × Json) :=
  (parsePointer p).bind fun ts => (modifyAt id ts data).bind fun d => (getAt ts data).map (·, d)

def set (p : String) (v data : Json) : Option Json :=
  (parsePointer p).bind fun ts => setAt ts v data

def clamp (percent : ℤ) : ℤ := max 5 (min 100 percent)

/-- The backlight's file, if there is one. -/
def writeBacklight (percent : ℤ) (backlight : Option ℤ) : Option ℤ :=
  backlight.map fun _ => clamp percent

def readBacklight (backlight : Option ℤ) : ℤ := (backlight.map clamp).getD 100

structure Panel where
  sleep : ℕ
  promptEstop : Bool
  invertZ : Bool
  /-- What the drop-down shows. -/
  logDd : ℕ
  loglevel : ℕ
  channel : ℕ
  brightness : ℤ
deriving DecidableEq

def restoreBacklight (saved : Json) (backlight : Option ℤ) : Option ℤ :=
  match saved with
  | .num (.int n) => writeBacklight (n.bmod (2 ^ 32)) backlight
  | _ => backlight

/-- An interval without an option leaves the drop-down at the first one. -/
def sleepShown (sec : Json) : Option ℕ :=
  (Json.optional int32? sec).map fun sec => (sec.bind fun sec => sleepsecToDdIdx.lookup sec).getD 0

def switchShown (missing : Bool) (v : Json) : Option Bool :=
  (Json.optional bool? v).map (·.getD missing)

/-- A level without an option leaves the drop-down at the first one and the member as it is. -/
def levelShown (level : Json) : Option (ℕ × ℕ) :=
  (Json.optional str? level).map fun level => match level with
    | none => (1, 1)
    | some l => if l ∈ logLevels then (logLevels.idxOf l, logLevels.idxOf l) else (0, 1)

def updateChannel (data : Json) : Option (Channel × Json) :=
  (getJson "/update_channel" data).map fun (v, data) => (channelOf v, data)

/-- The constructor: the panel, the document and the backlight. -/
def build (df : String) (data : Json) (backlight : Option ℤ) :
    Option (Panel × Json × Option ℤ) := do
  let (saved, data) ← getJson "/display_brightness" data
  let (sec, data) ← getJson "/display_sleep_sec" data
  let sleep ← sleepShown sec
  let (estop, data) ← getJson "/prompt_emergency_stop" data
  let promptEstop ← switchShown true estop
  let (z, data) ← getJson "/invert_z_icon" data
  let invertZ ← switchShown false z
  let (dflt, data) ← getJson "/default_printer" data
  let (level, data) ← if dflt.isEmpty then some (.null, data) else getJson (df ++ "log_level") data
  let (logDd, loglevel) ← levelShown level
  let (channel, data) ← updateChannel data
  let backlight := restoreBacklight saved backlight
  return (⟨sleep, promptEstop, invertZ, logDd, loglevel, if channel = .stable then 1 else 0,
    readBacklight backlight⟩, data, backlight)

/-- Whether to ask before a print is cancelled or the printer is stopped. -/
def promptEnabled (data : Json) : Option (Bool × Json) :=
  (getJson "/prompt_emergency_stop" data).bind fun (v, data) =>
    (switchShown false v).map (·, data)

/-- Which way the arrows of the Z axis point. -/
def invertedZ (data : Json) : Option (Bool × Json) :=
  (getJson "/invert_z_icon" data).bind fun (v, data) => (switchShown false v).map (·, data)

structure App where
  /-- The saved document. -/
  file : Json
  /-- The document in memory. -/
  data : Json
  df : String
  backlight : Option ℤ
  panel : Panel

/-- The slider goes from 5 to 100. -/
structure Percent where
  value : ℤ
  low : 5 ≤ value
  high : value ≤ 100

inductive Event where
  | sleep (i : Fin 6)
  | promptEstop (on : Bool)
  | invertZ (on : Bool)
  | level (i : Fin 3)
  | channel (i : Fin 2)
  /-- The slider moves. -/
  | drag (v : Percent)
  | release
  /-- The program is started again. -/
  | restart

def App.save (a : App) (p : String) (v : Json) : Option App :=
  (set p v a.data).map fun data => { a with data := data, file := data }

section
variable (b : Config.Build) (path thumbdir : String)

def launch (file : Option Json) (backlight : Option ℤ) : Option App := do
  let (saved, df) ← Config.init b path thumbdir file
  let (panel, data, backlight) ← build (df.getD "") saved backlight
  return ⟨saved, data, df.getD "", backlight, panel⟩

def App.handle (a : App) : Event → Option App
  | .sleep i =>
    let a : App := { a with panel := { a.panel with sleep := i } }
    match sleepOptions[i.val]?.bind fun label => sleepLabelToSec.lookup label with
    | some sec => a.save "/display_sleep_sec" (.num (.int sec))
    | none => some a
  | .promptEstop on =>
    let a : App := { a with panel := { a.panel with promptEstop := on } }
    a.save "/prompt_emergency_stop" (.bool on)
  | .invertZ on =>
    let a : App := { a with panel := { a.panel with invertZ := on } }
    a.save "/invert_z_icon" (.bool on)
  | .level i =>
    let a : App := { a with panel := { a.panel with logDd := i } }
    if i.val ≠ a.panel.loglevel ∧ i.val < logLevels.length then
      let a : App := { a with panel := { a.panel with loglevel := i } }
      a.save (a.df ++ "log_level") (.str (logLevels.getD i ""))
    else some a
  | .channel i => do
    let a : App := { a with panel := { a.panel with channel := i } }
    let (current, data) ← updateChannel a.data
    let a : App := { a with data := data }
    if selectedChannel i ≠ current then
      a.save "/update_channel" (.str (selectedChannel i).text)
    else some a
  | .drag v =>
    some { a with panel := { a.panel with brightness := v.value }
                  backlight := writeBacklight v.value a.backlight }
  | .release => a.save "/display_brightness" (.num (.int a.panel.brightness))
  | .restart => launch b path thumbdir (some a.file) a.backlight

/-- An exception ends the program. -/
def step (a : Option App) (e : Event) : Option App := a.bind fun a => App.handle b path thumbdir a e

end

/-- What the user has chosen, apart from any document. -/
structure Choice where
  sleep : ℕ
  promptEstop : Bool
  invertZ : Bool
  level : ℕ
  channel : ℕ
  brightness : ℤ
  /-- The brightness at which the slider was last let go. -/
  kept : Option ℤ
deriving DecidableEq

/-- A start brings back the kept brightness, where there is a backlight. -/
def Choice.step (dimmable : Bool) (c : Choice) : Event → Choice
  | .sleep i => { c with sleep := i }
  | .promptEstop on => { c with promptEstop := on }
  | .invertZ on => { c with invertZ := on }
  | .level i => { c with level := i }
  | .channel i => { c with channel := i }
  | .drag v => { c with brightness := v.value }
  | .release => { c with kept := some c.brightness }
  | .restart => { c with brightness := if dimmable then c.kept.getD c.brightness else 100 }

/-- The brightness a document keeps. -/
def keptOf (saved : Json) : Option ℤ :=
  match saved with
  | .num (.int n) => some (clamp (n.bmod (2 ^ 32)))
  | _ => none

def App.choice (a : App) : Choice :=
  ⟨a.panel.sleep, a.panel.promptEstop, a.panel.invertZ, a.panel.logDd, a.panel.channel,
    a.panel.brightness, keptOf (a.data.get "display_brightness")⟩

end PowerScreen.SysInfo.Settings
