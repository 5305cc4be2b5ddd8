import Mathlib.Data.List.Infix
import PowerScreen.Library.Decimal
import PowerScreen.Library.JsonPointer

/-! # The motor driver tuning panel

For every stepper with a motor driver the panel shows the motor, the tuning goal and,
where the driver can sense a stall, its threshold, and saves them by a G-code line
for each stepper. What it shows is read from the configuration the printer reports.
-/
namespace PowerScreen.TmcTune
open Library

def goalIdxMap : List (String × ℕ) :=
  [("auto", 0), ("silent", 1), ("performance", 2), ("autoswitch", 3)]

/-- The options of the dropdown. -/
def goals : List String := ["auto", "silent", "performance", "autoswitch"]

def tmcSgRange : List (String × ℤ × ℤ) :=
  [("tmc2130", -64, 63), ("tmc2209", 0, 255), ("tmc2240", -64, 63), ("tmc2660", -64, 63),
    ("tmc5160", -64, 63)]

/-- `s.substr(s.find(' ') + 1)`, which is all of `s` when it has no space. -/
def afterSpace (s : String) : String :=
  if ' ' ∈ s.toList then String.ofList (s.toList.dropWhile (· ≠ ' ')).tail else s

/-- `s.substr(0, s.find(' '))` -/
def beforeSpace (s : String) : String := String.ofList (s.toList.takeWhile (· ≠ ' '))

structure Container where
  name : String
  /-- The sections of the motor database. -/
  motors : List String
  /-- Zero stands for no configuration. -/
  motorIdx : ℕ
  goalIdx : ℕ
  hasSg : Bool
  threshold : ℤ
  sgRange : ℤ × ℤ
deriving DecidableEq

namespace Container

def motorText (c : Container) : String :=
  match c.motorIdx with
  | 0 => "Not Configured"
  | i + 1 => (c.motors[i]?).elim "" afterSpace

def goalText (c : Container) : String := (goals[c.goalIdx]?).getD ""

/-- What the user sees: the threshold only where there is one. -/
def shown (c : Container) : String × String × Option ℤ :=
  (c.motorText, c.goalText, if c.hasSg then some c.threshold else none)

end Container

/-- The text of an option as it fits into the buffer of 128 bytes. -/
def selectedStr (s : String) : String := String.ofList (s.toList.take 127)

def sectionOf (stepper : String) : String := "autotune_tmc " ++ stepper

def saveLine (sect pairs : String) : String :=
  "_PS_SAVE_CONFIG SECTION=\"" ++ sect ++ "\" KEY_VALUE=\"" ++ pairs ++ "\""

def deleteLine (sect : String) : String := "_PS_DELETE_CONFIG SECTION=\"" ++ sect ++ "\""

namespace Container

/-- The driver's name for the threshold, told from its range. -/
def thresholdKey (c : Container) : String := if c.sgRange.1 = 0 then "sg4_thrs" else "sgt"

def keyValues (c : Container) : String :=
  "motor:" ++ selectedStr c.motorText ++ ",tuning_goal:" ++ selectedStr c.goalText ++
    (if c.hasSg then "," ++ c.thresholdKey ++ ":" ++ toString c.threshold else "")

def getConfigMacro (c : Container) : String :=
  if selectedStr c.motorText = "Not Configured" then deleteLine (sectionOf c.name)
  else saveLine (sectionOf c.name) c.keyValues

end Container

/-- The first motor of that name. -/
def motorIdx (motors : List String) (name : String) : ℕ :=
  match (motors.map afterSpace).findIdx? (· = name) with
  | some i => i + 1
  | none => 0

def defaultThreshold (range : ℤ × ℤ) : ℤ := if range.1 = 0 then 80 else 1

def toInt16 (z : ℤ) : ℤ := (z + 2 ^ 15) % 2 ^ 16 - 2 ^ 15

/-- What a spin box makes of a value. -/
def inRange (range : ℤ × ℤ) (z : ℤ) : ℤ := max range.1 (min z range.2)

/-- The sections of tuned steppers, by the name of the stepper. -/
def tunedConfig (config : List (String × Json)) : List (String × Json) :=
  config.filterMap fun el =>
    if "autotune_tmc ".toList <+: el.1.toList then some (afterSpace el.1, el.2) else none

def configuredSteppers (config : List (String × Json)) : List String :=
  (config.map Prod.fst).filter fun key => "tmc".toList <+: key.toList ∧ ' ' ∈ key.toList

/-- Whether the stepper homes against a stall. -/
def virtualEndstop (config : List (String × Json)) (stepper : String) : Option Bool := do
  let tokens ← Json.parsePointer ("/" ++ stepper ++ "/endstop_pin")
  let pin ← Json.optional Json.str? (← Json.getAt tokens (.obj config))
  return pin.any fun pin => "virtual_endstop".toList <:+: pin.toList

/-- The motor, the goal and the threshold of a stepper, as its section has them. -/
def tuned (motors : List String) (sgRange : ℤ × ℤ) : Option Json → Option (ℕ × ℕ × ℤ)
  | none => some (0, 0, defaultThreshold sgRange)
  | some el => do
    let motor ← Json.optional Json.str? (← Json.getAt ["motor"] el)
    let goal ← Json.optional Json.str? (← Json.getAt ["tuning_goal"] el)
    let sgthrs ← Json.optional (·.str?.bind Decimal.stoi) (← Json.getAt ["sg4_thrs"] el)
    return (motor.elim 0 (motorIdx motors), (goal.bind fun g => goalIdxMap.lookup g).getD 0,
      (sgthrs.map toInt16).getD (defaultThreshold sgRange))

/-- The entry of the loop over the configured drivers. -/
def container (motors : List String) (config : List (String × Json)) (key : String) :
    Option Container := do
  let range := tmcSgRange.lookup (beforeSpace key)
  let sgRange := range.getD (0, 0)
  let stall ← virtualEndstop config (afterSpace key)
  let shown ← tuned motors sgRange ((tunedConfig config).lookup (afterSpace key))
  return ⟨afterSpace key, motors, shown.1, shown.2.1, stall && range.isSome,
    inRange sgRange shown.2.2, sgRange⟩

def init (motors : List String) (config : List (String × Json)) : Option (List Container) :=
  (configuredSteppers config).mapM (container motors config)

/-- `dict(s.split(':') for s in kv)`: a piece that does not split in two is an exception. -/
def pairsOf (pairs : String) : Option (List (String × String)) :=
  (Json.splitOn ',' pairs.toList).mapM fun s =>
    match Json.splitOn ':' s with
    | [k, v] => some (String.ofList k, String.ofList v)
    | _ => none

/-- The options of a section, of equal keys the last one. -/
def sectionJson (pairs : List (String × String)) : Json :=
  .obj (pairs.foldl (fun ms kv => Assoc.insert kv.1 (.str kv.2) ms) [])

/-- The configuration as it is reported after the handler has run, `get` being the
parameters of the command. -/
def cmdPowerscreenSaveConfig (config : List (String × Json)) (get : String → Option String) :
    Option (List (String × Json)) :=
  match get "SECTION", get "KEY_VALUE" with
  | some sect, some pairs =>
    if sect = "" ∨ pairs = "" then some config
    else (pairsOf pairs).map fun d => Assoc.insert sect (sectionJson d) (Assoc.erase sect config)
  | _, _ => some config

end PowerScreen.TmcTune
