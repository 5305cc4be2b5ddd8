import PowerScreen.Library.Run
import PowerScreen.MainPanel.Sensors

/-! # The numpad of the temperature cards

A tap on an editable card hands the numpad a callback into the card and shows it. The
callback stays after the numpad is hidden, and the cards are built anew with every
connection.
-/
namespace PowerScreen.MainPanel
open Library Library.Run

/-- The numpad; `C` is what a callback captures, and at first there is an empty one. -/
structure Numpad (C : Type*) where
  hidden : Bool := true
  text : List Char := []
  readyCb : Option C := none

namespace Numpad

variable {C V : Type*}

def close (np : Numpad C) : Numpad C := { np with hidden := true, text := [] }

def setCallback (np : Numpad C) (cb : C) : Numpad C := { np with readyCb := some cb }

def foregroundReset (np : Numpad C) : Numpad C := { np with hidden := false, text := [] }

def type (np : Numpad C) (cs : List Char) : Numpad C := { np with text := np.text ++ cs }

def backspace (np : Numpad C) : Numpad C := { np with text := np.text.dropLast }

def cancel (np : Numpad C) : Numpad C := { np with hidden := true }

/-- OK; the numpad that is left and the callback that has been run, with its value. `none` is
the exception of a text that is no number. -/
def ready (stod : List Char → Option V) (np : Numpad C) : Option (Numpad C × Option (C × V)) :=
  if np.text = [] then some (np.close, none)
  else (stod np.text).map fun v => (np.close, np.readyCb.map (·, v))

end Numpad

/-- The card of the Filament panel. -/
structure SensorContainer where
  id : String
  canEdit : Bool

def extruderTemp : SensorContainer := ⟨"extruder", false⟩

def setHeaterTemperature (heater : String) (target : List Char) : List Char :=
  "SET_HEATER_TEMPERATURE HEATER=".toList ++ heater.toList ++ " TARGET=".toList ++ target

inductive Card where
  | temp (c : TempCard)
  | sensor (c : SensorContainer)

namespace Card

def id : Card → String
  | temp c => c.key
  | sensor c => c.id

def controllable : Card → Bool
  | temp c => c.controllable
  | sensor c => c.canEdit

/-- The callback of both kinds of card. -/
def readyCallback (c : Card) (target : List Char) : List Char := setHeaterTemperature c.id target

/-- A tap on the card. -/
def handleEdit (c : Card) (np : Numpad Card) : Numpad Card := (np.setCallback c).foregroundReset

/-- The script that is sent when a text is typed and confirmed after a tap on the card. -/
def edited {V : Type*} (stod : List Char → Option V) (fmt : V → List Char) (np : Numpad Card)
    (c : Card) (text : List Char) : Option (List Char) :=
  (((c.handleEdit np).type text).ready stod).bind fun r =>
    r.2.map fun call => call.1.readyCallback (fmt call.2)

end Card

/-- The cards there are, on the Home and on the Filament panel. -/
def allCards (cards : List TempCard) : List Card := cards.map .temp ++ [.sensor extruderTemp]

/-- The name under which Klipper registers the heater of an object, if it is one. -/
def heaterName (object : String) : Option String :=
  if State.isExtruder object ∨ object = "heater_bed" then some object
  else if State.hasPrefix "heater_generic " object then
    some (String.ofList (object.toList.drop "heater_generic ".length))
  else none

theorem setHeaterTemperature_inj {a b : String} {t : List Char} :
    setHeaterTemperature a t = setHeaterTemperature b t ↔ a = b := by
  unfold setHeaterTemperature
  generalize "SET_HEATER_TEMPERATURE HEATER=".toList = command
  generalize " TARGET=".toList = target
  rw [List.append_left_inj, List.append_left_inj, List.append_right_inj, String.toList_inj]

/-- Only a generic heater is registered under another name than its object's. -/
theorem heaterName_eq_self_iff {object name : String} (h : heaterName object = some name) :
    object = name ↔ ¬ State.hasPrefix "heater_generic " object := by
  unfold heaterName at h
  split_ifs at h with hself hgeneric
  · refine iff_of_true (Option.some.inj h) fun hgeneric => ?_
    have hpre := of_decide_eq_true hgeneric
    rcases hself with hextruder | rfl
    · have hextruder := of_decide_eq_true (Bool.and_eq_true_iff.mp hextruder).1
      have hcmp := List.prefix_of_prefix_length_le hextruder hpre (by decide)
      exact absurd hcmp (by decide)
    · exact absurd hpre (by decide)
  · refine iff_of_false (fun heq => ?_) (not_not_intro hgeneric)
    have hlong := (of_decide_eq_true hgeneric).length_le
    have hlength := congrArg (fun t => t.toList.length) (heq.trans (Option.some.inj h).symm)
    have hclass : "heater_generic ".toList.length = 15 := by decide
    have hclass' : "heater_generic ".length = 15 := by decide
    simp only [String.toList_ofList, List.length_drop] at hlength
    omega

theorem edited_eq {V : Type*} {stod : List Char → Option V} (fmt : V → List Char)
    (np : Numpad Card) (c : Card) {text : List Char} (htext : text ≠ []) {v : V}
    (hv : stod text = some v) :
    Card.edited stod fmt np c text = some (c.readyCallback (fmt v)) := by
  have htyped : ((c.handleEdit np).type text).text = text := rfl
  rw [Card.edited, Numpad.ready, htyped, if_neg htext, hv]
  rfl

/-- Every card that can be edited is that of an object of the printer. -/
theorem object_of_card {s : State} {conf : Json} {df : String} {sensors : List (String × Json)}
    (hsensors : s.getDisplaySensors conf df = some sensors) {cards : List TempCard}
    (hcards : createSensors sensors = some cards) {c : Card} (hc : c ∈ allCards cards)
    (hcontrol : c.controllable) : ∃ names, s.objectNames = some names ∧ c.id ∈ names := by
  obtain ⟨names, user, hnames, hshows⟩ := shows_of_getDisplaySensors hsensors
  refine ⟨names, hnames, ?_⟩
  rcases List.mem_append.mp hc with hc | hc
  · obtain ⟨t, ht, rfl⟩ := List.mem_map.mp hc
    have hkey := List.mem_map_of_mem (f := fun c : TempCard => (c.key, c.slot)) ht
    rw [cards_of_mapM hcards, map_placed] at hkey
    obtain ⟨k, hk, hslot⟩ := List.mem_filterMap.mp hkey
    obtain ⟨p, -, hp⟩ := Option.map_eq_some_iff.mp hslot
    obtain ⟨e, he, hek⟩ := List.mem_map.mp hk
    have hid : (Card.temp t).id = e.1 := (congrArg Prod.fst hp).symm.trans hek.symm
    rw [hid]
    exact (hshows.exist e he).1
  · rw [List.mem_singleton.mp hc] at hcontrol
    cases hcontrol

/-- A confirmed value goes to the heater of the card's object exactly where the object is not
a generic heater. -/
theorem heater_target_iff {V : Type*} (stod : List Char → Option V) (fmt : V → List Char)
    {s : State} {conf : Json} {df : String} {sensors : List (String × Json)}
    (hsensors : s.getDisplaySensors conf df = some sensors) {cards : List TempCard}
    (hcards : createSensors sensors = some cards) {c : Card} (hc : c ∈ allCards cards)
    (hcontrol : c.controllable) {name : String} (hname : heaterName c.id = some name)
    (np : Numpad Card) {text : List Char} (htext : text ≠ []) {v : V} (hv : stod text = some v) :
    (∃ names, s.objectNames = some names ∧ c.id ∈ names) ∧
      (Card.edited stod fmt np c text = some (setHeaterTemperature name (fmt v)) ↔
        ¬ State.hasPrefix "heater_generic " c.id) := by
  refine ⟨object_of_card hsensors hcards hc hcontrol, ?_⟩
  rw [edited_eq fmt np c htext hv, Option.some_inj, Card.readyCallback,
    setHeaterTemperature_inj, heaterName_eq_self_iff hname]

theorem heater_target_extruder :
    Card.edited some id {} (.temp ⟨"extruder", 0, "Extruder", true⟩) ['2', '0'] =
      some (setHeaterTemperature "extruder" ['2', '0']) :=
  have hsensors : oneExtruder.getDisplaySensors .null "/printers/k1/" = some _ := rfl
  have hcards : createSensors _ = some [⟨"extruder", 0, "Extruder", true⟩] := by decide
  (heater_target_iff some id hsensors hcards (by simp [allCards]) rfl (by decide) {}
    (by decide) rfl).2.mpr (by decide)

def chamberHeater : State where
  entries := [("printer_objs", .obj [("objects", .arr [.str "heater_generic chamber"])])]
  sorted := by decide

/-- The object's class is sent with the name of a chamber heater. -/
theorem generic_heater_addressed_by_object : ¬ ∀ (s : State) (conf : Json) (df : String)
    (sensors : List (String × Json)) (cards : List TempCard),
    s.getDisplaySensors conf df = some sensors → createSensors sensors = some cards →
      ∀ c ∈ allCards cards, c.controllable → ∀ name, heaterName c.id = some name →
        Card.edited some id {} c ['5', '0'] = some (setHeaterTemperature name ['5', '0']) := by
  intro h
  have hsent := h chamberHeater .null "/printers/k1/" _
    [⟨"heater_generic chamber", 0, "Heater Generic Chamber", true⟩] rfl (by decide) _
    List.mem_cons_self rfl "chamber" (by decide)
  revert hsent
  decide

end PowerScreen.MainPanel
