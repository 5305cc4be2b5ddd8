import PowerScreen.Library.Fields
import PowerScreen.State.Access

/-! # The objects on display

The temperature sensors, fans and lamps that are shown are those of the configuration which
the printer has; where it has none of them, a default list made from the printer's objects.
-/
namespace PowerScreen.State
open Library Library.Json

def hasPrefix (p name : String) : Bool := decide (p.toList <+: name.toList)

def isExtruder (name : String) : Bool :=
  hasPrefix "extruder" name && !hasPrefix "extruder_stepper" name

def isHeater (name : String) : Bool := name = "heater_bed" || hasPrefix "heater_generic " name

def isSensor (name : String) : Bool :=
  hasPrefix "temperature_sensor " name || hasPrefix "temperature_fan " name

def isFan (name : String) : Bool :=
  name = "fan" || hasPrefix "heater_fan " name || hasPrefix "fan_generic " name ||
    hasPrefix "controller_fan " name

def isLed (name : String) : Bool := hasPrefix "led " name

def isOutputPin (name : String) : Bool := hasPrefix "output_pin " name

/-- The names of the printer's objects; `none` is the exception of an entry that is no
string. -/
def objectNames (s : State) : Option (List String) :=
  (s.getData ["printer_objs", "objects"]).bind fun objects => objects.elements.mapM str?

def getExtruders (s : State) : Option (List String) := s.objectNames.map (·.filter isExtruder)

def getHeaters (s : State) : Option (List String) := s.objectNames.map (·.filter isHeater)

def getSensors (s : State) : Option (List String) := s.objectNames.map (·.filter isSensor)

def getFans (s : State) : Option (List String) := s.objectNames.map (·.filter isFan)

def getLeds (s : State) : Option (List String) := s.objectNames.map (·.filter isLed)

def getOutputPins (s : State) : Option (List String) := s.objectNames.map (·.filter isOutputPin)

def isSpace (c : Char) : Bool := c = ' ' || decide (9 ≤ c.toNat ∧ c.toNat ≤ 13)

def toTitleFrom : Bool → List Char → List Char
  | _, [] => []
  | last, c :: cs =>
    let cased := if last then c.toUpper else c.toLower
    let shown := if cased = '_' then ' ' else cased
    shown :: toTitleFrom (isSpace shown) cs

def toTitle (s : String) : String := String.ofList (toTitleFrom true s.toList)

/-- What is behind the last blank, or another name where there is none. -/
def lastWord (name other : String) : String :=
  if ' ' ∈ name.toList then String.ofList (name.toList.reverse.takeWhile (· ≠ ' ')).reverse
  else other

/-- The colors are the first of the palette, by their number there. -/
def powerscreenColorSize : ℕ := 19

def color (idx : ℕ) : Json := .num (.int (idx % powerscreenColorSize : ℕ))

def defaultSensor (controllable : Bool) (e : String × ℕ) : String × Json :=
  (e.1, .obj [("color", color e.2), ("controllable", .bool controllable),
    ("display_name", .str (toTitle e.1)), ("id", .str e.1)])

def namedEntry (name : String) (displayName : String) : String × Json :=
  (name, .obj [("display_name", .str displayName), ("id", .str name)])

def defaultFan (name : String) : String × Json :=
  namedEntry name (toTitle (lastWord name "Part Fan"))

def defaultLed (name : String) : String × Json := namedEntry name (toTitle (lastWord name "LED"))

def entryId (entry : Json) : Option String := (entry.get? "id").bind str?

/-- The configured entries with their ids; `none` is an exception. -/
def userEntries (conf : Json) (path : String) : Option (List (String × Json)) :=
  ((parsePointer path).bind (getAt · conf)).bind fun user =>
    user.elements.mapM fun entry => (entryId entry).map (·, entry)

/-- The entries of a class of objects that are configured. -/
def pick (byId : List (String × Json)) (names : List String) (display : List (String × Json)) :
    List (String × Json) :=
  Assoc.insertAll (names.filterMap fun name => (byId.lookup name).map (name, ·)) display

def orDefault (display dflt : List (String × Json)) : List (String × Json) :=
  if display = [] then dflt else display

def getDisplaySensors (s : State) (conf : Json) (df : String) : Option (List (String × Json)) :=
  (userEntries conf (df ++ "monitored_sensors")).bind fun user =>
  s.getExtruders.bind fun extruders =>
  s.getHeaters.bind fun heaters =>
  s.getSensors.map fun sensors =>
    let byId := Assoc.insertAll user []
    orDefault (pick byId sensors (pick byId heaters (pick byId extruders [])))
      (Assoc.insertAll ((extruders.zipIdx 0).map (defaultSensor true) ++
        (heaters.zipIdx extruders.length).map (defaultSensor true) ++
        (sensors.zipIdx (extruders.length + heaters.length)).map (defaultSensor false)) [])

def getDisplayFans (s : State) (conf : Json) (df : String) : Option (List (String × Json)) :=
  (userEntries conf (df ++ "fans")).bind fun user =>
  s.getFans.bind fun fans =>
  s.getOutputPins.map fun outputPins =>
    let byId := Assoc.insertAll user []
    orDefault (pick byId outputPins (pick byId fans []))
      (Assoc.insertAll (fans.map defaultFan) [])

def getDisplayLeds (s : State) (conf : Json) (df : String) : Option (List (String × Json)) :=
  (userEntries conf (df ++ "leds")).bind fun user =>
  s.getLeds.bind fun leds =>
  s.getOutputPins.map fun outputPins =>
    let byId := Assoc.insertAll user []
    orDefault (pick byId outputPins (pick byId leds []))
      (Assoc.insertAll ((outputPins.filter (· = "output_pin LED")).map (namedEntry · "LED") ++
        leds.map defaultLed) [])

/-- The last entry of the configuration under an id is the one in force. -/
def configured (user : List (String × Json)) (id : String) : Option Json := user.reverse.lookup id

/-- A display list holds the configured objects of a class that the printer has, with their
entries as they are, and where there are none the default objects of the class. -/
structure Shows (cls dflt : String → Bool) (names : List String) (user : List (String × Json))
    (display : List (String × Json)) : Prop where
  sorted : Assoc.Sorted display
  exist : ∀ e ∈ display, e.1 ∈ names ∧ cls e.1
  ids : ∀ e ∈ display, entryId e.2 = some e.1
  chosen : (∃ name ∈ names, cls name ∧ (configured user name).isSome) →
    ∀ name, display.lookup name = if name ∈ names ∧ cls name then configured user name else none
  dflt : (¬ ∃ name ∈ names, cls name ∧ (configured user name).isSome) →
    ∀ name, name ∈ display.map Prod.fst ↔ name ∈ names ∧ dflt name

/-- A list is made whenever the object list and the configured entries can be read. -/
def Displays (cls dflt : String → Bool) (s : State) (conf : Json) (path : String)
    (result : Option (List (String × Json))) : Prop :=
  match s.objectNames, userEntries conf path with
  | some names, some user => ∃ display, result = some display ∧ Shows cls dflt names user display
  | _, _ => result = none

theorem lookup_filterMap_reverse (byId : List (String × Json)) (names : List String) (k : String) :
    (names.filterMap fun name => (byId.lookup name).map (name, ·)).reverse.lookup k =
      if k ∈ names then byId.lookup k else none := by
  induction names with
  | nil => rfl
  | cons name names ih =>
    rw [List.filterMap_cons]
    cases hname : byId.lookup name with
    | none =>
      rw [Option.map_none, ih]
      by_cases hk : k = name
      · simp [hk, hname]
      · simp [hk]
    | some entry =>
      rw [Option.map_some, List.reverse_cons, Assoc.lookup_append, ih, Assoc.lookup_cons]
      by_cases hk : k = name
      · by_cases hmem : name ∈ names <;> simp [hk, hname, hmem]
      · simp [hk]

theorem lookup_pick (byId : List (String × Json)) (names : List String)
    (display : List (String × Json)) (k : String) :
    (pick byId names display).lookup k =
      (if k ∈ names then byId.lookup k else none).or (display.lookup k) := by
  rw [pick, Assoc.lookup_insertAll, lookup_filterMap_reverse]

theorem lookup_byId (user : List (String × Json)) (k : String) :
    (Assoc.insertAll user []).lookup k = configured user k := by
  rw [Assoc.lookup_insertAll]
  exact Option.or_none

theorem entryId_of_userEntries {conf : Json} {path : String} {user : List (String × Json)}
    (h : userEntries conf path = some user) {e : String × Json} (he : e ∈ user) :
    entryId e.2 = some e.1 := by
  obtain ⟨j, -, hj⟩ := Option.bind_eq_some_iff.mp h
  obtain ⟨entry, -, hentry⟩ := exists_of_mem_mapM hj he
  obtain ⟨id, hid, rfl⟩ := Option.map_eq_some_iff.mp hentry
  exact hid

theorem entryId_of_configured {conf : Json} {path : String} {user : List (String × Json)}
    (h : userEntries conf path = some user) {id : String} {entry : Json}
    (hid : configured user id = some entry) : entryId entry = some id :=
  entryId_of_userEntries h (List.mem_reverse.mp (Assoc.mem_of_lookup hid))

/-- What picking the configured objects and falling back to the default ones comes to. -/
theorem shows_orDefault {cls dflt : String → Bool} {names : List String} {conf : Json}
    {path : String} {user picked entries : List (String × Json)}
    (huser : userEntries conf path = some user) (hpicked : Assoc.Sorted picked)
    (hlookup : ∀ name, picked.lookup name =
      if name ∈ names ∧ cls name then configured user name else none)
    (hentries : ∀ e ∈ entries, entryId e.2 = some e.1)
    (hkeys : ∀ name, name ∈ entries.map Prod.fst ↔ name ∈ names ∧ dflt name)
    (hcls : ∀ name, dflt name → cls name) :
    Shows cls dflt names user (orDefault picked (Assoc.insertAll entries [])) := by
  have hnone : picked = [] ↔ ¬ ∃ name ∈ names, cls name ∧ (configured user name).isSome := by
    constructor
    · rintro rfl ⟨name, hname, hin, hsome⟩
      have hnil := hlookup name
      rw [if_pos ⟨hname, hin⟩] at hnil
      rw [← hnil] at hsome
      cases hsome
    · intro h
      refine Assoc.ext_lookup hpicked List.Pairwise.nil fun name => ?_
      rw [hlookup]
      split_ifs with hname
      · have hno : ¬ (configured user name).isSome := fun hs => h ⟨name, hname.1, hname.2, hs⟩
        simpa using hno
      · rfl
  have hdflt : Assoc.Sorted (Assoc.insertAll entries []) := Assoc.Sorted.insertAll .nil entries
  have hmem : ∀ e ∈ Assoc.insertAll entries [], e ∈ entries := fun e he => by
    have hlook := Assoc.lookup_of_mem hdflt he
    rw [Assoc.lookup_insertAll] at hlook
    exact List.mem_reverse.mp (Assoc.mem_of_lookup (hlook ▸ Option.or_none.symm))
  by_cases hempty : picked = []
  · rw [orDefault, if_pos hempty]
    have hkey : ∀ name, name ∈ (Assoc.insertAll entries []).map Prod.fst ↔
        name ∈ names ∧ dflt name := fun name => by
      rw [← hkeys, ← Assoc.isSome_lookup_iff, Assoc.lookup_insertAll, List.lookup_nil,
        Option.or_none, Assoc.isSome_lookup_iff, List.map_reverse, List.mem_reverse]
    refine ⟨hdflt, fun e he => ?_, fun e he => hentries e (hmem e he),
      fun h => absurd h (hnone.mp hempty), fun _ => hkey⟩
    obtain ⟨hname, hin⟩ := (hkey e.1).mp (List.mem_map_of_mem he)
    exact ⟨hname, hcls e.1 hin⟩
  · rw [orDefault, if_neg hempty]
    have hpick : ∀ e ∈ picked, (e.1 ∈ names ∧ cls e.1) ∧ configured user e.1 = some e.2 :=
      fun e he => by
        have hlook := Assoc.lookup_of_mem hpicked he
        rw [hlookup] at hlook
        split_ifs at hlook with hin
        exact ⟨hin, hlook⟩
    exact ⟨hpicked, fun e he => (hpick e he).1,
      fun e he => entryId_of_configured huser (hpick e he).2, fun _ => hlookup,
      fun h => absurd (hnone.mpr h) hempty⟩

theorem displays_of {cls dflt : String → Bool} {s : State} {conf : Json} {path : String}
    {result : Option (List (String × Json))}
    (hnone : s.objectNames = none ∨ userEntries conf path = none → result = none)
    (hsome : ∀ names user, s.objectNames = some names → userEntries conf path = some user →
      ∃ display, result = some display ∧ Shows cls dflt names user display) :
    Displays cls dflt s conf path result := by
  unfold Displays
  split
  · rename_i names user hnames huser
    exact hsome names user hnames huser
  · rename_i h
    refine hnone ?_
    cases hnames : s.objectNames with
    | none => exact Or.inl rfl
    | some names =>
      cases huser : userEntries conf path with
      | none => exact Or.inr rfl
      | some user => exact absurd huser (h names user hnames)

def sensorClass (name : String) : Bool := isExtruder name || isHeater name || isSensor name

def fanClass (name : String) : Bool := isFan name || isOutputPin name

def ledClass (name : String) : Bool := isLed name || isOutputPin name

def ledDefault (name : String) : Bool := name = "output_pin LED" || isLed name

theorem map_fst_defaultSensor (controllable : Bool) (names : List String) (n : ℕ) :
    ((names.zipIdx n).map (defaultSensor controllable)).map Prod.fst = names := by
  rw [List.map_map]
  exact List.zipIdx_map_fst n names

theorem displays_sensors (s : State) (conf : Json) (df : String) :
    Displays sensorClass sensorClass s conf (df ++ "monitored_sensors")
      (s.getDisplaySensors conf df) := by
  refine displays_of (fun h => ?_) fun names user hnames huser => ?_
  · rcases h with h | h
    · cases huser : userEntries conf (df ++ "monitored_sensors") <;>
        simp [getDisplaySensors, getExtruders, h, huser]
    · rw [getDisplaySensors, h, Option.bind_none]
  · simp only [getDisplaySensors, getExtruders, getHeaters, getSensors, hnames, huser,
      Option.map_some, Option.bind_some]
    refine ⟨_, rfl, shows_orDefault huser ?_ (fun name => ?_) ?_
      (fun name => ?_) fun name h => h⟩
    · exact ((Assoc.Sorted.insertAll .nil _).insertAll _).insertAll _
    · rw [lookup_pick, lookup_pick, lookup_pick, lookup_byId, List.lookup_nil]
      by_cases hmem : name ∈ names <;> cases he : isExtruder name <;> cases hh : isHeater name <;>
        cases hs : isSensor name <;> simp [sensorClass, hmem, he, hh, hs]
    · intro e he
      simp only [List.mem_append, List.mem_map] at he
      rcases he with (⟨x, -, rfl⟩ | ⟨x, -, rfl⟩) | ⟨x, -, rfl⟩ <;> rfl
    · rw [List.map_append, List.map_append, map_fst_defaultSensor, map_fst_defaultSensor,
        map_fst_defaultSensor]
      simp only [List.mem_append, List.mem_filter, sensorClass, Bool.or_eq_true]
      tauto

theorem displays_fans (s : State) (conf : Json) (df : String) :
    Displays fanClass isFan s conf (df ++ "fans") (s.getDisplayFans conf df) := by
  refine displays_of (fun h => ?_) fun names user hnames huser => ?_
  · rcases h with h | h
    · cases huser : userEntries conf (df ++ "fans") <;> simp [getDisplayFans, getFans, h, huser]
    · rw [getDisplayFans, h, Option.bind_none]
  · simp only [getDisplayFans, getFans, getOutputPins, hnames, huser,
      Option.map_some, Option.bind_some]
    refine ⟨_, rfl, shows_orDefault huser ?_ (fun name => ?_) ?_
      (fun name => ?_) fun name h => by simp [fanClass, h]⟩
    · exact (Assoc.Sorted.insertAll .nil _).insertAll _
    · rw [lookup_pick, lookup_pick, lookup_byId, List.lookup_nil]
      by_cases hmem : name ∈ names <;> cases hf : isFan name <;> cases hp : isOutputPin name <;>
        simp [fanClass, hmem, hf, hp]
    · intro e he
      obtain ⟨x, -, rfl⟩ := List.mem_map.mp he
      rfl
    · rw [List.map_map, show Prod.fst ∘ defaultFan = id from rfl, List.map_id, List.mem_filter]

theorem displays_leds (s : State) (conf : Json) (df : String) :
    Displays ledClass ledDefault s conf (df ++ "leds") (s.getDisplayLeds conf df) := by
  have hpin : isOutputPin "output_pin LED" := by decide
  refine displays_of (fun h => ?_) fun names user hnames huser => ?_
  · rcases h with h | h
    · cases huser : userEntries conf (df ++ "leds") <;> simp [getDisplayLeds, getLeds, h, huser]
    · rw [getDisplayLeds, h, Option.bind_none]
  · simp only [getDisplayLeds, getLeds, getOutputPins, hnames, huser,
      Option.map_some, Option.bind_some]
    refine ⟨_, rfl, shows_orDefault huser ?_ (fun name => ?_) ?_
      (fun name => ?_) fun name h => ?_⟩
    · exact (Assoc.Sorted.insertAll .nil _).insertAll _
    · rw [lookup_pick, lookup_pick, lookup_byId, List.lookup_nil]
      by_cases hmem : name ∈ names <;> cases hl : isLed name <;> cases hp : isOutputPin name <;>
        simp [ledClass, hmem, hl, hp]
    · intro e he
      rcases List.mem_append.mp he with he | he
      · obtain ⟨x, -, rfl⟩ := List.mem_map.mp he
        rfl
      · obtain ⟨x, -, rfl⟩ := List.mem_map.mp he
        rfl
    · have hfst : Prod.fst ∘ (namedEntry · "LED") = id := rfl
      have hfst' : Prod.fst ∘ defaultLed = id := rfl
      rw [List.map_append, List.map_map, List.map_map, hfst, hfst', List.map_id, List.map_id]
      simp only [List.mem_append, List.mem_filter, decide_eq_true_eq, ledDefault, Bool.or_eq_true]
      constructor
      · rintro (⟨⟨hmem, -⟩, hname⟩ | ⟨hmem, hled⟩)
        · exact ⟨hmem, Or.inl hname⟩
        · exact ⟨hmem, Or.inr hled⟩
      · rintro ⟨hmem, rfl | hled⟩
        · exact Or.inl ⟨⟨hmem, hpin⟩, rfl⟩
        · exact Or.inr ⟨hmem, hled⟩
    · simp only [ledDefault, Bool.or_eq_true, decide_eq_true_eq] at h
      rcases h with rfl | h
      · decide
      · simp [ledClass, h]

theorem display_lists (s : State) (conf : Json) (df : String) :
    Displays sensorClass sensorClass s conf (df ++ "monitored_sensors")
        (s.getDisplaySensors conf df) ∧
      Displays fanClass isFan s conf (df ++ "fans") (s.getDisplayFans conf df) ∧
      Displays ledClass ledDefault s conf (df ++ "leds") (s.getDisplayLeds conf df) :=
  ⟨displays_sensors s conf df, displays_fans s conf df, displays_leds s conf df⟩

end PowerScreen.State
