import PowerScreen.Library.Slots
import PowerScreen.State.DisplayLists

/-! # The temperature cards of the Home

The Home has room for three cards. The extruder, the bed and the chamber have a position of
their own, the other sensors take what is left in the order of their keys.
-/
namespace PowerScreen.MainPanel
open Library Library.Json

structure TempCard where
  key : String
  slot : Fin 3
  name : String
  controllable : Bool
deriving DecidableEq

/-- The positions that are not given away freely. -/
def reservedSlot (key : String) : Option (Fin 3) :=
  if key = "extruder" then some 0
  else if key = "heater_bed" then some 1
  else if key = "chamber_temp" ∨ key = "temperature_sensor chamber_temp" then some 2
  else none

def slotOf (sensors : List (String × Json)) (key : String) : Option (Fin 3) :=
  Slots.slot reservedSlot (sensors.map Prod.fst) key

def cardName (key displayName : String) : String :=
  if key = "extruder" then "Extruder"
  else if key = "heater_bed" then "Bed"
  else if key = "chamber_temp" ∨ key = "temperature_sensor chamber_temp" then "Chamber"
  else displayName

/-- `none` is the exception of an entry that is missing or of another type. -/
def createCard (key : String) (sensor : Json) (slot : Fin 3) : Option TempCard :=
  (sensor.get "controllable").bool?.bind fun controllable =>
  (sensor.get "display_name").str?.map fun displayName =>
    ⟨key, slot, cardName key displayName, controllable⟩

/-- The sensors that have a position. -/
def placed (sensors : List (String × Json)) : List ((String × Json) × Fin 3) :=
  sensors.filterMap fun e => (slotOf sensors e.1).map (e, ·)

def createSensors (sensors : List (String × Json)) : Option (List TempCard) :=
  (placed sensors).mapM fun e => createCard e.1.1 e.1.2 e.2

/-- What a card is made from can be read. -/
def Readable (sensor : Json) : Prop :=
  (sensor.get "controllable").bool?.isSome ∧ (sensor.get "display_name").str?.isSome

theorem isSome_createCard (key : String) (sensor : Json) (slot : Fin 3) :
    (createCard key sensor slot).isSome ↔ Readable sensor := by
  unfold createCard Readable
  cases (sensor.get "controllable").bool? <;> simp

theorem createCard_eq_some {key : String} {sensor : Json} {slot : Fin 3} {c : TempCard}
    (h : createCard key sensor slot = some c) : c.key = key ∧ c.slot = slot := by
  obtain ⟨controllable, -, h⟩ := Option.bind_eq_some_iff.mp h
  obtain ⟨displayName, -, rfl⟩ := Option.map_eq_some_iff.mp h
  exact ⟨rfl, rfl⟩

theorem mapM_eq_none_iff {α β : Type*} {f : α → Option β} {l : List α} :
    l.mapM f = none ↔ ∃ a ∈ l, f a = none := by
  induction l with
  | nil => simp
  | cons a l ih =>
    rw [List.mapM_cons, List.exists_mem_cons_iff, ← ih]
    cases f a <;> cases l.mapM f <;> simp

theorem createSensors_eq_none_iff (sensors : List (String × Json)) :
    createSensors sensors = none ↔
      ∃ e ∈ sensors, (slotOf sensors e.1).isSome ∧ ¬ Readable e.2 := by
  have hcard : ∀ (e : String × Json) (s : Fin 3), createCard e.1 e.2 s = none ↔ ¬ Readable e.2 := fun e s => by
    rw [← isSome_createCard e.1 e.2 s, Option.not_isSome_iff_eq_none]
  rw [createSensors, mapM_eq_none_iff]
  constructor
  · rintro ⟨⟨e, s⟩, he, hnone⟩
    obtain ⟨e', he', hmap⟩ := List.mem_filterMap.mp he
    obtain ⟨s', hs', heq⟩ := Option.map_eq_some_iff.mp hmap
    cases heq
    exact ⟨e, he', by rw [hs']; rfl, (hcard e s).mp hnone⟩
  · rintro ⟨e, he, hslot, hread⟩
    obtain ⟨s, hs⟩ := Option.isSome_iff_exists.mp hslot
    exact ⟨(e, s), List.mem_filterMap.mpr ⟨e, he, by rw [hs]; rfl⟩, (hcard e s).mpr hread⟩

/-- The cards are the sensors that have a position, each at its own. -/
theorem cards_of_mapM {l : List ((String × Json) × Fin 3)} {cards : List TempCard}
    (h : l.mapM (fun e => createCard e.1.1 e.1.2 e.2) = some cards) :
    cards.map (fun c => (c.key, c.slot)) = l.map fun e => (e.1.1, e.2) := by
  induction l generalizing cards with
  | nil =>
    cases h
    rfl
  | cons e l ih =>
    rw [List.mapM_cons] at h
    obtain ⟨c, hc, h⟩ := Option.bind_eq_some_iff.mp h
    obtain ⟨cs, hcs, h⟩ := Option.bind_eq_some_iff.mp h
    cases h
    obtain ⟨hkey, hslot⟩ := createCard_eq_some hc
    rw [List.map_cons, List.map_cons, ih hcs, hkey, hslot]

theorem map_placed (sensors : List (String × Json)) :
    (placed sensors).map (fun e => (e.1.1, e.2)) =
      (sensors.map Prod.fst).filterMap fun k => (slotOf sensors k).map (k, ·) := by
  rw [placed, List.map_filterMap, List.filterMap_map]
  refine List.filterMap_congr fun e _ => ?_
  cases h : slotOf sensors e.1 <;> simp [h]

theorem length_filterMap_slot (sensors : List (String × Json)) (keys : List String) :
    (keys.filterMap fun k => (slotOf sensors k).map (k, ·)).length =
      (keys.filter fun k => (slotOf sensors k).isSome).length := by
  rw [List.length_filterMap_eq_countP, List.countP_eq_length_filter]
  simp

def reservedKey : Fin 3 → String := !["extruder", "heater_bed", "temperature_sensor chamber_temp"]

theorem eq_reservedKey {k : String} (hk : k ≠ "chamber_temp") {p : Fin 3}
    (h : reservedSlot k = some p) : k = reservedKey p := by
  simp only [reservedSlot, hk, false_or] at h
  split_ifs at h with hextruder hbed hchamber
  · exact Option.some.inj h ▸ hextruder
  · exact Option.some.inj h ▸ hbed
  · exact Option.some.inj h ▸ hchamber

section Display

variable {s : State} {conf : Json} {df : String} {sensors : List (String × Json)}

theorem shows_of_getDisplaySensors (h : s.getDisplaySensors conf df = some sensors) :
    ∃ names user, s.objectNames = some names ∧
      State.Shows State.sensorClass State.sensorClass names user sensors := by
  have hdisplays := State.displays_sensors s conf df
  unfold State.Displays at hdisplays
  split at hdisplays
  · rename_i names user hnames _
    obtain ⟨display, hdisplay, hshows⟩ := hdisplays
    rw [h] at hdisplay
    cases hdisplay
    exact ⟨names, user, hnames, hshows⟩
  · rw [h] at hdisplays
    cases hdisplays

theorem nodup_keys (h : s.getDisplaySensors conf df = some sensors) :
    (sensors.map Prod.fst).Nodup := by
  obtain ⟨names, user, -, hshows⟩ := shows_of_getDisplaySensors h
  exact (List.pairwise_map.mpr hshows.sorted).imp fun hlt => ne_of_lt hlt

/-- Of the two names of the chamber only one is that of an object on display. -/
theorem reservedSlot_injective (h : s.getDisplaySensors conf df = some sensors) :
    ∀ k ∈ sensors.map Prod.fst, ∀ l ∈ sensors.map Prod.fst, ∀ p,
      reservedSlot k = some p → reservedSlot l = some p → k = l := by
  obtain ⟨names, user, -, hshows⟩ := shows_of_getDisplaySensors h
  have hchamber : ∀ k ∈ sensors.map Prod.fst, k ≠ "chamber_temp" := by
    rintro k hk rfl
    obtain ⟨e, he, hkey⟩ := List.mem_map.mp hk
    have hclass := (hshows.exist e he).2
    rw [hkey] at hclass
    exact absurd hclass (by decide)
  intro k hk l hl p hkp hlp
  exact (eq_reservedKey (hchamber k hk) hkp).trans (eq_reservedKey (hchamber l hl) hlp).symm

end Display

/-- Each position has one sensor at most, the reserved ones theirs, and every other sensor one
that is left when its turn comes; cards are made for all of them, if they can be. -/
theorem create_sensors_slots (s : State) (conf : Json) (df : String)
    (sensors : List (String × Json)) (h : s.getDisplaySensors conf df = some sensors) :
    (∀ k l p, slotOf sensors k = some p → slotOf sensors l = some p → k = l) ∧
      ("extruder" ∈ sensors.map Prod.fst → slotOf sensors "extruder" = some 0) ∧
      ("heater_bed" ∈ sensors.map Prod.fst → slotOf sensors "heater_bed" = some 1) ∧
      ("temperature_sensor chamber_temp" ∈ sensors.map Prod.fst →
        slotOf sensors "temperature_sensor chamber_temp" = some 2) ∧
      (∀ pre k post, sensors.map Prod.fst = pre ++ k :: post → reservedSlot k = none →
        ((slotOf sensors k).isSome ↔ ∃ p, ∀ l ∈ sensors.map Prod.fst,
          (reservedSlot l).isSome ∨ l ∈ pre → slotOf sensors l ≠ some p)) ∧
      (createSensors sensors = none ↔
        ∃ e ∈ sensors, (slotOf sensors e.1).isSome ∧ ¬ Readable e.2) ∧
      ∀ cards, createSensors sensors = some cards →
        cards.map (fun c => (c.key, c.slot)) =
            (sensors.map Prod.fst).filterMap (fun k => (slotOf sensors k).map (k, ·)) ∧
          cards.length = min 3 sensors.length := by
  have hnodup := nodup_keys h
  have hfixed := reservedSlot_injective h
  refine ⟨fun k l p => Slots.slot_injective hnodup hfixed,
    fun hmem => Slots.slot_of_fixed hmem (by decide),
    fun hmem => Slots.slot_of_fixed hmem (by decide),
    fun hmem => Slots.slot_of_fixed hmem (by decide),
    fun pre k post hkeys => Slots.slot_isSome_iff hnodup hfixed hkeys,
    createSensors_eq_none_iff sensors, fun cards hcards => ?_⟩
  have hmap := cards_of_mapM hcards
  rw [map_placed] at hmap
  refine ⟨hmap, ?_⟩
  have hlength := congrArg List.length hmap
  rw [List.length_map, length_filterMap_slot] at hlength
  rw [hlength]
  exact (Slots.length_filter_slot hnodup hfixed).trans (by rw [List.length_map])

def oneExtruder : State where
  entries := [("printer_objs", .obj [("objects", .arr [.str "extruder"])])]
  sorted := by decide

/-- A printer that is configured with one sensor. -/
def confWith (sensor : Json) : Json :=
  .obj [("printers", .obj [("k1", .obj [("monitored_sensors", .arr [sensor])])])]

theorem create_sensors_slots_extruder :
    ∃ e : Json, oneExtruder.getDisplaySensors .null "/printers/k1/" = some [("extruder", e)] ∧
      slotOf [("extruder", e)] "extruder" = some 0 :=
  ⟨_, rfl, (create_sensors_slots oneExtruder .null "/printers/k1/" _ rfl).2.1 (by decide)⟩

/-- An entry with nothing but its id is put on display, and no card can be made for it. -/
theorem entry_without_card : ¬ ∀ (s : State) (conf : Json) (df : String)
    (sensors : List (String × Json)), s.getDisplaySensors conf df = some sensors →
      ∃ cards, createSensors sensors = some cards ∧ cards.length = min 3 sensors.length := by
  intro h
  obtain ⟨cards, hcards, -⟩ := h oneExtruder (confWith (.obj [("id", .str "extruder")]))
    "/printers/k1/" [("extruder", .obj [("id", .str "extruder")])] (by decide)
  have hnone : createSensors [("extruder", .obj [("id", .str "extruder")])] = none := by
    decide
  rw [hnone] at hcards
  cases hcards

end PowerScreen.MainPanel
