import PowerScreen.Library.JsonPointer

/-! # The filament indicator

Two sensors may report, each now and then. The panel keeps the last report of both, and the
factory's sensor decides as soon as it has reported once.
-/
namespace PowerScreen.MainPanel
open Library

/-- The factory's sensor. -/
def factorySensor : String := "filament_switch_sensor filament_sensor_2"

def extraSensor : String := "filament_switch_sensor filament_sensor"

/-- `FILAMENT_SENSORS` -/
def filamentSensors : List String := [factorySensor, extraSensor]

/-- The status of `init`, or the delta of a notification. -/
inductive FilamentMessage where
  | status (root : Json)
  | delta (root : Json)

namespace FilamentMessage

def root : FilamentMessage → Json
  | status j | delta j => j

def path : FilamentMessage → List String
  | status _ => ["result", "status"]
  | delta _ => ["params", "0"]

/-- What the pointer to a sensor leads to. -/
def detected (m : FilamentMessage) (name : String) : Option Json :=
  Json.getAt (m.path ++ [name, "filament_detected"]) m.root

/-- What a message reports of a sensor. -/
def report (m : FilamentMessage) (name : String) : Option Bool := (m.detected name).bind Json.bool?

/-- Only a boolean is a report. -/
def note (m : FilamentMessage) (st : List (String × Bool)) (name : String) :
    Option (List (String × Bool)) :=
  (m.detected name).map fun v =>
    match v.bool? with
    | some b => Assoc.insert name b st
    | none => st

/-- The objects of the sensors are objects. -/
def WellFormed (m : FilamentMessage) : Prop := ∃ ms, Json.getAt m.path m.root = some (.obj ms) ∧
  ∀ name ∈ filamentSensors, ∀ v, ms.lookup name = some v → v = .null ∨ v.isObject

end FilamentMessage

/-- The part of the panel that the sensors decide. -/
structure FilamentPanel where
  filamentState : List (String × Bool) := []
  indicator : Bool := false

/-- The first sensor that has reported decides. -/
def FilamentPanel.updateFilamentState (p : FilamentPanel) (m : FilamentMessage) :
    Option FilamentPanel :=
  (filamentSensors.foldlM m.note p.filamentState).map fun st =>
    ⟨st, (filamentSensors.findSome? fun name => st.lookup name).getD false⟩

def deliver (p : FilamentPanel) (ms : List FilamentMessage) : Option FilamentPanel :=
  ms.foldlM FilamentPanel.updateFilamentState p

/-- The last report of a sensor. -/
def lastReport (ms : List FilamentMessage) (name : String) : Option Bool :=
  ms.foldl (fun last m => (m.report name).or last) none

theorem lookup_note {m : FilamentMessage} {st st' : List (String × Bool)} {name : String}
    (h : m.note st name = some st') (n : String) :
    st'.lookup n = if n = name then (m.report name).or (st.lookup n) else st.lookup n := by
  obtain ⟨v, hv, rfl⟩ := Option.map_eq_some_iff.mp h
  rw [FilamentMessage.report, hv, Option.bind_some]
  cases v.bool? with
  | none => simp
  | some b => rw [Assoc.lookup_insert]; rfl

/-- After a message the state holds what it reports, and what was known of the other sensors. -/
theorem lookup_foldlM_note {m : FilamentMessage} {names : List String}
    {st st' : List (String × Bool)} (h : names.foldlM m.note st = some st') (n : String) :
    st'.lookup n = if n ∈ names then (m.report n).or (st.lookup n) else st.lookup n := by
  induction names generalizing st with
  | nil =>
    obtain rfl := Option.some.inj h
    rfl
  | cons name names ih =>
    rw [List.foldlM_cons] at h
    obtain ⟨st₁, hst₁, h⟩ := Option.bind_eq_some_iff.mp h
    rw [ih h, lookup_note hst₁]
    by_cases hn : n = name
    · subst hn
      cases m.report n <;> simp
    · simp [hn]

/-- The sensors that count are told apart, and the indicator is what the first of them reported. -/
theorem state_deliver {p q : FilamentPanel} {ms : List FilamentMessage}
    (hp : p.indicator =
      (filamentSensors.findSome? fun name => p.filamentState.lookup name).getD false)
    (h : deliver p ms = some q) :
    q.indicator = (filamentSensors.findSome? fun name => q.filamentState.lookup name).getD false ∧
      ∀ name ∈ filamentSensors, q.filamentState.lookup name =
        ms.foldl (fun last m => (m.report name).or last) (p.filamentState.lookup name) := by
  induction ms generalizing p with
  | nil =>
    obtain rfl := Option.some.inj h
    exact ⟨hp, fun _ _ => rfl⟩
  | cons m ms ih =>
    rw [deliver, List.foldlM_cons] at h
    obtain ⟨p₁, hp₁, h⟩ := Option.bind_eq_some_iff.mp h
    obtain ⟨st, hst, rfl⟩ := Option.map_eq_some_iff.mp hp₁
    obtain ⟨hind, hstate⟩ := ih rfl h
    refine ⟨hind, fun name hname => ?_⟩
    rw [hstate name hname, List.foldl_cons, lookup_foldlM_note hst, if_pos hname]

theorem isSome_foldlM {α β : Type*} {f : β → α → Option β} {l : List α}
    (h : ∀ a ∈ l, ∀ b, (f b a).isSome) (b : β) : (l.foldlM f b).isSome := by
  induction l generalizing b with
  | nil => rfl
  | cons a l ih =>
    obtain ⟨c, hc⟩ := Option.isSome_iff_exists.mp (h a List.mem_cons_self b)
    rw [List.foldlM_cons, hc]
    exact ih (fun a' ha' => h a' (List.mem_cons_of_mem a ha')) c

theorem isSome_detected {m : FilamentMessage} (h : m.WellFormed) {name : String}
    (hname : name ∈ filamentSensors) : (m.detected name).isSome := by
  obtain ⟨ms, hms, hsensor⟩ := h
  rw [FilamentMessage.detected, Json.getAt_append, hms, Option.bind_some, Json.getAt_cons_obj]
  have hleaf (fs : List (String × Json)) :
      (Json.getAt ["filament_detected"] (.obj fs)).isSome := rfl
  cases hv : ms.lookup name with
  | none => exact hleaf []
  | some v =>
    rcases hsensor name hname v hv with rfl | hobj
    · exact hleaf []
    · cases v with
      | obj fs => exact hleaf fs
      | _ => cases hobj

/-- Statuses as they are sent are read to their end. -/
theorem isSome_deliver {ms : List FilamentMessage} (h : ∀ m ∈ ms, m.WellFormed)
    (p : FilamentPanel) : (deliver p ms).isSome := by
  refine isSome_foldlM (fun m hm q => ?_) p
  have hnotes : (filamentSensors.foldlM m.note q.filamentState).isSome :=
    isSome_foldlM (fun name hname st => Option.isSome_map.trans (isSome_detected (h m hm) hname)) _
  rwa [FilamentPanel.updateFilamentState, Option.isSome_map]

/-- After every sequence of messages the indicator is on iff the factory's sensor last reported
filament, or has never reported and the other one last reported it. -/
theorem indicator_iff (ms : List FilamentMessage) :
    (∀ p, deliver {} ms = some p → (p.indicator = true ↔
      lastReport ms factorySensor = some true ∨
        lastReport ms factorySensor = none ∧ lastReport ms extraSensor = some true)) ∧
    ((∀ m ∈ ms, m.WellFormed) → (deliver {} ms).isSome) := by
  refine ⟨fun p hp => ?_, fun h => isSome_deliver h {}⟩
  obtain ⟨hind, hstate⟩ := state_deliver (p := {}) rfl hp
  have hlast (name : String) (hname : name ∈ filamentSensors) :
      p.filamentState.lookup name = lastReport ms name := hstate name hname
  rw [hind, filamentSensors, List.findSome?_cons, List.findSome?_cons, List.findSome?_nil,
    hlast factorySensor (by decide), hlast extraSensor (by decide)]
  rcases lastReport ms factorySensor with _ | _ | _ <;>
    rcases lastReport ms extraSensor with _ | _ | _ <;> decide

/-- The other sensor counts until the factory's sensor reports. -/
example : (deliver {} [.status (.obj []), .delta (.obj [("params", .arr [.obj
    [(extraSensor, .obj [("filament_detected", .bool true)])]])])]).map FilamentPanel.indicator =
      some true := by decide

end PowerScreen.MainPanel
