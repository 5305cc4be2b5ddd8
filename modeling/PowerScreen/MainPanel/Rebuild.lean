import PowerScreen.MainPanel.Numpad

/-! # Cards that come and go under the numpad

Every connection destroys the temperature cards and builds new ones, whether the numpad is
shown or not. A card is followed by a number that is never given again.
-/
namespace PowerScreen.MainPanel
open Library Library.Run

/-- The cards that exist, and the callbacks that have been run: into which card, and whether
it existed. -/
structure Home where
  running : Bool := true
  next : ℕ := 0
  cards : List (ℕ × TempCard) := []
  numpad : Numpad ℕ := {}
  calls : List (ℕ × Bool) := []

namespace Home

inductive Event where
  | connected (sensors : List (String × Json))
  | tap (ref : ℕ)
  | key (c : Char)
  | backspace
  | close
  | cancel
  | ready

def isLiving (h : Home) (ref : ℕ) : Bool := (h.cards.lookup ref).isSome

/-- Nothing is done to the numpad; an exception ends the program. -/
def createSensors (h : Home) (sensors : List (String × Json)) : Home :=
  match MainPanel.createSensors sensors with
  | none => { h with running := false }
  | some cards =>
    { h with
      next := h.next + cards.length
      cards := (cards.zipIdx h.next).map Prod.swap }

def handleEdit (h : Home) (ref : ℕ) : Home :=
  match h.cards.lookup ref with
  | none => h
  | some c =>
    if c.controllable then { h with numpad := (h.numpad.setCallback ref).foregroundReset } else h

variable {V : Type*} (stod : List Char → Option V)

def handleReady (h : Home) : Home :=
  match h.numpad.ready stod with
  | none => { h with running := false }
  | some (np, called) =>
    { h with
      numpad := np
      calls := h.calls ++ called.toList.map fun call => (call.1, h.isLiving call.1) }

/-- The numpad can be used only while it is shown. -/
def step (h : Home) (e : Event) : Home :=
  if h.running then
    match e with
    | .connected sensors => h.createSensors sensors
    | .tap ref => h.handleEdit ref
    | .key c => if h.numpad.hidden then h else { h with numpad := h.numpad.type [c] }
    | .backspace => if h.numpad.hidden then h else { h with numpad := h.numpad.backspace }
    | .close => if h.numpad.hidden then h else { h with numpad := h.numpad.close }
    | .cancel => if h.numpad.hidden then h else { h with numpad := h.numpad.cancel }
    | .ready => if h.numpad.hidden then h else h.handleReady stod
  else h

/-- A shown numpad has the callback of a card that exists, and no other was ever run. -/
structure Living (h : Home) : Prop where
  callback : h.running → h.numpad.hidden = false →
    ∃ ref, h.numpad.readyCb = some ref ∧ h.isLiving ref
  calls : ∀ call ∈ h.calls, call.2

/-- The cards are built anew only while the numpad is hidden. -/
def RebuiltHidden (h : Home) : Event → Prop
  | .connected sensors =>
    h.running → (MainPanel.createSensors sensors).isSome → h.numpad.hidden
  | _ => True

/-- Numbers that have been given are below the next one. -/
structure Numbered (h : Home) : Prop where
  cards : ∀ ref, h.isLiving ref → ref < h.next
  callback : ∀ ref, h.numpad.readyCb = some ref → ref < h.next

end Home

open Home

theorem Home.ready_cases {V C : Type*} {stod : List Char → Option V} {np np' : Numpad C}
    {called : Option (C × V)} (h : np.ready stod = some (np', called)) :
    np' = np.close ∧ ∀ call, called = some call → np.readyCb = some call.1 := by
  unfold Numpad.ready at h
  split_ifs at h with htext
  · cases h
    exact ⟨rfl, fun call hcall => by cases hcall⟩
  · obtain ⟨v, -, h⟩ := Option.map_eq_some_iff.mp h
    cases h
    refine ⟨rfl, fun call hcall => ?_⟩
    obtain ⟨ref, href, rfl⟩ := Option.map_eq_some_iff.mp hcall
    exact href

variable {V : Type*} {stod : List Char → Option V}

/-- A step that leaves the cards and the callback; what it may run is that callback. -/
structure Home.Quiet (h h' : Home) : Prop where
  running : h'.running → h.running
  next : h'.next = h.next
  cards : h'.cards = h.cards
  hidden : h'.numpad.hidden = false → h.numpad.hidden = false
  callback : h'.numpad.readyCb = h.numpad.readyCb
  calls : ∀ call ∈ h'.calls, call ∈ h.calls ∨ h.running ∧ h.numpad.hidden = false ∧
    h.numpad.readyCb = some call.1 ∧ call.2 = h.isLiving call.1

theorem Home.Quiet.refl (h : Home) : Quiet h h :=
  ⟨id, rfl, rfl, id, rfl, fun _ hcall => Or.inl hcall⟩

theorem Home.Quiet.isLiving_eq {h h' : Home} (hq : Quiet h h') (ref : ℕ) :
    h'.isLiving ref = h.isLiving ref := by
  rw [isLiving, isLiving, hq.cards]

theorem Home.quiet_handleReady {h : Home} (hrun : h.running) (hshown : h.numpad.hidden = false) :
    Quiet h (h.handleReady stod) := by
  unfold handleReady
  split
  · exact ⟨fun hr => Bool.noConfusion hr, rfl, rfl, id, rfl, fun _ hcall => Or.inl hcall⟩
  · rename_i np called hready
    obtain ⟨rfl, hcalled⟩ := ready_cases hready
    refine ⟨id, rfl, rfl, fun hh => Bool.noConfusion hh, rfl, fun call hcall => ?_⟩
    rcases List.mem_append.mp hcall with hcall | hcall
    · exact Or.inl hcall
    · obtain ⟨run, hrun', rfl⟩ := List.mem_map.mp hcall
      exact Or.inr ⟨hrun, hshown, hcalled run (Option.mem_toList.mp hrun'), rfl⟩

/-- Only a connection builds cards, and only a tap on a card sets the callback. -/
theorem Home.step_cases (h : Home) (e : Home.Event) :
    (h.running ∧ ∃ sensors cards, e = .connected sensors ∧
        MainPanel.createSensors sensors = some cards ∧ step stod h e =
          { h with next := h.next + cards.length, cards := (cards.zipIdx h.next).map Prod.swap }) ∨
      RebuiltHidden h e ∧ ((∃ ref, h.isLiving ref ∧ step stod h e =
          { h with numpad := (h.numpad.setCallback ref).foregroundReset }) ∨
        Quiet h (step stod h e)) := by
  unfold step
  by_cases hrun : h.running
  · rw [if_pos hrun]
    cases e with
    | connected sensors =>
      dsimp only [createSensors]
      cases hcards : MainPanel.createSensors sensors with
      | none =>
        refine Or.inr ⟨fun _ hsome => ?_, Or.inr ⟨fun hr => Bool.noConfusion hr, rfl, rfl, id, rfl,
          fun _ hcall => Or.inl hcall⟩⟩
        rw [hcards] at hsome
        cases hsome
      | some cards => exact Or.inl ⟨hrun, sensors, cards, rfl, hcards, rfl⟩
    | tap ref =>
      refine Or.inr ⟨trivial, ?_⟩
      dsimp only [handleEdit]
      cases hcard : h.cards.lookup ref with
      | none => exact Or.inr (.refl h)
      | some c =>
        dsimp only
        split_ifs
        · exact Or.inl ⟨ref, by rw [isLiving, hcard]; rfl, rfl⟩
        · exact Or.inr (.refl h)
    | ready =>
      refine Or.inr ⟨trivial, Or.inr ?_⟩
      dsimp only
      split_ifs with hhidden
      · exact .refl h
      · exact quiet_handleReady hrun (Bool.eq_false_of_not_eq_true hhidden)
    | _ =>
      refine Or.inr ⟨trivial, Or.inr ?_⟩
      dsimp only
      split_ifs with hhidden
      · exact .refl h
      · exact ⟨id, rfl, rfl, fun _ => Bool.eq_false_of_not_eq_true hhidden, rfl,
          fun _ hcall => Or.inl hcall⟩
  · rw [if_neg hrun]
    refine Or.inr ⟨?_, Or.inr (.refl h)⟩
    cases e <;> first | trivial | exact fun hr => absurd hr hrun

theorem exists_iff_of_cards (h : Home) (cards : List TempCard) (ref : ℕ) :
    ({ h with cards := (cards.zipIdx h.next).map Prod.swap } : Home).isLiving ref ↔
      h.next ≤ ref ∧ ref < h.next + cards.length := by
  rw [isLiving, Assoc.isSome_lookup_iff, List.map_map]
  have hkeys : (cards.zipIdx h.next).map (Prod.fst ∘ Prod.swap) =
      List.range' h.next cards.length := List.zipIdx_map_snd h.next cards
  rw [hkeys, List.mem_range'_1]

theorem numbered_step {h : Home} (hn : Numbered h) (e : Home.Event) : Numbered (step stod h e) := by
  rcases h.step_cases e with ⟨-, sensors, cards, -, -, heq⟩ | ⟨-, ⟨ref, href, heq⟩ | hq⟩
  · rw [heq]
    refine ⟨fun ref href => ((exists_iff_of_cards h cards ref).mp href).2, fun ref href => ?_⟩
    exact (hn.callback ref href).trans_le (Nat.le_add_right _ _)
  · rw [heq]
    refine ⟨hn.cards, fun r hr => ?_⟩
    cases hr
    exact hn.cards ref href
  · constructor
    · intro ref href
      rw [hq.isLiving_eq] at href
      rw [hq.next]
      exact hn.cards ref href
    · intro ref href
      rw [hq.callback] at href
      rw [hq.next]
      exact hn.callback ref href

/-- A step keeps the callback living exactly when it does not build cards under the numpad. -/
theorem living_step_iff {h : Home} (hn : Numbered h) (hl : Living h) (e : Home.Event) :
    Living (step stod h e) ↔ RebuiltHidden h e := by
  rcases h.step_cases e with
    ⟨hrun, sensors, cards, rfl, hcards, heq⟩ | ⟨hrebuilt, ⟨ref, href, heq⟩ | hq⟩
  · rw [heq]
    constructor
    · intro h' _ _
      by_contra hshown
      obtain ⟨ref, hcb, href⟩ := h'.callback hrun (Bool.eq_false_of_not_eq_true hshown)
      have hold := hn.callback ref hcb
      have hnew := ((exists_iff_of_cards h cards ref).mp href).1
      omega
    · intro hhidden
      have hhidden := hhidden hrun (by rw [hcards]; rfl)
      exact ⟨fun _ hshown => Bool.noConfusion (hshown.symm.trans hhidden), hl.calls⟩
  · rw [heq]
    exact iff_of_true ⟨fun _ _ => ⟨ref, rfl, href⟩, hl.calls⟩ hrebuilt
  · refine iff_of_true ⟨fun hrun hshown => ?_, fun call hcall => ?_⟩ hrebuilt
    · obtain ⟨ref, hcb, hexists⟩ := hl.callback (hq.running hrun) (hq.hidden hshown)
      exact ⟨ref, hq.callback.trans hcb, (hq.isLiving_eq ref).trans hexists⟩
    · rcases hq.calls call hcall with hold | ⟨hrun, hshown, hcb, halive⟩
      · exact hl.calls call hold
      · obtain ⟨ref, href, hexists⟩ := hl.callback hrun hshown
        rw [hcb] at href
        rw [halive, Option.some.inj href]
        exact hexists

theorem living_start : Living {} :=
  ⟨fun _ hshown => Bool.noConfusion hshown, fun _ hcall => by cases hcall⟩

theorem numbered_start : Numbered {} :=
  ⟨fun _ href => Bool.noConfusion href, fun _ href => by cases href⟩

/-- A shown numpad always has the callback of an existing card exactly in the runs that build
no cards while it is shown. -/
theorem numpad_callback_living_iff (es : List Home.Event) :
    Throughout (step stod) Living {} es ↔ EachStep (step stod) RebuiltHidden {} es :=
  throughout_iff_eachStep_of (B := fun h _ => Numbered h)
    (fun _ e hn hl => living_step_iff hn hl e) living_start
    (eachStep_of_invariant (I := Numbered) (fun _ e hn => numbered_step hn e) numbered_start es)

def extruderSensors : List (String × Json) :=
  [("extruder", .obj [("controllable", .bool true), ("display_name", .str "Extruder")])]

/-- A card is tapped, the connection is lost and made again, and the temperature confirmed:
the callback of a card that is gone is run. -/
theorem numpad_outlives_card : ¬ ∀ es : List Home.Event,
    Throughout (step (fun text => some text)) Living {} es := by
  intro h
  have hrun := throughout_iff_prefix.mp (h [.connected extruderSensors, .tap 0,
    .connected extruderSensors, .key '9', .ready]) _ List.prefix_rfl
  exact absurd (hrun.calls (0, false) (by decide)) Bool.false_ne_true

end PowerScreen.MainPanel
