import PowerScreen.Leds.Panel

/-! # The lamps by the reports and by the store

A notification changes the flags of the lamps it mentions; a reading of the store sets all of
them. As pins report a value and lamps of the class `led` a color, the two agree: in a
connection on which nothing was switched from here, a reading changes nothing.
-/
namespace PowerScreen.Leds
open Library Library.Json Library.Run

/-- A lamp that can be on display. -/
structure IsLamp (id : String) : Prop where
  name : IsName id
  cls : State.ledClass id

/-- A pin has no color and a lamp of the class `led` no value. -/
def Reports (r : Report) : Prop :=
  ∀ o, (State.isOutputPin o → r.status.field? o "color_data" = none) ∧
    (State.isLed o → r.status.field? o "value" = none)

/-- The same for the store. -/
structure Stored (s : State) : Prop where
  records : s.Records
  pin : ∀ o, State.isOutputPin o → s.field o "color_data" = .null
  led : ∀ o, State.isLed o → s.field o "value" = .null

theorem stored_reset (s : State) : Stored s.reset where
  records := s.records_reset
  pin _ _ := rfl
  led _ _ := rfl

theorem Stored.receive {s : State} (h : Stored s) {r : Report} (hr : Reports r) :
    Stored ((s.receive r).getD s) where
  records := h.records.receive r
  pin o ho := by rw [State.field_receive, (hr o).1 ho, h.pin o ho]
  led o ho := by rw [State.field_receive, (hr o).2 ho, h.led o ho]

theorem not_isLed_of_isOutputPin {id : String} (h : State.isOutputPin id) :
    State.isLed id = false := by
  rw [State.isOutputPin, State.hasPrefix, decide_eq_true_eq] at h
  obtain ⟨rest, hrest⟩ := h
  rw [State.isLed, State.hasPrefix, decide_eq_false_iff_not, ← hrest]
  rintro ⟨rest', hrest'⟩
  simp at hrest'

/-- The one field a lamp is read from, and how it is read. -/
def reading (id : String) : String × (Json → Option (Option Bool)) :=
  if State.isOutputPin id then ("value", Json.optional positive) else ("color_data", white)

theorem isLed_of_not_isOutputPin {id : String} (h : IsLamp id) (hpin : ¬ State.isOutputPin id) :
    State.isLed id := by
  have hcls := h.cls
  rw [State.ledClass, Bool.or_eq_true] at hcls
  exact hcls.resolve_right hpin

theorem reading_null (id : String) : (reading id).2 .null = some none := by
  unfold reading
  split_ifs <;> rfl

theorem white_mergePatch {old new : Json} {a b : Option Bool} (hold : white old = some a)
    (hnew : white new = some b) : white (Json.mergePatch old new) = some b := by
  cases new with
  | obj ms =>
    cases ms with
    | nil =>
      cases hnew
      cases old with
      | obj ns =>
        cases ns with
        | nil => rfl
        | cons n ns => simp [white, size, elemAt] at hold
      | _ => rfl
    | cons m ms => simp [white, size, elemAt] at hnew
  | _ => exact hnew

/-- A value stored in place of another one shows what it shows alone. -/
theorem reading_mergePatch {id : String} {old new : Json} {a b : Option Bool}
    (hold : (reading id).2 old = some a) (hnew : (reading id).2 new = some b) :
    (reading id).2 (Json.mergePatch old new) = some b := by
  unfold reading at *
  split_ifs at * with hpin
  · cases new with
    | obj ms => cases hnew
    | _ => exact hnew
  · exact white_mergePatch hold hnew

theorem refreshLed_eq {s : State} (hs : Stored s) {led : String × Bool} (h : IsLamp led.1) :
    Panel.refreshLed s led =
      ((reading led.1).2 (s.field led.1 (reading led.1).1)).map fun on =>
        (led.1, on.getD led.2) := by
  rw [Panel.refreshLed, hs.records.readField_eq h.name (by decide),
    hs.records.readField_eq h.name (by decide), reading]
  split_ifs with hpin
  · have hwhite : white .null = some none := rfl
    rw [hs.pin _ hpin]
    cases hv : Json.optional positive (s.field led.1 "value") with
    | none => simp [hv]
    | some value => cases value <;> simp [hv, hwhite]
  · rw [hs.led _ (isLed_of_not_isOutputPin h hpin)]
    cases hc : white (s.field led.1 "color_data") <;> simp [Json.optional, hc]

theorem consumeLed_eq {st : Status} {t : ℚ} (hr : Reports (.update st t)) {led : String × Bool}
    (h : IsLamp led.1) : Panel.consumeLed st t led =
      ((reading led.1).2 ((st.field? led.1 (reading led.1).1).getD .null)).map fun on =>
        ((led.1, on.getD led.2), on.isSome) := by
  rw [Panel.consumeLed, st.read_eq t h.name (by decide), st.read_eq t h.name (by decide), reading]
  split_ifs with hpin
  · have hcolor : st.field? led.1 "color_data" = none := (hr led.1).1 hpin
    have hwhite : white .null = some none := rfl
    rw [hcolor]
    cases hv : Json.optional positive ((st.field? led.1 "value").getD .null) <;> simp [hv, hwhite]
  · have hvalue : st.field? led.1 "value" = none :=
      (hr led.1).2 (isLed_of_not_isOutputPin h hpin)
    rw [hvalue]
    cases hc : white ((st.field? led.1 "color_data").getD .null) <;> simp [Json.optional, hc]

/-- A lamp that a reading leaves as it is is still left so after a notification. -/
theorem refreshLed_consumeLed {s : State} (hs : Stored s) {st : Status} {t : ℚ}
    (hr : Reports (.update st t)) {led : String × Bool} (hlamp : IsLamp led.1)
    (hled : Panel.refreshLed s led = some led) {led' : (String × Bool) × Bool}
    (h : Panel.consumeLed st t led = some led') :
    Panel.refreshLed ((s.receive (.update st t)).getD s) led'.1 = some led'.1 ∧
      led'.1.1 = led.1 := by
  rw [refreshLed_eq hs hlamp] at hled
  rw [consumeLed_eq hr hlamp] at h
  obtain ⟨on, hon, rfl⟩ := Option.map_eq_some_iff.mp h
  obtain ⟨old, hold, hsame⟩ := Option.map_eq_some_iff.mp hled
  refine ⟨(@refreshLed_eq _ (hs.receive hr) (led.1, on.getD led.2) hlamp).trans ?_, rfl⟩
  dsimp only
  rw [State.field_receive, Report.status]
  cases hfield : st.field? led.1 (reading led.1).1 with
  | none =>
    rw [hfield, Option.getD_none, reading_null] at hon
    cases hon
    exact hled
  | some v =>
    rw [hfield, Option.getD_some] at hon
    dsimp only
    split_ifs with hv
    · rw [hv, reading_null] at hon
      cases hon
      rw [reading_null]
      rfl
    · rw [reading_mergePatch hold hon, Option.map_some]
      cases on <;> rfl

theorem mapM_eq_self {α : Type*} {f : α → Option α} {l : List α} (h : ∀ a ∈ l, f a = some a) :
    l.mapM f = some l := by
  induction l with
  | nil => rfl
  | cons a l ih =>
    rw [List.mapM_cons, h a List.mem_cons_self, ih fun b hb => h b (List.mem_cons_of_mem a hb)]
    rfl

namespace Lamps

/-- A reading of the store changes no lamp. -/
structure Follows (l : Lamps) : Prop where
  stored : Stored l.store
  lamps : ∀ led ∈ l.panel.leds, IsLamp led.1
  same : ∀ led ∈ l.panel.leds, Panel.refreshLed l.store led = some led

theorem Follows.refresh {l : Lamps} (h : l.Follows) :
    l.panel.refresh l.store = some l.panel.notifyState := by
  rw [Panel.refresh, mapM_eq_self h.same]
  rfl

theorem refreshLed_again {s : State} {led led' : String × Bool} (hs : Stored s)
    (hlamp : IsLamp led.1) (h : Panel.refreshLed s led = some led') :
    Panel.refreshLed s led' = some led' ∧ led'.1 = led.1 := by
  rw [refreshLed_eq hs hlamp] at h
  obtain ⟨on, hon, rfl⟩ := Option.map_eq_some_iff.mp h
  refine ⟨(@refreshLed_eq _ hs (led.1, on.getD led.2) hlamp).trans ?_, rfl⟩
  dsimp only
  rw [hon, Option.map_some]
  cases on <;> rfl

theorem Follows.receive {l l' : Lamps} (h : l.Follows) {r : Report} (hr : Reports r)
    (hl : l.receive r = some l') : l'.Follows := by
  obtain ⟨p, hp, rfl⟩ := Option.map_eq_some_iff.mp hl
  have hs := h.stored.receive hr
  cases r with
  | subscribed st id t =>
    obtain ⟨leds, hleds, hp⟩ := Option.bind_eq_some_iff.mp hp
    cases hp
    have hall : ∀ led' ∈ leds, IsLamp led'.1 ∧ Panel.refreshLed _ led' = some led' :=
      fun led' hmem => by
        obtain ⟨led, hled, hread⟩ := exists_of_mem_mapM hleds hmem
        obtain ⟨hsame, hname⟩ := refreshLed_again hs (h.lamps led hled) hread
        exact ⟨hname ▸ h.lamps led hled, hsame⟩
    exact ⟨hs, fun led hmem => (hall led hmem).1, fun led hmem => (hall led hmem).2⟩
  | update st t =>
    obtain ⟨read, hread, hp⟩ := Option.bind_eq_some_iff.mp hp
    have hleds : p.leds = read.map Prod.fst := by
      cases hp
      split_ifs <;> rfl
    have hall : ∀ led' ∈ p.leds, IsLamp led'.1 ∧ Panel.refreshLed _ led' = some led' :=
      fun led' hmem => by
        rw [hleds] at hmem
        obtain ⟨r, hr', rfl⟩ := List.mem_map.mp hmem
        obtain ⟨led, hled, hconsume⟩ := exists_of_mem_mapM hread hr'
        obtain ⟨hsame, hname⟩ :=
          refreshLed_consumeLed h.stored hr (h.lamps led hled) (h.same led hled) hconsume
        exact ⟨hname ▸ h.lamps led hled, hsame⟩
    exact ⟨hs, fun led hmem => (hall led hmem).1, fun led hmem => (hall led hmem).2⟩

theorem mem_leds_init {configured : List (String × Json)} {p : Panel} {led : String × Bool}
    (h : led ∈ (p.init configured).leds) : led.2 = false ∧ led.1 ∈ configured.map Prod.fst := by
  have hfold : ∀ (es : List (String × Json)) (m : List (String × Bool)),
      led ∈ es.foldl (fun m e => Assoc.insertNew e.1 false m) m →
        led ∈ m ∨ led.2 = false ∧ led.1 ∈ es.map Prod.fst := by
    intro es
    induction es with
    | nil => exact fun m hm => Or.inl hm
    | cons e es ih =>
      intro m hm
      rcases ih _ hm with hm | ⟨hoff, hkey⟩
      · rcases Assoc.mem_insertNew hm with rfl | hm
        · exact Or.inr ⟨rfl, List.mem_cons_self⟩
        · exact Or.inl hm
      · exact Or.inr ⟨hoff, List.mem_cons_of_mem _ hkey⟩
  rcases hfold configured [] h with hnil | h
  · exact absurd hnil List.not_mem_nil
  · exact h

/-- A new connection, up to its first report. -/
def connect (l : Lamps) (configured : List (String × Json)) : Lamps :=
  { l with store := l.store.reset, panel := l.panel.init configured }

theorem follows_connect (l : Lamps) {configured : List (String × Json)}
    (h : ∀ e ∈ configured, IsLamp e.1) : (l.connect configured).Follows := by
  have hs := stored_reset l.store
  have hlamp : ∀ led ∈ (l.connect configured).panel.leds, IsLamp led.1 := fun led hled => by
    obtain ⟨e, he, hkey⟩ := List.mem_map.mp (mem_leds_init hled).2
    exact hkey ▸ h e he
  refine ⟨hs, hlamp, fun led hled => ?_⟩
  have hfield : l.store.reset.field led.1 (reading led.1).1 = .null := rfl
  rw [connect, refreshLed_eq hs (hlamp led hled), hfield, reading_null]
  rfl

end Lamps

end PowerScreen.Leds
