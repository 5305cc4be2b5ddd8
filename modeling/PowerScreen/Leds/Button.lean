import PowerScreen.Leds.Agreement

/-! # The button of the lamps

The button is lit in every state exactly when a lamp is on, and what it shows decides what a
tap on it sends.
-/
namespace PowerScreen.Leds
open Library Library.Run

namespace Panel

def Shows (p : Panel) : Prop := p.shown = p.anyOn

theorem shows_notifyState (p : Panel) : p.notifyState.Shows := rfl

theorem consumeLed_of_not_found {st : Status} {t : ℚ} {led : String × Bool}
    {led' : (String × Bool) × Bool} (h : consumeLed st t led = some led') (hnot : led'.2 = false) :
    led'.1 = led := by
  obtain ⟨v, -, h⟩ := Option.bind_eq_some_iff.mp h
  obtain ⟨value, -, h⟩ := Option.bind_eq_some_iff.mp h
  obtain ⟨c, -, h⟩ := Option.bind_eq_some_iff.mp h
  obtain ⟨color, -, h⟩ := Option.bind_eq_some_iff.mp h
  cases h
  cases value <;> cases color <;> first | rfl | cases hnot

theorem leds_of_not_found {st : Status} {t : ℚ} {leds : List (String × Bool)}
    {read : List ((String × Bool) × Bool)} (h : leds.mapM (consumeLed st t) = some read)
    (hnot : read.any Prod.snd = false) : read.map Prod.fst = leds := by
  induction leds generalizing read with
  | nil =>
    cases h
    rfl
  | cons led leds ih =>
    rw [List.mapM_cons] at h
    obtain ⟨led', hled, h⟩ := Option.bind_eq_some_iff.mp h
    obtain ⟨rest, hrest, h⟩ := Option.bind_eq_some_iff.mp h
    cases h
    rw [List.any_cons, Bool.or_eq_false_iff] at hnot
    rw [List.map_cons, consumeLed_of_not_found hled hnot.1, ih hrest hnot.2]

/-- Without news about a lamp the button is not set, and need not be. -/
theorem Shows.consume {p q : Panel} {st : Status} {t : ℚ} (h : p.Shows)
    (hq : p.consume st t = some q) : q.Shows := by
  obtain ⟨read, hread, hq⟩ := Option.bind_eq_some_iff.mp hq
  cases hq
  split_ifs with hfound
  · exact shows_notifyState _
  · have hleds := leds_of_not_found hread (Bool.eq_false_iff.mpr hfound)
    rw [Shows, anyOn, hleds]
    exact h

theorem shows_refresh {p q : Panel} {s : State} (hq : p.refresh s = some q) : q.Shows := by
  obtain ⟨leds, -, hq⟩ := Option.bind_eq_some_iff.mp hq
  cases hq
  exact shows_notifyState _

end Panel

namespace Lamps

theorem shows_handle {l l' : Lamps} (h : l.panel.Shows) {e : Event} (hl : l.handle e = some l') :
    l'.panel.Shows := by
  cases e with
  | connected =>
    cases hl
    exact h
  | created configured =>
    cases hl
    exact Panel.shows_notifyState _
  | report r =>
    obtain ⟨p, hp, rfl⟩ := Option.map_eq_some_iff.mp hl
    cases r with
    | subscribed st id t => exact Panel.shows_refresh hp
    | update st t => exact h.consume hp
  | toggle =>
    cases hl
    exact Panel.shows_notifyState _

theorem shows_run (s : State) (es : List Event) :
    ∀ l ∈ run step (some { store := s }) es, l.panel.Shows := by
  refine run_of_step (P := fun o : Option Lamps => ∀ l ∈ o, l.panel.Shows)
    (fun o e ho l hl => ?_) (fun l hl => ?_) es
  · obtain ⟨l₀, hl₀, hstep⟩ := Option.bind_eq_some_iff.mp hl
    exact shows_handle (ho l₀ hl₀) hstep
  · cases hl
    rfl

/-- In every state that can be reached the button is lit iff a lamp is on; a tap sends each
lamp, once and in their order, to what the button does not show, and the button shows it then. -/
theorem toggle_of_run (s : State) (es : List Event) (l : Lamps)
    (h : run step (some { store := s }) es = some l) :
    l.panel.shown = l.panel.leds.any Prod.snd ∧
      l.handle .toggle = some
        { store := l.store
          panel := { leds := l.panel.leds.map fun led => (led.1, !l.panel.shown)
                     shown := !l.panel.shown && !l.panel.leds.isEmpty }
          sent := l.sent ++ l.panel.leds.map fun led => Panel.sendValue led.1 (!l.panel.shown) } := by
  have hshows : l.panel.Shows := shows_run s es l h
  refine ⟨hshows, ?_⟩
  have hany : (l.panel.leds.map fun led => (led.1, !l.panel.shown)).any Prod.snd =
      (!l.panel.shown && !l.panel.leds.isEmpty) := by
    cases l.panel.leds with
    | nil => simp
    | cons led leds => cases hs : l.panel.shown <;> simp [Function.comp_def]
  rw [handle, Panel.toggle, ← hshows, Panel.notifyState, Panel.anyOn, hany]

theorem sorted_no_entries : (Json.obj []).Sorted := by decide

def lit : Lamps where
  store := ⟨[], sorted_no_entries⟩
  panel := { leds := [("output_pin LED", true)], shown := true }
  sent := ["SET_PIN PIN=LED VALUE=1"]

theorem toggle_of_run_lit : (lit.handle .toggle).map Lamps.sent =
    some ["SET_PIN PIN=LED VALUE=1", "SET_PIN PIN=LED VALUE=0"] := by
  rw [(toggle_of_run ⟨[], sorted_no_entries⟩ [.created [("output_pin LED", .null)], .toggle] lit rfl).2]
  rfl

/-- On a connection on which nothing is switched from here, reading the store again changes
nothing after any report: the notifications and the store tell the same of every lamp. -/
theorem refresh_same_throughout (l : Lamps) (configured : List (String × Json)) (rs : List Report)
    (hlamps : ∀ e ∈ configured, IsLamp e.1) (hr : ∀ r ∈ rs, Reports r) :
    Throughout step (fun o => ∀ l' ∈ o, l'.panel.refresh l'.store = some l'.panel)
      (some (l.connect configured)) (rs.map Event.report) := by
  have hrun : ∀ es, es <+: rs.map Event.report → ∀ l' ∈ run step (some (l.connect configured)) es,
      l'.Follows ∧ l'.panel.Shows := by
    intro es hes
    have hreports : ∀ e ∈ es, ∃ r, e = Event.report r ∧ Reports r := fun e he => by
      obtain ⟨r, hmem, rfl⟩ := List.mem_map.mp (hes.subset he)
      exact ⟨r, rfl, hr r hmem⟩
    refine run_of_forall (I := fun o : Option Lamps => ∀ l' ∈ o, l'.Follows ∧ l'.panel.Shows)
      (fun o e he ho l' hl' => ?_) (fun l' hl' => ?_) hreports
    · obtain ⟨r, rfl, hre⟩ := he
      obtain ⟨l₀, hl₀, hstep⟩ := Option.bind_eq_some_iff.mp hl'
      obtain ⟨hfollows, hshows⟩ := ho l₀ hl₀
      exact ⟨hfollows.receive hre hstep, shows_handle hshows hstep⟩
    · cases hl'
      exact ⟨follows_connect l hlamps, Panel.shows_notifyState _⟩
  refine throughout_iff_prefix.mpr fun es hes l' hl' => ?_
  obtain ⟨hfollows, hshows⟩ := hrun es hes l' hl'
  rw [hfollows.refresh, Panel.notifyState, ← hshows]

/-- A pin that is switched at the printer. -/
def pinValue (n : ℤ) : Status where
  objects := [("output_pin LED", [("value", .num (.int n))])]
  keys := List.pairwise_singleton _ _
  fields o ho := by
    rw [List.mem_singleton.mp ho]
    exact Json.sorted_obj_iff.mpr ⟨List.pairwise_singleton _ _, by simp [Json.Sorted]⟩

theorem reports_pinValue (n : ℤ) {r : Report} (hr : r.status = pinValue n) : Reports r := by
  refine fun o => ⟨fun _ => ?_, fun ho => ?_⟩
  · rw [hr, Status.field?, pinValue, Assoc.lookup_cons]
    split_ifs <;> rfl
  · rw [hr, Status.field?, pinValue, Assoc.lookup_cons]
    split_ifs with hpin
    · exact absurd (hpin ▸ ho) (by decide)
    · rfl

theorem refresh_same_throughout_pin :
    Throughout step (fun o => ∀ l' ∈ o, l'.panel.refresh l'.store = some l'.panel)
      (some (lit.connect [("output_pin LED", .null)]))
      [.report (.subscribed (pinValue 0) 1 0), .report (.update (pinValue 1) 2)] := by
  refine refresh_same_throughout lit [("output_pin LED", .null)]
    [.subscribed (pinValue 0) 1 0, .update (pinValue 1) 2] (fun e he => ?_) fun r hr => ?_
  · rw [List.mem_singleton.mp he]
    exact ⟨by decide, by decide⟩
  · simp only [List.mem_cons, List.not_mem_nil, or_false] at hr
    rcases hr with rfl | rfl
    · exact reports_pinValue 0 rfl
    · exact reports_pinValue 1 rfl

end Lamps

end PowerScreen.Leds
