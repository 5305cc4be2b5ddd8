import PowerScreen.FineTune.Panel
import PowerScreen.Library.Run

/-! # The sum of the steps tapped

Every tap commands an absolute value. A session follows the value last commanded on each
card beside the one that the steps tapped add up to.
-/
namespace PowerScreen.FineTune
open Library.Run

/-- The scripts sent run in order; a report tells the effect of the first of them that has
not been reported yet. -/
inductive Event where
  | zoffset (idx : Fin 4)
  | multiplier (idx : Fin 4)
  | tap (m : Metric) (btn : Button)
  | report
deriving DecidableEq

structure Session where
  panel : Panel
  inFlight : List Script
  commanded : Metric → Option ℚ
  /-- Where the card started, plus its steps since; Reset starts anew. -/
  ideal : Metric → Option ℚ

namespace Session

/-- No command has been sent; the cards start from what is reported. -/
def start (p : Panel) : Session :=
  { panel := p
    inFlight := []
    commanded := fun m => (p.reported m).map (· * m.scale)
    ideal := fun m => (p.reported m).map (· * m.scale) }

def send (s : Session) : Option Script → Session
  | none => s
  | some c =>
    { s with
      inFlight := s.inFlight ++ [c]
      commanded := Function.update s.commanded c.metric (some c.value) }

/-- The clamped sum goes on by a step. -/
def count (s : Session) (m : Metric) (btn : Button) : Option ℚ :=
  if btn = .reset then (s.panel.resetValue m).or (s.ideal m)
  else (s.ideal m).map fun v => max m.minimum (v + s.panel.signedStep m btn)

def step (s : Session) : Event → Session
  | .zoffset idx => { s with panel := { s.panel with zoffsetIdx := idx } }
  | .multiplier idx => { s with panel := { s.panel with multiplierIdx := idx } }
  | .tap m btn =>
    { s.send (s.panel.handle m btn) with ideal := Function.update s.ideal m (s.count m btn) }
  | .report =>
    match s.inFlight with
    | [] => s
    | c :: rest =>
      { s with
        panel :=
          { s.panel with reported := Function.update s.panel.reported c.metric (some c.effect) }
        inFlight := rest }

/-- No tap is lost: what was last commanded on each card is the sum of its steps. -/
def Accumulates (s : Session) : Prop := ∀ m, s.commanded m = s.ideal m

end Session

/-- A step `d` on the value `r` reported does what it does on the value `c` last commanded:
the report is up to date, to the whole percent, or both end at the minimum. -/
def Metric.UpToDate (m : Metric) (r c d : ℚ) : Prop :=
  match m with
  | .pressureAdvance => r = c ∨ r + d ≤ 0 ∧ c + d ≤ 0
  | .speed => (∃ n : ℤ, c = n ∧ n ≤ r * 100 ∧ r * 100 < n + 1) ∨ r * 100 + d < 2 ∧ c + d ≤ 1
  | .flow => (∃ n : ℤ, c = n ∧ n ≤ r * 100 ∧ r * 100 < n + 1) ∨ r * 100 + d < 2 ∧ c + d ≤ 1

namespace Session

/-- A tap on + or - finds the value last commanded reported. Without a report nothing is
sent, which is right only where the value is to stay at the minimum. -/
def Reported (s : Session) : Event → Prop
  | .tap m btn =>
    btn ≠ .reset →
      match s.panel.reported m, s.commanded m with
      | none, none => True
      | none, some c => c = m.minimum ∧ s.panel.signedStep m btn < 0
      | some r, some c => m.UpToDate r c (s.panel.signedStep m btn)
      | some _, none => False
  | _ => True

end Session

theorem max_zero_add_eq_iff (r c d : ℚ) :
    max 0 (r + d) = max 0 (c + d) ↔ r = c ∨ r + d ≤ 0 ∧ c + d ≤ 0 := by
  constructor
  · intro h
    rcases le_total (r + d) 0 with hr | hr <;> rcases le_total (c + d) 0 with hc | hc
    · exact Or.inr ⟨hr, hc⟩
    · rw [max_eq_left hr, max_eq_right hc] at h
      exact Or.inr ⟨hr, h.ge⟩
    · rw [max_eq_right hr, max_eq_left hc] at h
      exact Or.inr ⟨h.le, hc⟩
    · rw [max_eq_right hr, max_eq_right hc] at h
      exact Or.inl (add_right_cancel h)
  · rintro (rfl | ⟨hr, hc⟩)
    · rfl
    · rw [max_eq_left hr, max_eq_left hc]

/-- Above the minimum of 1 the conversion rounds down. -/
theorem max_truncate (x : ℚ) : max (truncate x) 1 = max ⌊x⌋ 1 := by
  unfold truncate
  split_ifs with h
  · rfl
  · have hceil : ⌈x⌉ ≤ 0 := Int.ceil_le.mpr (by push_cast; exact (not_le.mp h).le)
    have hfloor : ⌊x⌋ ≤ 0 := (Int.floor_le_ceil x).trans hceil
    rw [max_eq_right (by omega), max_eq_right (by omega)]

theorem exists_whole_iff (x c : ℚ) :
    (∃ n : ℤ, c = n ∧ n ≤ x ∧ x < n + 1) ↔ c = ⌊x⌋ := by
  constructor
  · rintro ⟨n, rfl, hle, hlt⟩
    rw [Int.floor_eq_iff.mpr ⟨hle, hlt⟩]
  · exact fun h => ⟨⌊x⌋, h, Int.floor_le x, Int.lt_floor_add_one x⟩

theorem max_truncate_eq_iff (x c : ℚ) (d : ℤ) :
    ((max (truncate (x + d)) 1 : ℤ) : ℚ) = max 1 (c + d) ↔
      (∃ n : ℤ, c = n ∧ n ≤ x ∧ x < n + 1) ∨ x + d < 2 ∧ c + d ≤ 1 := by
  have hlow : x + d < 2 ↔ ⌊x⌋ + d ≤ 1 := by
    rw [← Int.floor_add_intCast, ← Int.lt_add_one_iff]
    exact_mod_cast (Int.floor_lt (a := x + d) (z := 2)).symm
  rw [max_truncate, Int.floor_add_intCast, exists_whole_iff, hlow]
  push_cast
  rcases le_total (⌊x⌋ + d) 1 with hx | hx
  · have hx' : (⌊x⌋ + d : ℚ) ≤ 1 := by exact_mod_cast hx
    rw [max_eq_right hx', eq_comm, max_eq_left_iff, and_iff_right hx]
    exact ⟨Or.inr, fun h => h.elim (fun heq => heq ▸ hx') id⟩
  · have hx' : (1 : ℚ) ≤ ⌊x⌋ + d := by exact_mod_cast hx
    rw [max_eq_left hx']
    rcases le_or_gt (c + d) 1 with hc | hc
    · rw [max_eq_left hc, and_iff_left hc]
      constructor
      · exact fun h => Or.inr (by exact_mod_cast h.le)
      · rintro (rfl | h)
        · exact le_antisymm hc hx'
        · exact_mod_cast le_antisymm h hx
    · rw [max_eq_right hc.le, add_left_inj, eq_comm]
      exact ⟨Or.inl, fun h => h.elim id fun h => absurd h.2 (not_le.mpr hc)⟩

theorem next_eq_iff (p : Panel) (m : Metric) (btn : Button) (r c : ℚ) :
    m.next r (p.signedStep m btn) = max m.minimum (c + p.signedStep m btn) ↔
      m.UpToDate r c (p.signedStep m btn) := by
  have hpercent : ∀ d : ℚ, d = multiplierStep p.multiplierIdx →
      ∃ n : ℤ, (if btn = .up then d else -d) = n := by
    rintro d rfl
    split_ifs
    · exact ⟨_, rfl⟩
    · exact ⟨-multiplierStep p.multiplierIdx, by push_cast; rfl⟩
  cases m with
  | pressureAdvance => exact max_zero_add_eq_iff r c _
  | speed =>
    obtain ⟨n, hn⟩ := hpercent (p.step .speed) rfl
    rw [Panel.signedStep, hn]
    exact max_truncate_eq_iff (r * 100) c n
  | flow =>
    obtain ⟨n, hn⟩ := hpercent (p.step .flow) rfl
    rw [Panel.signedStep, hn]
    exact max_truncate_eq_iff (r * 100) c n

theorem signedStep_ne_zero (p : Panel) (m : Metric) (btn : Button) : p.signedStep m btn ≠ 0 := by
  have hzoffset : ∀ i, zoffsetStep i ≠ 0 := by decide +kernel
  have hmultiplier : ∀ i, (multiplierStep i : ℚ) ≠ 0 := by decide
  have hstep : p.step m ≠ 0 := by
    cases m with
    | pressureAdvance => exact hzoffset _
    | speed => exact hmultiplier _
    | flow => exact hmultiplier _
  unfold Panel.signedStep
  split_ifs
  · exact hstep
  · exact neg_ne_zero.mpr hstep

theorem eq_max_add_iff {c low d : ℚ} (hd : d ≠ 0) : c = max low (c + d) ↔ c = low ∧ d < 0 := by
  constructor
  · intro h
    rcases le_total low (c + d) with hle | hle
    · rw [max_eq_right hle] at h
      exact absurd (left_eq_add.mp h) hd
    · rw [max_eq_left hle] at h
      rw [← h] at hle
      exact ⟨h, lt_of_le_of_ne (add_le_iff_nonpos_right c |>.mp hle) hd⟩
  · rintro ⟨rfl, hneg⟩
    rw [max_eq_left (add_le_of_nonpos_right hneg.le)]

namespace Session

theorem commanded_send (s : Session) {m : Metric} {c : Option Script}
    (h : ∀ script, c = some script → script.metric = m) :
    (s.send c).commanded =
      Function.update s.commanded m ((c.map Script.value).or (s.commanded m)) := by
  cases c with
  | none => exact (Function.update_eq_self m s.commanded).symm
  | some script =>
    rw [← h script rfl]
    rfl

/-- A tap changes what was commanded and what should have been on its own card only. -/
theorem accumulates_tap_iff {s : Session} (h : s.Accumulates) (m : Metric) (btn : Button) :
    (s.step (.tap m btn)).Accumulates ↔
      ((s.panel.handle m btn).map Script.value).or (s.commanded m) = s.count m btn := by
  have hsend := commanded_send s (c := s.panel.handle m btn) (m := m)
    fun script hscript => metric_of_handle hscript
  have hcommanded : (s.step (.tap m btn)).commanded = Function.update s.commanded m
      (((s.panel.handle m btn).map Script.value).or (s.commanded m)) := hsend
  have hideal : (s.step (.tap m btn)).ideal = Function.update s.ideal m (s.count m btn) := rfl
  rw [Accumulates, hcommanded, hideal]
  refine ⟨fun hall => by simpa using hall m, fun heq k => ?_⟩
  by_cases hk : k = m
  · rw [hk, Function.update_self, Function.update_self, heq]
  · rw [Function.update_of_ne hk, Function.update_of_ne hk, h k]

theorem accumulates_step_iff (s : Session) (e : Event) (h : s.Accumulates) :
    (s.step e).Accumulates ↔ s.Reported e := by
  cases e with
  | zoffset idx => exact ⟨fun _ => trivial, fun _ => h⟩
  | multiplier idx => exact ⟨fun _ => trivial, fun _ => h⟩
  | report =>
    refine ⟨fun _ => trivial, fun _ => ?_⟩
    cases hflight : s.inFlight with
    | nil => simpa [step, hflight] using h
    | cons c rest => simpa [step, hflight, Accumulates] using h
  | tap m btn =>
    rw [accumulates_tap_iff h, Reported]
    by_cases hreset : btn = .reset
    · subst hreset
      rw [value_reset, count, if_pos rfl, h m]
      simp
    · rw [value_step _ _ hreset, count, if_neg hreset, ← h m]
      simp only [ne_eq, hreset, not_false_eq_true, forall_true_left]
      cases hr : s.panel.reported m with
      | none =>
        cases hc : s.commanded m with
        | none => simp
        | some c => simpa using eq_max_add_iff (signedStep_ne_zero s.panel m btn)
      | some r =>
        cases hc : s.commanded m with
        | none => simp
        | some c => simpa using next_eq_iff s.panel m btn r c

theorem accumulates_start (p : Panel) : (start p).Accumulates := fun _ => rfl

/-- The values commanded add up over a run exactly if every tap on + or - finds the value
last commanded on its card reported. -/
theorem accumulates_iff (p : Panel) (es : List Event) :
    Throughout step Accumulates (start p) es ↔ EachStep step Reported (start p) es :=
  throughout_iff_eachStep accumulates_step_iff (accumulates_start p) es

/-- Pressure advance, speed and flow as they stand in the configuration. -/
def configured : Panel :=
  ⟨0, 0, some (1 / 25), fun m => some (if m = .pressureAdvance then 1 / 25 else 1)⟩

/-- The second of two quick taps repeats the command of the first. -/
theorem second_tap_lost : ¬ ∀ (p : Panel) (es : List Event),
    Throughout step Accumulates (start p) es := by
  intro h
  have htwo := throughout_iff_prefix.mp (h configured [.tap .speed .up, .tap .speed .up]) _
    List.prefix_rfl .speed
  exact absurd htwo (by decide +kernel)

end Session

end PowerScreen.FineTune
