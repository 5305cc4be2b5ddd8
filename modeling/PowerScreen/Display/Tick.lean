import PowerScreen.Display.Sleep

/-! # The tick of the display

The tick is the difference of two readings of the clock in milliseconds, of which the first is
kept. The microseconds of a reading are computed in 32 bits before they are divided; and a first
reading of no milliseconds counts as none.
-/
namespace PowerScreen.Display
open Library.Run

/-- `timeval` of the 32-bit target. -/
structure Timeval where
  sec : Int32
  usec : Int32
  usec_nonneg : 0 ≤ usec.toInt
  usec_lt : usec.toInt < 1000000

namespace Timeval

/-- The reading in microseconds. -/
def micros (tv : Timeval) : ℤ := tv.sec.toInt * 1000000 + tv.usec.toInt

/-- The reading in milliseconds as it is computed, and widened afterwards. -/
def millis (tv : Timeval) : UInt64 :=
  ((tv.sec * 1000000 + tv.usec) / 1000 : Int32).toInt64.toUInt64

/-- The number of times the microseconds have come round. -/
def period (tv : Timeval) : ℤ := (tv.micros + 2 ^ 31) / 2 ^ 32

/-- The microseconds from the middle of the period. -/
def within (tv : Timeval) : ℤ := tv.micros.bmod (2 ^ 32)

/-- The milliseconds from the middle of the period, rounded to it. -/
def rounded (tv : Timeval) : ℤ := tv.within.tdiv 1000

end Timeval

/-- `custom_tick_get`, given `start_ms` and what the clock reads: the new `start_ms` and the
tick. -/
def customTickGet (startMs : UInt64) (tvStart tvNow : Timeval) : UInt64 × UInt32 :=
  let startMs := if startMs = 0 then tvStart.millis else startMs
  (startMs, (tvNow.millis - startMs).toUInt32)

/-- A call, with what the clock reads during it; the first of the two is not asked for once there
is a start. -/
structure Call where
  tvStart : Timeval
  tvNow : Timeval

/-- What has been read and returned: the first reading, the one the start was computed from, the
last one, and the last two ticks. -/
structure Readings where
  first : Timeval
  base : Timeval
  last : Timeval
  before : UInt32
  tick : UInt32

structure Ticker where
  startMs : UInt64 := 0
  seen : Option Readings := none

namespace Ticker

/-- The reading that the start comes from after a call. -/
def baseOf (s : Ticker) (c : Call) : Timeval :=
  match s.seen with
  | none => c.tvStart
  | some r => if s.startMs = 0 then c.tvStart else r.base

def readings (s : Ticker) (c : Call) (tick : UInt32) : Readings :=
  match s.seen with
  | none => ⟨c.tvStart, s.baseOf c, c.tvNow, 0, tick⟩
  | some r => ⟨r.first, s.baseOf c, c.tvNow, r.tick, tick⟩

def step (s : Ticker) (c : Call) : Ticker where
  startMs := (customTickGet s.startMs c.tvStart c.tvNow).1
  seen := some (s.readings c (customTickGet s.startMs c.tvStart c.tvNow).2)

/-- The readings do not decrease, and stay within 2^32 ms. -/
def InTime (s : Ticker) (c : Call) : Prop :=
  match s.seen with
  | none => c.tvStart.micros ≤ c.tvNow.micros ∧
      c.tvNow.micros - c.tvStart.micros < 2 ^ 32 * 1000
  | some r => (s.startMs = 0 →
        r.last.micros ≤ c.tvStart.micros ∧ c.tvStart.micros ≤ c.tvNow.micros) ∧
      r.last.micros ≤ c.tvNow.micros ∧ c.tvNow.micros - r.first.micros < 2 ^ 32 * 1000

end Ticker

namespace Readings

/-- The tick is the time since the first reading, in two readings rounded to milliseconds; it
is none without any time, and no less than before. -/
structure Right (r : Readings) : Prop where
  elapsed : |1000 * (r.tick.toNat : ℤ) - (r.last.micros - r.first.micros)| < 2000
  zero : r.last.micros = r.first.micros → r.tick = 0
  mono : r.before ≤ r.tick

end Readings

/-- The reading lies in the period of the first one, or in the thousandth after it and earlier
there, which is 2^32 ms; and the start was read within the rounding of the first one. -/
structure Aligned (tvFirst tvBase tvNow : Timeval) : Prop where
  period : tvNow.period = tvFirst.period ∧ tvBase.rounded ≤ tvNow.rounded ∨
    tvNow.period = tvFirst.period + 1000 ∧ tvNow.rounded < tvBase.rounded
  start : |1000 * tvBase.rounded - tvFirst.within + tvNow.within.tmod 1000| < 2000

namespace Ticker

/-- Every reading is aligned; if the start is read again, the time since then is no less than that
shown before. -/
def Steady (s : Ticker) (c : Call) : Prop :=
  match s.seen with
  | none => Aligned c.tvStart c.tvStart c.tvNow
  | some r => Aligned r.first (s.baseOf c) c.tvNow ∧
      (s.startMs = 0 → r.last.period = c.tvNow.period →
        r.last.rounded ≤ c.tvNow.rounded - c.tvStart.rounded)

end Ticker

namespace Timeval

theorem within_bounds (tv : Timeval) : -2 ^ 31 ≤ tv.within ∧ tv.within < 2 ^ 31 :=
  ⟨Int.le_bmod (by decide), Int.bmod_lt (by decide)⟩

theorem micros_eq (tv : Timeval) : tv.micros = 2 ^ 32 * tv.period + tv.within := by
  have hdiv : tv.within + 2 ^ 32 * tv.micros.bdiv (2 ^ 32) = tv.micros :=
    Int.bmod_add_bdiv tv.micros (2 ^ 32)
  have hbounds := tv.within_bounds
  rw [period]
  omega

/-- What rounding leaves over has the sign of the microseconds. -/
theorem within_eq (tv : Timeval) : tv.within = 1000 * tv.rounded + tv.within.tmod 1000 ∧
    (-1000 < tv.within.tmod 1000 ∧ tv.within.tmod 1000 < 1000) ∧
      (0 ≤ tv.within → 0 ≤ tv.within.tmod 1000) ∧ (tv.within ≤ 0 → tv.within.tmod 1000 ≤ 0) := by
  have hsplit := Int.mul_tdiv_add_tmod tv.within 1000
  have hlt := Int.tmod_lt_of_pos tv.within (show (0 : ℤ) < 1000 by decide)
  have hgt := Int.lt_tmod_of_pos tv.within (show (0 : ℤ) < 1000 by decide)
  refine ⟨by rw [rounded, hsplit], ⟨hgt, hlt⟩, fun h => Int.tmod_nonneg 1000 h, ?_⟩
  intro h
  have hneg := Int.tmod_nonneg 1000 (show 0 ≤ -tv.within by omega)
  rw [Int.neg_tmod] at hneg
  omega

theorem rounded_bounds (tv : Timeval) : -2147483 ≤ tv.rounded ∧ tv.rounded ≤ 2147483 := by
  have hbounds := tv.within_bounds
  obtain ⟨hsplit, hlt, hpos, hneg⟩ := tv.within_eq
  omega

theorem rounded_mono {s t : Timeval} (h : s.within ≤ t.within) : s.rounded ≤ t.rounded :=
  Int.tdiv_le_tdiv (by decide) h

theorem rounded_congr {s t : Timeval} (h : s.micros = t.micros) : s.rounded = t.rounded := by
  rw [rounded, rounded, within, within, h]

theorem toInt_computed (tv : Timeval) :
    ((tv.sec * 1000000 + tv.usec) / 1000 : Int32).toInt = tv.rounded := by
  have hwithin : (tv.sec * 1000000 + tv.usec : Int32).toInt = tv.within := by
    rw [Int32.toInt_add, Int32.toInt_mul, Int.bmod_add_bmod]
    rfl
  rw [Int32.toInt_div_of_ne_right _ _ (by decide), hwithin]
  rfl

theorem toNat_millis (tv : Timeval) : (tv.millis.toNat : ℤ) = tv.rounded % 2 ^ 64 := by
  have hnat (w : Int64) : (w.toUInt64.toNat : ℤ) = w.toInt % 2 ^ 64 :=
    toNat_eq_toInt_emod w.toBitVec
  rw [millis, hnat, Int32.toInt_toInt64, toInt_computed]

theorem millis_eq_zero_iff (tv : Timeval) : tv.millis = 0 ↔ tv.rounded = 0 := by
  have hbounds := tv.rounded_bounds
  have hnat := tv.toNat_millis
  rw [← UInt64.toNat_inj, UInt64.toNat_zero]
  omega

/-- The tick in terms of the readings it comes from. -/
theorem toNat_tick (tvBase tvNow : Timeval) :
    ((tvNow.millis - tvBase.millis).toUInt32.toNat : ℤ) =
      (tvNow.rounded - tvBase.rounded) % 2 ^ 32 := by
  have hnow := tvNow.toNat_millis
  have hbase := tvBase.toNat_millis
  have hlt := tvBase.millis.toNat_lt
  rw [UInt64.toNat_toUInt32, UInt64.toNat_sub]
  omega

end Timeval

/-- A difference of rounded readings is the time between them only if the readings are aligned. -/
theorem aligned_iff {tvFirst tvBase tvNow : Timeval} (hle : tvFirst.micros ≤ tvNow.micros)
    (hlt : tvNow.micros - tvFirst.micros < 2 ^ 32 * 1000)
    (hbase : tvBase.rounded = tvFirst.rounded ∨ tvFirst.rounded = 0) :
    |1000 * ((tvNow.rounded - tvBase.rounded) % 2 ^ 32) - (tvNow.micros - tvFirst.micros)| < 2000 ↔
      Aligned tvFirst tvBase tvNow := by
  have hfirst := tvFirst.micros_eq
  have hnow := tvNow.micros_eq
  have hwfirst := tvFirst.within_bounds
  have hwnow := tvNow.within_bounds
  have hrbase := tvBase.rounded_bounds
  have hrnow := tvNow.rounded_bounds
  obtain ⟨hsplit, hrest, -, -⟩ := tvNow.within_eq
  obtain ⟨hfsplit, hfrest, -, -⟩ := tvFirst.within_eq
  have haligned : Aligned tvFirst tvBase tvNow ↔ (_ ∧ _) :=
    ⟨fun h => ⟨h.period, h.start⟩, fun h => ⟨h.1, h.2⟩⟩
  rw [haligned, abs_lt, abs_lt]
  by_cases hge : tvBase.rounded ≤ tvNow.rounded
  · have hdiff : (tvNow.rounded - tvBase.rounded) % 2 ^ 32 = tvNow.rounded - tvBase.rounded := by
      omega
    rw [hdiff]
    omega
  · have hdiff : (tvNow.rounded - tvBase.rounded) % 2 ^ 32 =
        tvNow.rounded - tvBase.rounded + 2 ^ 32 := by omega
    rw [hdiff]
    omega

/-- Unless the start is read again. -/
theorem aligned_self_iff {tvFirst tvNow : Timeval} (hle : tvFirst.micros ≤ tvNow.micros) :
    Aligned tvFirst tvFirst tvNow ↔ tvNow.period = tvFirst.period ∨
      tvNow.period = tvFirst.period + 1000 ∧ tvNow.rounded < tvFirst.rounded := by
  obtain ⟨hsplit, hrest, -, -⟩ := tvNow.within_eq
  obtain ⟨hfsplit, hfrest, -, -⟩ := tvFirst.within_eq
  constructor
  · rintro ⟨⟨hperiod, -⟩ | hlater, -⟩
    · exact Or.inl hperiod
    · exact Or.inr hlater
  · intro h
    refine ⟨h.imp_left fun hperiod => ⟨hperiod, ?_⟩, ?_⟩
    · have hfirst := tvFirst.micros_eq
      have hnow := tvNow.micros_eq
      rw [hperiod] at hnow
      exact Timeval.rounded_mono (by omega)
    · rw [abs_lt]
      omega

/-- What the state of a ticker says about its readings. -/
structure Readings.Of (startMs : UInt64) (r : Readings) : Prop where
  start : startMs = r.base.millis
  tick : (r.tick.toNat : ℤ) = (r.last.rounded - r.base.rounded) % 2 ^ 32
  again : r.base.micros = r.first.micros ∨ r.first.rounded = 0
  first : r.first.micros ≤ r.base.micros
  last : r.base.micros ≤ r.last.micros
  inTime : r.last.micros - r.first.micros < 2 ^ 32 * 1000

namespace Readings.Of

variable {startMs : UInt64} {r : Readings}

theorem base_rounded (h : r.Of startMs) :
    r.base.rounded = r.first.rounded ∨ r.first.rounded = 0 :=
  h.again.imp_left Timeval.rounded_congr

theorem elapsed_iff (h : r.Of startMs) :
    |1000 * (r.tick.toNat : ℤ) - (r.last.micros - r.first.micros)| < 2000 ↔
      Aligned r.first r.base r.last := by
  rw [h.tick]
  exact aligned_iff (h.first.trans h.last) h.inTime h.base_rounded

theorem zero (h : r.Of startMs) (hlast : r.last.micros = r.first.micros) : r.tick = 0 := by
  have hbase : r.base.micros = r.last.micros := by
    have := h.first
    have := h.last
    omega
  have htick := h.tick
  rw [Timeval.rounded_congr hbase, sub_self, Int.zero_emod] at htick
  exact UInt32.toNat_inj.mp (by exact_mod_cast htick)

theorem right_iff (h : r.Of startMs) :
    r.Right ↔ Aligned r.first r.base r.last ∧ r.before ≤ r.tick :=
  ⟨fun hr => ⟨h.elapsed_iff.mp hr.elapsed, hr.mono⟩,
    fun hr => ⟨h.elapsed_iff.mpr hr.1, h.zero, hr.2⟩⟩

theorem startMs_eq_zero_iff (h : r.Of startMs) : startMs = 0 ↔ r.base.rounded = 0 := by
  rw [h.start, Timeval.millis_eq_zero_iff]

end Readings.Of

namespace Ticker

theorem baseOf_of_some {s : Ticker} {r : Readings} (h : s.seen = some r) (c : Call) :
    s.baseOf c = if s.startMs = 0 then c.tvStart else r.base := by rw [baseOf, h]

def Good (s : Ticker) : Prop :=
  match s.seen with
  | none => s.startMs = 0
  | some r => r.Of s.startMs

def Right (s : Ticker) : Prop := ∀ r, s.seen = some r → r.Right

/-- Whatever has been read before, the tick is the difference of two rounded readings. -/
theorem customTickGet_eq {s : Ticker} (hs : s.Good) (c : Call) :
    customTickGet s.startMs c.tvStart c.tvNow =
      ((s.baseOf c).millis, (c.tvNow.millis - (s.baseOf c).millis).toUInt32) := by
  have hstart : (if s.startMs = 0 then c.tvStart.millis else s.startMs) = (s.baseOf c).millis := by
    unfold Good at hs
    unfold baseOf
    cases hseen : s.seen with
    | none =>
      rw [hseen] at hs
      rw [if_pos hs]
    | some r =>
      rw [hseen] at hs
      dsimp only
      split_ifs
      · rfl
      · exact hs.start
  rw [customTickGet, hstart]

/-- What a call reads and returns. -/
theorem of_readings {s : Ticker} (hs : s.Good) {c : Call} (hc : s.InTime c) {tick : UInt32}
    (htick : (tick.toNat : ℤ) = (c.tvNow.rounded - (s.baseOf c).rounded) % 2 ^ 32) :
    (s.readings c tick).Of (s.baseOf c).millis := by
  unfold Good at hs
  unfold InTime at hc
  cases hseen : s.seen with
  | none =>
    rw [hseen] at hs hc
    have hbase : s.baseOf c = c.tvStart := by rw [baseOf, hseen]
    rw [readings, hseen]
    exact ⟨rfl, htick, Or.inl (by rw [hbase]), by rw [hbase], hbase ▸ hc.1, hc.2⟩
  | some r =>
    rw [hseen] at hs hc
    obtain ⟨hstart, hlast, hlt⟩ := hc
    have hbase := baseOf_of_some hseen c
    rw [readings, hseen]
    by_cases hzero : s.startMs = 0
    · rw [if_pos hzero] at hbase
      obtain ⟨hagain, hle⟩ := hstart hzero
      refine ⟨rfl, htick, Or.inr ?_, ?_, ?_, hlt⟩
      · rcases hs.base_rounded with h | h
        · rw [← h]
          exact hs.startMs_eq_zero_iff.mp hzero
        · exact h
      · rw [hbase]
        exact (hs.first.trans hs.last).trans hagain
      · rw [hbase]
        exact hle
    · rw [if_neg hzero] at hbase
      refine ⟨rfl, htick, ?_, ?_, ?_, hlt⟩
      · rw [hbase]
        exact hs.again
      · rw [hbase]
        exact hs.first
      · rw [hbase]
        exact hs.last.trans hlast

theorem of_step {s : Ticker} (hs : s.Good) {c : Call} (hc : s.InTime c) :
    (s.readings c (customTickGet s.startMs c.tvStart c.tvNow).2).Of (s.step c).startMs := by
  rw [step, customTickGet_eq hs c]
  exact of_readings hs hc (Timeval.toNat_tick (s.baseOf c) c.tvNow)

theorem good_step {s : Ticker} (hs : s.Good) {c : Call} (hc : s.InTime c) : (s.step c).Good :=
  of_step hs hc

/-- Two aligned readings from one start are in order. -/
theorem mono_of_aligned {tvFirst tvBase tvLast tvNow : Timeval} (hle : tvLast.micros ≤ tvNow.micros)
    (hlast : Aligned tvFirst tvBase tvLast) (hnow : Aligned tvFirst tvBase tvNow) :
    (tvLast.rounded - tvBase.rounded) % 2 ^ 32 ≤ (tvNow.rounded - tvBase.rounded) % 2 ^ 32 := by
  have hl := tvLast.micros_eq
  have hn := tvNow.micros_eq
  have hwl := tvLast.within_bounds
  have hwn := tvNow.within_bounds
  have hmono := Timeval.rounded_mono (s := tvLast) (t := tvNow)
  have hrl := tvLast.rounded_bounds
  have hrn := tvNow.rounded_bounds
  have hrb := tvBase.rounded_bounds
  have hpl := hlast.period
  have hpn := hnow.period
  omega

/-- The same for a start of no milliseconds that is read again. -/
theorem mono_again_iff {tvFirst tvOld tvBase tvLast tvNow : Timeval}
    (hle : tvLast.micros ≤ tvNow.micros) (hold : tvOld.rounded = 0)
    (hlast : Aligned tvFirst tvOld tvLast) (hnow : Aligned tvFirst tvBase tvNow) :
    (tvLast.rounded - tvOld.rounded) % 2 ^ 32 ≤ (tvNow.rounded - tvBase.rounded) % 2 ^ 32 ↔
      (tvLast.period = tvNow.period → tvLast.rounded ≤ tvNow.rounded - tvBase.rounded) := by
  have hl := tvLast.micros_eq
  have hn := tvNow.micros_eq
  have hwl := tvLast.within_bounds
  have hwn := tvNow.within_bounds
  have hrl := tvLast.rounded_bounds
  have hrn := tvNow.rounded_bounds
  have hrb := tvBase.rounded_bounds
  have hpl := hlast.period
  have hpn := hnow.period
  omega

theorem tick_le_iff {a b : UInt32} : a ≤ b ↔ (a.toNat : ℤ) ≤ b.toNat := by
  rw [UInt32.le_iff_toNat_le, Int.ofNat_le]

theorem right_step_iff {s : Ticker} {c : Call} (hs : s.Good) (hr : s.Right) (hc : s.InTime c) :
    (s.step c).Right ↔ s.Steady c := by
  have hof := of_step hs hc
  have hright : (s.step c).Right ↔
      (s.readings c (customTickGet s.startMs c.tvStart c.tvNow).2).Right := by simp [Right, step]
  rw [hright, hof.right_iff]
  generalize (customTickGet s.startMs c.tvStart c.tvNow).2 = tick at hof
  unfold Steady
  cases hseen : s.seen with
  | none =>
    have hbase : s.baseOf c = c.tvStart := by rw [baseOf, hseen]
    rw [readings, hseen, hbase]
    exact and_iff_left (UInt32.zero_le)
  | some r =>
    have hold : r.Of s.startMs := by rwa [Good, hseen] at hs
    have hnow := hof.tick
    have hle : r.last.micros ≤ c.tvNow.micros := by
      rw [InTime, hseen] at hc
      exact hc.2.1
    have hlast := hold.elapsed_iff.mp (hr r hseen).elapsed
    rw [readings, hseen] at hnow ⊢
    dsimp only at hnow ⊢
    rw [tick_le_iff, hold.tick, hnow]
    refine and_congr_right fun haligned => ?_
    by_cases hzero : s.startMs = 0
    · have hbase := (baseOf_of_some hseen c).trans (if_pos hzero)
      rw [hbase] at haligned ⊢
      rw [mono_again_iff hle (hold.startMs_eq_zero_iff.mp hzero) hlast haligned]
      simp [hzero]
    · have hbase := (baseOf_of_some hseen c).trans (if_neg hzero)
      rw [hbase] at haligned ⊢
      exact iff_of_true (mono_of_aligned hle hlast haligned) fun h => absurd h hzero

/-- In every run of readings that do not decrease, within 2^32 ms, the tick is right exactly as long
as the calls are steady, which is a matter of the periods unless the start is read again. -/
theorem right_throughout_iff {cs : List Call} (h : EachStep step InTime {} cs) :
    (Throughout step Right {} cs ↔ EachStep step Steady {} cs) ∧
    ∀ tvFirst tvNow : Timeval, tvFirst.micros ≤ tvNow.micros →
      (Aligned tvFirst tvFirst tvNow ↔ tvNow.period = tvFirst.period ∨
        tvNow.period = tvFirst.period + 1000 ∧ tvNow.rounded < tvFirst.rounded) := by
  have hinit : Good {} ∧ Right {} := ⟨rfl, fun r hr => by cases hr⟩
  refine ⟨?_, fun _ _ => aligned_self_iff⟩
  exact throughout_iff_eachStep_inv (I := fun s => s.Good ∧ s.Right) (fun _ h => h.2)
    (fun _ _ hc hs hsteady => ⟨good_step hs.1 hc, (right_step_iff hs.1 hs.2 hc).mpr hsteady⟩)
    (fun _ _ hc hs hright => (right_step_iff hs.1 hs.2 hc).mp hright) hinit h

/-- A first call, and another one second later. -/
def secondApart (sec : Int32) : List Call :=
  let tv (sec : Int32) : Timeval := ⟨sec, 0, by decide, by decide⟩
  [⟨tv sec, tv sec⟩, ⟨tv (sec + 1), tv (sec + 1)⟩]

theorem right_second : Throughout step Right {} (secondApart 1750201300) := by
  refine (right_throughout_iff ?_).1.mpr ?_
  · exact ⟨⟨by decide, by decide⟩, ⟨fun h => absurd h (by decide), by decide, by decide⟩, trivial⟩
  · exact ⟨⟨by decide, by decide⟩, ⟨⟨by decide, by decide⟩, fun h => absurd h (by decide)⟩, trivial⟩

/-- Between the two calls the microseconds come round. -/
theorem tick_jumps : EachStep step InTime {} (secondApart 1750201320) ∧
    ¬Throughout step Right {} (secondApart 1750201320) := by
  constructor
  · exact ⟨⟨by decide, by decide⟩, ⟨fun h => absurd h (by decide), by decide, by decide⟩, trivial⟩
  · rintro ⟨-, -, hlast⟩
    have helapsed := (hlast _ rfl).elapsed
    revert helapsed
    decide

end Ticker

end PowerScreen.Display
