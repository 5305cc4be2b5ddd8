import PowerScreen.PrintStatus.Panel
import PowerScreen.Duration.Seconds

/-! # The times of a print

The time left is the difference of the estimated and the elapsed time as long as it is not
negative as a signed number. The print status shows it without its seconds, the card of the home
screen in its two greatest parts.
-/
namespace PowerScreen.Duration
open Library.Decimal

/-- A number in two digits. -/
def twoDigits (n : ℕ) : List Char :=
  if n < 10 then '0' :: Nat.toDigits 10 n else Nat.toDigits 10 n

def compactDuration (seconds : ℕ) : List Char :=
  let h := seconds / 3600
  let m := seconds % 3600 / 60
  let s := seconds % 60
  if 0 < h then Nat.toDigits 10 h ++ 'h' :: ' ' :: (twoDigits m ++ ['m'])
  else if 0 < m then Nat.toDigits 10 m ++ 'm' :: ' ' :: (twoDigits s ++ ['s'])
  else Nat.toDigits 10 s ++ ['s']

def unknownMark : List Char := ['.', '.', '.']

/-- The texts that the times are shown in. -/
structure TimeLabels where
  timeLeft : List Char
  miniEta : List Char
  elapsed : List Char
  miniElapsed : List Char

def updateTimeProgress (estimatedTime timePassed : UInt32) : TimeLabels :=
  let elapsed := withoutSeconds (etaString timePassed.toNat)
  let miniElapsed := compactDuration timePassed.toNat
  match PrintStatus.timeLeft estimatedTime timePassed with
  | none => ⟨unknownMark, unknownMark, elapsed, miniElapsed⟩
  | some remaining =>
    ⟨withoutSeconds (etaString remaining.toNat), compactDuration remaining.toNat, elapsed,
      miniElapsed⟩

/-- A negative difference has no duration. -/
theorem updateTimeProgress_of_not_lt {estimatedTime timePassed : UInt32}
    (h : ¬ estimatedTime - timePassed < 0x80000000) :
    updateTimeProgress estimatedTime timePassed =
      ⟨unknownMark, unknownMark, withoutSeconds (etaString timePassed.toNat),
        compactDuration timePassed.toNat⟩ := by
  rw [updateTimeProgress, PrintStatus.timeLeft, if_neg h]

/-- A text stands for a duration, from one minute on in full or without its seconds. -/
def Tells (text : List Char) (d : ℕ) : Prop :=
  decode text = some d ∨ 60 ≤ d ∧ decode text = some (d - d % 60)

/-- The unknown mark stands for more time elapsed than estimated, other texts for the
difference. -/
structure ProgressTold (estimatedTime timePassed : UInt32) : Prop where
  unknown : (updateTimeProgress estimatedTime timePassed).timeLeft = unknownMark ↔
    estimatedTime < timePassed
  miniUnknown : (updateTimeProgress estimatedTime timePassed).miniEta = unknownMark ↔
    estimatedTime < timePassed
  timeLeft : timePassed ≤ estimatedTime →
    Tells (updateTimeProgress estimatedTime timePassed).timeLeft
      (estimatedTime.toNat - timePassed.toNat)
  miniEta : timePassed ≤ estimatedTime →
    Tells (updateTimeProgress estimatedTime timePassed).miniEta
      (estimatedTime.toNat - timePassed.toNat)

/-- The seconds of 1970. -/
def yearSeconds : ℕ := 365 * 86400

theorem decode_withoutSeconds (d : ℕ) :
    decode (withoutSeconds (etaString d)) = some ((gmtime d).yday * 86400 +
      (if d % 86400 < 60 then d % 86400 else d % 86400 - d % 60)) := by
  have hmin : (gmtime d).min = d % 3600 / 60 := rfl
  have hhour : (gmtime d).hour = d % 86400 / 3600 := rfl
  by_cases hminutes : (gmtime d).min = 0
  · by_cases hhours : (gmtime d).hour = 0
    · rw [(rules_of_none hminutes hhours).1, decode_etaString, if_pos (by omega)]
    · have hhour' := decode_digits (gmtime d).hour (by decide : unitSeconds 'h' = some 3600)
        (by decide)
      rw [(rules_of_hours hminutes hhours).1,
        decode_part _ (by decide : unitSeconds 'd' = some 86400) (by decide) hhour',
        if_neg (by omega)]
      exact congrArg some (by omega)
  · have hmin' := decode_digits (gmtime d).min (by decide : unitSeconds 'm' = some 60) (by decide)
    have hhour' := decode_part (gmtime d).hour (by decide : unitSeconds 'h' = some 3600) (by decide)
      hmin'
    rw [(rules_of_minutes hminutes).1,
      decode_part _ (by decide : unitSeconds 'd' = some 86400) (by decide) hhour',
      if_neg (by omega)]
    exact congrArg some (by omega)

theorem tells_withoutSeconds_iff (d : ℕ) :
    Tells (withoutSeconds (etaString d)) d ↔ d < yearSeconds := by
  have hyear : yearDays 1970 = 365 := by decide
  have hdays := dayOfYear_eq_self_iff (d / 86400) 1970
  have hle := dayOfYear_le (d / 86400) 1970
  have hyday : (gmtime d).yday = dayOfYear (d / 86400) 1970 := rfl
  rw [hyear] at hdays
  rw [Tells, decode_withoutSeconds, Option.some_inj, Option.some_inj, hyday, yearSeconds]
  constructor
  · intro h
    have hlt := hdays.mp (by split_ifs at h <;> omega)
    omega
  · intro h
    rw [hdays.mpr (by omega)]
    split_ifs <;> omega

theorem isDigit_of_mem_twoDigits {n : ℕ} {c : Char} (h : c ∈ twoDigits n) : c.isDigit := by
  rw [twoDigits] at h
  split_ifs at h
  · rcases List.mem_cons.mp h with rfl | h
    · rfl
    · exact isDigit_of_mem_toDigits h
  · exact isDigit_of_mem_toDigits h

theorem ofDigitChars_twoDigits (n : ℕ) : Nat.ofDigitChars 10 (twoDigits n) 0 = n := by
  rw [twoDigits]
  split_ifs
  · exact Nat.ofDigitChars_ten_toDigits
  · exact Nat.ofDigitChars_ten_toDigits

theorem decode_twoDigits (n : ℕ) {letter : Char} {unit : ℕ}
    (hunit : unitSeconds letter = some unit) (hblank : letter ≠ ' ') :
    decode (twoDigits n ++ [letter]) = some (n * unit) := by
  have hne : twoDigits n ≠ [] := by
    rw [twoDigits]
    split_ifs
    · exact List.cons_ne_nil _ _
    · exact Nat.toDigits_ne_nil
  rw [decode_last hne (fun c hc => isDigit_of_mem_twoDigits hc) hunit hblank,
    ofDigitChars_twoDigits]

/-- The greatest part first, then the next one in two digits. -/
theorem decode_two (n m : ℕ) {letter next : Char} {unit nextUnit : ℕ} (hn : 0 < n)
    (hunit : unitSeconds letter = some unit) (hblank : letter ≠ ' ')
    (hnext : unitSeconds next = some nextUnit) (hnextBlank : next ≠ ' ') :
    decode (Nat.toDigits 10 n ++ letter :: ' ' :: (twoDigits m ++ [next])) =
      some (n * unit + m * nextUnit) := by
  have hpart : Nat.toDigits 10 n ++ letter :: ' ' :: (twoDigits m ++ [next]) =
      part n letter ++ (twoDigits m ++ [next]) := by
    rw [part, if_pos hn]
    simp
  rw [hpart, decode_part n hunit hblank (decode_twoDigits m hnext hnextBlank)]

theorem tells_compactDuration (d : ℕ) : Tells (compactDuration d) d := by
  rw [compactDuration]
  split_ifs with hh hm
  · refine .inr ⟨by omega, ?_⟩
    rw [decode_two _ _ hh (by decide : unitSeconds 'h' = some 3600) (by decide)
      (by decide : unitSeconds 'm' = some 60) (by decide)]
    exact congrArg some (by omega)
  · refine .inl ?_
    rw [decode_two _ _ hm (by decide : unitSeconds 'm' = some 60) (by decide)
      (by decide : unitSeconds 's' = some 1) (by decide)]
    exact congrArg some (by omega)
  · refine .inl ?_
    rw [decode_digits _ (by decide : unitSeconds 's' = some 1) (by decide)]
    exact congrArg some (by omega)

theorem decode_unknownMark : decode unknownMark = none := by decide

theorem not_tells_unknownMark (d : ℕ) : ¬ Tells unknownMark d := by
  rw [Tells, decode_unknownMark]
  exact fun h => h.elim (fun h => by cases h) fun h => by cases h.2

theorem withoutSeconds_ne_unknownMark (d : ℕ) : withoutSeconds (etaString d) ≠ unknownMark := by
  intro h
  have hdecode := decode_withoutSeconds d
  rw [h, decode_unknownMark] at hdecode
  cases hdecode

theorem compactDuration_ne_unknownMark (d : ℕ) : compactDuration d ≠ unknownMark := fun h =>
  not_tells_unknownMark d (h ▸ tells_compactDuration d)

/-- An elapsed time below the estimate: what is told is the text of the difference. -/
theorem progressTold_iff_of_le {estimatedTime timePassed : UInt32}
    (hle : timePassed ≤ estimatedTime) :
    ProgressTold estimatedTime timePassed ↔
      estimatedTime.toNat - timePassed.toNat < yearSeconds := by
  have hsub : (estimatedTime - timePassed).toNat = estimatedTime.toNat - timePassed.toNat :=
    UInt32.toNat_sub_of_le _ _ hle
  have hnot : ¬ estimatedTime < timePassed := UInt32.not_lt.mpr hle
  by_cases hsmall : estimatedTime - timePassed < 0x80000000
  · have hlabels : updateTimeProgress estimatedTime timePassed =
        ⟨withoutSeconds (etaString (estimatedTime.toNat - timePassed.toNat)),
          compactDuration (estimatedTime.toNat - timePassed.toNat),
          withoutSeconds (etaString timePassed.toNat), compactDuration timePassed.toNat⟩ := by
      rw [updateTimeProgress, PrintStatus.timeLeft, if_pos hsmall, ← hsub]
    rw [← tells_withoutSeconds_iff]
    constructor
    · intro h
      have htells := h.timeLeft hle
      rwa [hlabels] at htells
    · intro h
      refine ⟨?_, ?_, fun _ => ?_, fun _ => ?_⟩ <;> rw [hlabels]
      · exact iff_of_false (withoutSeconds_ne_unknownMark _) hnot
      · exact iff_of_false (compactDuration_ne_unknownMark _) hnot
      · exact h
      · exact tells_compactDuration _
  · have hlarge : ¬ estimatedTime.toNat - timePassed.toNat < yearSeconds := by
      rw [UInt32.lt_iff_toNat_lt, hsub] at hsmall
      rw [yearSeconds]
      change ¬ _ < 2147483648 at hsmall
      omega
    refine iff_of_false (fun h => hnot (h.unknown.mp ?_)) hlarge
    rw [updateTimeProgress_of_not_lt hsmall]

/-- More time elapsed than estimated: the difference has come round. -/
theorem progressTold_iff_of_lt {estimatedTime timePassed : UInt32}
    (hlt : estimatedTime < timePassed) :
    ProgressTold estimatedTime timePassed ↔
      timePassed.toNat - estimatedTime.toNat ≤ 2 ^ 31 := by
  have hsub : (estimatedTime - timePassed).toNat =
      2 ^ 32 - (timePassed.toNat - estimatedTime.toNat) := by
    have hbound := timePassed.toNat_lt
    have hlt' := UInt32.lt_iff_toNat_lt.mp hlt
    rw [UInt32.toNat_sub]
    omega
  have hnot : ¬ timePassed ≤ estimatedTime := UInt32.not_le.mpr hlt
  have hiff : estimatedTime - timePassed < 0x80000000 ↔
      2 ^ 31 < timePassed.toNat - estimatedTime.toNat := by
    have hbound := timePassed.toNat_lt
    rw [UInt32.lt_iff_toNat_lt, hsub]
    change _ < 2147483648 ↔ _
    omega
  by_cases hsmall : estimatedTime - timePassed < 0x80000000
  · refine iff_of_false (fun h => ?_) (Nat.not_le.mpr (hiff.mp hsmall))
    have hmark := h.unknown.mpr hlt
    rw [updateTimeProgress, PrintStatus.timeLeft, if_pos hsmall] at hmark
    exact withoutSeconds_ne_unknownMark _ hmark
  · refine iff_of_true ⟨?_, ?_, fun h => absurd h hnot, fun h => absurd h hnot⟩
      (Nat.not_lt.mp (mt hiff.mpr hsmall)) <;> rw [updateTimeProgress_of_not_lt hsmall]
    · exact iff_of_true rfl hlt
    · exact iff_of_true rfl hlt

/-- Durations are told within the first year only, and times elapsed beyond the estimate up to
half of the range. -/
theorem durations_faithful_iff (s : ℕ) (estimatedTime timePassed : UInt32) :
    (decode (etaString s) = some s ↔ s < yearSeconds) ∧
      (ProgressTold estimatedTime timePassed ↔
        (timePassed ≤ estimatedTime →
          estimatedTime.toNat - timePassed.toNat < yearSeconds) ∧
        (estimatedTime < timePassed →
          timePassed.toNat - estimatedTime.toNat ≤ 2 ^ 31)) := by
  refine ⟨decode_eq_self_iff s, ?_⟩
  by_cases hle : timePassed ≤ estimatedTime
  · have hnot : ¬ estimatedTime < timePassed := UInt32.not_lt.mpr hle
    rw [progressTold_iff_of_le hle]
    exact ⟨fun h => ⟨fun _ => h, fun hlt => absurd hlt hnot⟩, fun h => h.1 hle⟩
  · have hlt : estimatedTime < timePassed := UInt32.not_le.mp hle
    rw [progressTold_iff_of_lt hlt]
    exact ⟨fun h => ⟨fun h' => absurd h' hle, fun _ => h⟩, fun h => h.2 hlt⟩

/-- A year is shown as no time at all. -/
theorem full_year_lost : ¬ decode (etaString 31536000) = some 31536000 := by
  rw [decode_eq_self_iff]
  decide

end PowerScreen.Duration
