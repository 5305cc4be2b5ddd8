import PowerScreen.Library.Binary64
import PowerScreen.Library.Decimal

/-! # Decimal fractions in texts

Doubles that are not negative, written with a given number of decimals or with as few as
tell them from every other double, and the texts read again.
-/
namespace PowerScreen.Library.FixedPoint
open Binary64

/-- The last `k` digits of a number. -/
def lastDigits : ℕ → ℕ → List Char
  | 0, _ => []
  | k + 1, n => lastDigits k (n / 10) ++ [Nat.digitChar (n % 10)]

/-- A number of units of `10 ^ -k`. -/
def writeUnits (k n : ℕ) : List Char :=
  Nat.toDigits 10 (n / 10 ^ k) ++ if k = 0 then [] else '.' :: lastDigits k n

def toUnits (k : ℕ) (x : ℚ) : ℕ := (roundHalfEven (x * 10 ^ k)).toNat

/-- `%.kf` -/
def writeFixed (k : ℕ) (x : ℚ) : List Char := writeUnits k (toUnits k x)

/-- The decimals a double needs to be read as itself. -/
def decimals (x : ℚ) : ℕ :=
  ((List.range 17).find? fun k => roundDouble (toUnits k x / 10 ^ k) = x).getD 17

/-- `{}`, for a size that is written without an exponent. -/
def writeShortest (x : ℚ) : List Char := writeFixed (decimals x) x

/-- The decimal fraction a text begins with, and what comes behind it. -/
def readFraction (t : List Char) : Option (ℚ × List Char) :=
  let whole := t.takeWhile Char.isDigit
  if whole = [] then none
  else match t.dropWhile Char.isDigit with
    | '.' :: rest =>
      let frac := rest.takeWhile Char.isDigit
      some (Nat.ofDigitChars 10 (whole ++ frac) 0 / 10 ^ frac.length, rest.dropWhile Char.isDigit)
    | rest => some (Nat.ofDigitChars 10 whole 0, rest)

theorem length_lastDigits (k n : ℕ) : (lastDigits k n).length = k := by
  induction k generalizing n with
  | zero => rfl
  | succ k ih => simp [lastDigits, ih]

theorem isDigit_of_mem_lastDigits {k n : ℕ} {c : Char} (h : c ∈ lastDigits k n) : c.isDigit := by
  induction k generalizing n with
  | zero => simp [lastDigits] at h
  | succ k ih =>
    rcases List.mem_append.mp h with h | h
    · exact ih h
    · rw [List.mem_singleton.mp h]
      exact Decimal.isDigit_of_mem_toDigits (n := n % 10)
        (by simp [Nat.toDigits_of_lt_base (Nat.mod_lt n (by decide : 0 < 10))])

theorem ofDigitChars_lastDigits (k n i : ℕ) :
    Nat.ofDigitChars 10 (lastDigits k n) i = 10 ^ k * i + n % 10 ^ k := by
  induction k generalizing n with
  | zero => simp [lastDigits, Nat.mod_one]
  | succ k ih =>
    have hlt : n % 10 < 10 := Nat.mod_lt _ (by decide)
    rw [lastDigits, Nat.ofDigitChars_append, ih, Nat.ofDigitChars_cons_digitChar_of_lt_ten hlt,
      Nat.ofDigitChars_nil, Nat.pow_succ', Nat.mod_mul]
    ring

/-- A written number of units is read as it, with nothing behind it. -/
theorem readFraction_writeUnits (k n : ℕ) :
    readFraction (writeUnits k n) = some ((n : ℚ) / 10 ^ k, []) := by
  have hdigits : ∀ c ∈ Nat.toDigits 10 (n / 10 ^ k), c.isDigit = true :=
    fun c hc => Decimal.isDigit_of_mem_toDigits hc
  have hlast : ∀ c ∈ lastDigits k n, c.isDigit = true := fun c hc => isDigit_of_mem_lastDigits hc
  by_cases hk : k = 0
  · subst hk
    rw [pow_zero, Nat.div_one] at hdigits
    simp [readFraction, writeUnits, List.takeWhile_eq_self_iff.mpr hdigits,
      List.dropWhile_eq_nil_iff.mpr hdigits, Nat.toDigits_ne_nil, Nat.ofDigitChars_ten_toDigits]
  · have hvalue : Nat.ofDigitChars 10 (Nat.toDigits 10 (n / 10 ^ k) ++ lastDigits k n) 0 = n := by
      rw [Nat.ofDigitChars_append, Nat.ofDigitChars_ten_toDigits, ofDigitChars_lastDigits]
      exact Nat.div_add_mod n (10 ^ k)
    rw [writeUnits, if_neg hk, readFraction, List.takeWhile_append_of_pos hdigits,
      List.dropWhile_append_of_pos hdigits]
    simp [Nat.toDigits_ne_nil, List.takeWhile_eq_self_iff.mpr hlast,
      List.dropWhile_eq_nil_iff.mpr hlast, hvalue, length_lastDigits]

section Tenths

variable {n : ℕ}

theorem ulp_tenth_le (hn : n < 2 ^ 48) : ulp ((n : ℚ) / 10) ≤ 2 ^ (-7 : ℤ) := by
  rw [ulp]
  refine zpow_le_zpow_right₀ (by norm_num) ?_
  rcases Nat.eq_zero_or_pos n with rfl | hpos
  · simp
  · have hq : 0 < |(n : ℚ) / 10| := by positivity
    have hlt : |(n : ℚ) / 10| < ((2 : ℕ) : ℚ) ^ (45 : ℤ) := by
      have hn' : (n : ℚ) < 2 ^ 48 := by exact_mod_cast hn
      have hpow : (2 : ℚ) ^ 48 / 10 < ((2 : ℕ) : ℚ) ^ (45 : ℤ) := by norm_num
      rw [abs_of_nonneg (by positivity)]
      linarith
    have hlog := (Int.lt_zpow_iff_log_lt (b := 2) (by norm_num) hq).mp hlt
    omega

/-- The double next to a tenth of a number keeps the tenth. -/
theorem toUnits_one (hn : n < 2 ^ 48) : toUnits 1 (roundDouble (n / 10)) = n := by
  have herr := abs_sub_roundDouble ((n : ℚ) / 10)
  have hulp := ulp_tenth_le hn
  have hnear : |roundDouble (n / 10) * 10 ^ 1 - (n : ℤ)| < 1 / 2 := by
    obtain ⟨hl, hh⟩ := abs_le.mp herr
    norm_num at hulp
    rw [abs_lt]
    push_cast
    constructor <;> linarith
  rw [toUnits, roundHalfEven_of_lt hnear, Int.toNat_natCast]

theorem toUnits_zero {j : ℕ} : toUnits 0 (j : ℚ) = j := by
  have hint : ((j : ℚ) * 10 ^ 0) = ((j : ℤ) : ℚ) := by simp
  rw [toUnits, hint, roundHalfEven_intCast, Int.toNat_natCast]

theorem toUnits_zero_tenth_lt (hn : n < 2 ^ 48) :
    toUnits 0 (roundDouble ((n : ℚ) / 10)) < 2 ^ 46 := by
  obtain ⟨hl, hh⟩ := abs_le.mp (abs_sub_roundDouble ((n : ℚ) / 10))
  have hulp := ulp_tenth_le hn
  have hn' : (n : ℚ) < 2 ^ 48 := by exact_mod_cast hn
  obtain ⟨hl', hh'⟩ := abs_le.mp (abs_sub_roundHalfEven (roundDouble ((n : ℚ) / 10) * 10 ^ 0))
  have hlt : ((roundHalfEven (roundDouble ((n : ℚ) / 10) * 10 ^ 0) : ℤ) : ℚ) < (2 ^ 46 : ℤ) := by
    norm_num at hulp hl' hh' ⊢
    linarith
  have hlt' : roundHalfEven (roundDouble ((n : ℚ) / 10) * 10 ^ 0) < 2 ^ 46 := by exact_mod_cast hlt
  rw [toUnits]
  omega

/-- A tenth is written with one decimal, or with none where it is a whole number. -/
theorem decimals_tenth (hn : n < 2 ^ 48) :
    decimals (roundDouble (n / 10)) = if n % 10 = 0 then 0 else 1 := by
  have hone : roundDouble (toUnits 1 (roundDouble (n / 10)) / 10 ^ 1) = roundDouble (n / 10) := by
    rw [toUnits_one hn, pow_one]
  split_ifs with hten
  · obtain ⟨j, rfl⟩ := Nat.dvd_of_mod_eq_zero hten
    have hj : roundDouble (((10 * j : ℕ) : ℚ) / 10) = j := by
      rw [show ((10 * j : ℕ) : ℚ) / 10 = (j : ℚ) by push_cast; ring,
        roundDouble_natCast (by omega)]
    have hzero : roundDouble (toUnits 0 (j : ℚ) / 10 ^ 0) = j := by
      rw [toUnits_zero, pow_zero, div_one, roundDouble_natCast (by omega)]
    rw [decimals, hj, List.range_succ_eq_map, List.find?_cons_of_pos (by simpa using hzero)]
    rfl
  · have hzero : roundDouble (toUnits 0 (roundDouble (n / 10)) / 10 ^ 0) ≠ roundDouble (n / 10) := by
      -- If it was a whole number, ten times as much would be rounded to a multiple of ten.
      intro h
      have hlt := toUnits_zero_tenth_lt hn
      rw [pow_zero, div_one, roundDouble_natCast (by omega)] at h
      have hten' := roundDouble_mul_ten hn
      rw [← h] at hten'
      norm_cast at hten'
      rw [roundDouble_natCast (by omega)] at hten'
      norm_cast at hten'
      omega
    have hrange : List.range 17 = 0 :: 1 :: (List.range 15).map (· + 2) := by decide
    rw [decimals, hrange, List.find?_cons_of_neg (by simpa using hzero),
      List.find?_cons_of_pos (by simpa using hone)]
    rfl

/-- What is written for the double next to a tenth is read as exactly the tenth. -/
theorem readFraction_writeShortest_tenth (hn : n < 2 ^ 48) :
    readFraction (writeShortest (roundDouble (n / 10))) = some ((n : ℚ) / 10, []) := by
  rw [writeShortest, writeFixed, readFraction_writeUnits, decimals_tenth hn]
  split_ifs with hten
  · obtain ⟨j, rfl⟩ := Nat.dvd_of_mod_eq_zero hten
    rw [show ((10 * j : ℕ) : ℚ) / 10 = (j : ℚ) by push_cast; ring,
      roundDouble_natCast (by omega), toUnits_zero, pow_zero, div_one]
  · rw [toUnits_one hn, pow_one]

theorem writeFixed_tenth (hn : n < 2 ^ 48) :
    writeFixed 1 (roundDouble (n / 10)) = writeUnits 1 n := by
  rw [writeFixed, toUnits_one hn]

end Tenths

end PowerScreen.Library.FixedPoint
