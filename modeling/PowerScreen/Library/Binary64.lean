import Mathlib.Algebra.Order.Floor.Div
import Mathlib.Data.Int.Log
import Mathlib.Data.Rat.Floor
import Mathlib.Tactic.FieldSimp
import Mathlib.Tactic.Linarith
import Mathlib.Tactic.NormNum
import Mathlib.Tactic.Ring

/-! # Rounding to binary64

A real operation on doubles gives the double next to its exact result, and of two that are
equally near the one with an even significand. Exact results are rational numbers here, and
no exponent is out of range.
-/
namespace PowerScreen.Library.Binary64

/-- The nearest integer; between two of them, the even one. -/
def roundHalfEven (x : ℚ) : ℤ :=
  if x - ⌊x⌋ < 1 / 2 then ⌊x⌋
  else if 1 / 2 < x - ⌊x⌋ then ⌊x⌋ + 1
  else if ⌊x⌋ % 2 = 0 then ⌊x⌋ else ⌊x⌋ + 1

/-- How far apart doubles are at the size of `x`. -/
def ulp (x : ℚ) : ℚ := 2 ^ (Int.log 2 |x| - 52)

def roundDouble (x : ℚ) : ℚ := roundHalfEven (x / ulp x) * ulp x

theorem abs_sub_roundHalfEven (x : ℚ) : |x - roundHalfEven x| ≤ 1 / 2 := by
  have hlow := Int.floor_le x
  have hhigh := Int.lt_floor_add_one x
  rw [roundHalfEven, abs_le]
  split_ifs with hlt hgt heven
  · constructor <;> linarith
  · push_cast
    constructor <;> linarith
  · constructor <;> linarith
  · push_cast
    constructor <;> linarith

theorem roundHalfEven_of_lt {x : ℚ} {n : ℤ} (h : |x - n| < 1 / 2) : roundHalfEven x = n := by
  obtain ⟨hlow, hhigh⟩ := abs_le.mp (abs_sub_roundHalfEven x)
  obtain ⟨hl, hh⟩ := abs_lt.mp h
  have hlt : ((roundHalfEven x : ℤ) : ℚ) < n + 1 := by linarith
  have hgt : (n : ℚ) < roundHalfEven x + 1 := by linarith
  have hlt' : roundHalfEven x < n + 1 := by exact_mod_cast hlt
  have hgt' : n < roundHalfEven x + 1 := by exact_mod_cast hgt
  omega

theorem roundHalfEven_intCast (n : ℤ) : roundHalfEven n = n :=
  roundHalfEven_of_lt (by norm_num)

/-- An even number also gets what is just half-way to the next one. -/
theorem roundHalfEven_of_even {x : ℚ} {n : ℤ} (hn : n % 2 = 0) (h : |x - n| ≤ 1 / 2) :
    roundHalfEven x = n := by
  obtain ⟨hl, hh⟩ := abs_le.mp h
  rcases lt_or_ge x n with hx | hx
  · have hfloor : ⌊x⌋ = n - 1 := Int.floor_eq_iff.mpr ⟨by push_cast; linarith, by push_cast; linarith⟩
    have hodd : (n - 1) % 2 ≠ 0 := by omega
    rw [roundHalfEven, hfloor, if_neg (by push_cast; linarith), if_neg hodd]
    split_ifs <;> ring
  · have hfloor : ⌊x⌋ = n := Int.floor_eq_iff.mpr ⟨hx, by linarith⟩
    rw [roundHalfEven, hfloor, if_neg (by linarith : ¬ 1 / 2 < x - n), if_pos hn]
    split_ifs <;> rfl

theorem ulp_pos (x : ℚ) : 0 < ulp x := zpow_pos (by norm_num) _

theorem ulp_eq {x : ℚ} {e : ℤ} (hlow : 2 ^ e ≤ |x|) (hhigh : |x| < 2 ^ (e + 1)) :
    ulp x = 2 ^ (e - 52) := by
  have hx : 0 < |x| := lt_of_lt_of_le (zpow_pos (by norm_num) e) hlow
  have hle : e ≤ Int.log 2 |x| := (Int.zpow_le_iff_le_log (by norm_num) hx).mp hlow
  have hlt : Int.log 2 |x| < e + 1 := (Int.lt_zpow_iff_log_lt (by norm_num) hx).mp hhigh
  rw [ulp, show Int.log 2 |x| = e by omega]

theorem abs_sub_roundDouble (x : ℚ) : |x - roundDouble x| ≤ ulp x / 2 := by
  have hu := ulp_pos x
  have hx : x - roundDouble x = (x / ulp x - roundHalfEven (x / ulp x)) * ulp x := by
    rw [roundDouble, sub_mul, div_mul_cancel₀ _ hu.ne']
  calc |x - roundDouble x| = |x / ulp x - roundHalfEven (x / ulp x)| * ulp x := by
        rw [hx, abs_mul, abs_of_pos hu]
    _ ≤ 1 / 2 * ulp x := by gcongr; exact abs_sub_roundHalfEven _
    _ = ulp x / 2 := by ring

/-- A number with an even significand is what everything within half a step of it becomes. -/
theorem roundDouble_of_even {x : ℚ} {n : ℤ} (hn : n % 2 = 0) (h : |x - n * ulp x| ≤ ulp x / 2) :
    roundDouble x = n * ulp x := by
  have hu := ulp_pos x
  have hdiv : x / ulp x - n = (x - n * ulp x) / ulp x := by field_simp
  have habs : |x / ulp x - n| ≤ 1 / 2 := by
    rw [hdiv, abs_div, abs_of_pos hu, div_le_iff₀ hu]
    linarith
  rw [roundDouble, roundHalfEven_of_even hn habs]

/-- Steps that are finer by `2 ^ j` than those of doubles of this size: an even double next to
them takes them. -/
theorem roundDouble_steps {e N T : ℤ} {j : ℕ} (hlow : 2 ^ (52 + j) ≤ N)
    (hhigh : N < 2 ^ (53 + j)) (heven : 2 ^ (j + 1) ∣ T) (hnear : 2 * |N - T| ≤ 2 ^ j) :
    roundDouble (N * 2 ^ (e - 52)) = T * 2 ^ (e - 52) := by
  have hu : (0 : ℚ) < 2 ^ (e - 52) := zpow_pos (by norm_num) _
  have hN : (0 : ℚ) < N := by
    have hpos : 0 < N := lt_of_lt_of_le (by positivity) hlow
    exact_mod_cast hpos
  have hlow' : (2 : ℚ) ^ (52 + j) ≤ N := by exact_mod_cast hlow
  have hhigh' : (N : ℚ) < 2 ^ (53 + j) := by exact_mod_cast hhigh
  have hpow : ∀ i : ℕ, (2 : ℚ) ^ (e - 52 + i) = 2 ^ i * 2 ^ (e - 52) := by
    intro i
    rw [zpow_add₀ (by norm_num), zpow_natCast, mul_comm]
  have hulp : ulp (N * 2 ^ (e - 52)) = 2 ^ j * 2 ^ (e - 52) := by
    rw [ulp_eq (e := e + j), ← hpow]
    · congr 1
      ring
    · rw [abs_of_pos (mul_pos hN hu), show e + j = e - 52 + ((52 + j : ℕ) : ℤ) by push_cast; ring,
        hpow]
      gcongr
    · rw [abs_of_pos (mul_pos hN hu),
        show e + j + 1 = e - 52 + ((53 + j : ℕ) : ℤ) by push_cast; ring, hpow]
      gcongr
  obtain ⟨c, rfl⟩ := heven
  have hval : ((2 ^ (j + 1) * c : ℤ) : ℚ) * 2 ^ (e - 52) =
      (2 * c : ℤ) * ulp (N * 2 ^ (e - 52)) := by
    rw [hulp]
    push_cast
    ring
  rw [hval]
  refine roundDouble_of_even (by omega) ?_
  rw [← hval, hulp, ← sub_mul, abs_mul, abs_of_pos hu]
  have hnear' : 2 * |(N : ℚ) - (2 ^ (j + 1) * c : ℤ)| ≤ 2 ^ j := by exact_mod_cast hnear
  nlinarith

theorem log_natCast_le {m : ℕ} (hm : m < 2 ^ 53) : Int.log 2 |(m : ℚ)| ≤ 52 := by
  rcases Nat.eq_zero_or_pos m with rfl | hpos
  · simp
  · have hlt : |(m : ℚ)| < 2 ^ (53 : ℤ) := by
      rw [Nat.abs_cast]
      exact_mod_cast hm
    have hlog := (Int.lt_zpow_iff_log_lt (b := 2) (by norm_num)
      (abs_pos.mpr (by exact_mod_cast hpos.ne') : 0 < |(m : ℚ)|)).mp hlt
    omega

/-- Whole numbers are doubles themselves. -/
theorem roundDouble_natCast {m : ℕ} (hm : m < 2 ^ 53) : roundDouble m = m := by
  obtain ⟨k, hk⟩ := Int.eq_ofNat_of_zero_le (sub_nonneg.mpr (log_natCast_le hm))
  have hinv : ulp (m : ℚ) = (2 ^ k)⁻¹ := by
    rw [ulp, show Int.log 2 |(m : ℚ)| - 52 = -(k : ℤ) by omega, zpow_neg, zpow_natCast]
  have hint : (m : ℚ) / ulp m = ((m * 2 ^ k : ℤ) : ℚ) := by
    rw [hinv]
    push_cast
    field_simp
  rw [roundDouble, hint, roundHalfEven_intCast, ← hint, div_mul_cancel₀ _ (ulp_pos _).ne']

section Tenths

variable {m : ℕ}

/-- A multiple of 256 in steps of a size, which a tenth of a whole number is rounded to. -/
theorem exists_steps (hpos : 0 < m) (hm : m < 2 ^ 48) :
    ∃ (e : ℤ) (n : ℤ), (m : ℚ) = 256 * n * 2 ^ (e - 52) ∧ ulp (m / 10) = 2 ^ (e - 52) ∧
      10 * 2 ^ 52 ≤ 256 * n ∧ 256 * n < 10 * 2 ^ 53 := by
  have hq : (0 : ℚ) < m / 10 := by positivity
  set e := Int.log 2 ((m : ℚ) / 10) with he
  have hlow : (2 : ℚ) ^ e ≤ m / 10 := by exact_mod_cast Int.zpow_log_le_self (by norm_num) hq
  have hhigh : (m : ℚ) / 10 < 2 ^ (e + 1) := by
    exact_mod_cast Int.lt_zpow_succ_log_self (b := 2) (by norm_num) ((m : ℚ) / 10)
  have he44 : e < 45 := by
    refine (Int.lt_zpow_iff_log_lt (b := 2) (by norm_num) hq).mp ?_
    have hm' : (m : ℚ) < 2 ^ 48 := by exact_mod_cast hm
    have hpow : (2 : ℚ) ^ 48 / 10 < ((2 : ℕ) : ℚ) ^ (45 : ℤ) := by norm_num
    linarith
  obtain ⟨k, hk⟩ := Int.eq_ofNat_of_zero_le (show 0 ≤ 44 - e by omega)
  have hu : (2 : ℚ) ^ (e - 52) = (256 * 2 ^ k)⁻¹ := by
    rw [show e - 52 = -((k + 8 : ℕ) : ℤ) by push_cast; omega, zpow_neg, zpow_natCast, pow_add]
    norm_num [mul_comm]
  have hstep : (0 : ℚ) < 2 ^ (e - 52) := zpow_pos (by norm_num) _
  have hm52 : (m : ℚ) = 256 * ((m * 2 ^ k : ℤ) : ℚ) * 2 ^ (e - 52) := by
    rw [hu]
    push_cast
    field_simp
  have hsplit : ∀ j : ℕ, (2 : ℚ) ^ (e + j) = 2 ^ (52 + j) * 2 ^ (e - 52) := by
    intro j
    rw [← zpow_natCast, ← zpow_add₀ (by norm_num)]
    congr 1
    push_cast
    ring
  refine ⟨e, m * 2 ^ k, hm52, ulp_eq ?_ ?_, ?_, ?_⟩
  · rwa [abs_of_pos hq]
  · rwa [abs_of_pos hq]
  · have h0 := hsplit 0
    simp only [Nat.cast_zero, add_zero] at h0
    have hle : (10 * 2 ^ 52 : ℚ) * 2 ^ (e - 52) ≤ 256 * ((m * 2 ^ k : ℤ) : ℚ) * 2 ^ (e - 52) := by
      rw [← hm52]
      linarith
    exact_mod_cast le_of_mul_le_mul_right hle hstep
  · have h1 := hsplit 1
    simp only [Nat.cast_one] at h1
    have hlt : 256 * ((m * 2 ^ k : ℤ) : ℚ) * 2 ^ (e - 52) < (10 * 2 ^ 53 : ℚ) * 2 ^ (e - 52) := by
      rw [← hm52]
      norm_num at h1 ⊢
      linarith
    exact_mod_cast lt_of_mul_lt_mul_right hlt hstep.le

/-- Ten times the double next to a tenth of a whole number is rounded to the number again. -/
theorem roundDouble_mul_ten (hm : m < 2 ^ 48) :
    roundDouble (10 * roundDouble (m / 10)) = m := by
  rcases Nat.eq_zero_or_pos m with rfl | hpos
  · simp [roundDouble, roundHalfEven]
  obtain ⟨e, n, hmn, hulp, hlow, hhigh⟩ := exists_steps hpos hm
  have hu0 : (0 : ℚ) < 2 ^ (e - 52) := zpow_pos (by norm_num) _
  -- The tenth becomes `k` steps; the steps of the number are even, so it misses by 4 at most.
  obtain ⟨k, hk⟩ : ∃ k : ℤ, roundDouble (m / 10) = k * 2 ^ (e - 52) :=
    ⟨_, by rw [roundDouble, hulp]⟩
  have hfive : |256 * n - 10 * k| ≤ 5 := by
    have herr := abs_sub_roundDouble ((m : ℚ) / 10)
    have hfactor : 256 * (n : ℚ) * 2 ^ (e - 52) / 10 - k * 2 ^ (e - 52) =
        (256 * n - 10 * k) * 2 ^ (e - 52) / 10 := by ring
    rw [hk, hulp, hmn, hfactor, abs_div, abs_mul, abs_of_pos hu0] at herr
    have hle : |(256 * n - 10 * k : ℚ)| * 2 ^ (e - 52) ≤ 5 * 2 ^ (e - 52) := by
      norm_num at herr
      linarith
    exact_mod_cast le_of_mul_le_mul_right hle hu0
  have hfour : |10 * k - 256 * n| ≤ 4 := by
    rw [abs_le] at hfive ⊢
    omega
  obtain ⟨hl, hh⟩ := abs_le.mp hfour
  -- Ten times as much has steps of 8 or 16 of the tenth's; the number is even in both.
  have hround : ∀ j : ℕ, 3 ≤ j → j ≤ 4 → 2 ^ (52 + j) ≤ 10 * k → 10 * k < 2 ^ (53 + j) →
      roundDouble (10 * roundDouble (m / 10)) = m := by
    intro j h3 h4 hge hlt
    have hdvd : (2 : ℤ) ^ (j + 1) ∣ 256 * n :=
      Dvd.dvd.mul_right (pow_dvd_pow 2 (show j + 1 ≤ 8 by omega)) n
    have height : (8 : ℤ) ≤ 2 ^ j := pow_le_pow_right₀ (by norm_num : (1 : ℤ) ≤ 2) h3
    have hstep := roundDouble_steps (e := e) hge hlt hdvd (by omega)
    push_cast at hstep
    rw [hk, ← mul_assoc, hstep, hmn]
  rcases lt_or_ge (10 * k) (2 ^ 56) with hsmall | hlarge
  · exact hround 3 (by omega) (by omega) (by norm_num at *; omega) (by norm_num; omega)
  · exact hround 4 (by omega) (by omega) (by norm_num at *; omega) (by norm_num at *; omega)

end Tenths

end PowerScreen.Library.Binary64
