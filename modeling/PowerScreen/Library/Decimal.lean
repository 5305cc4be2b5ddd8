import Mathlib.Data.List.TakeWhile
import Mathlib.Tactic.NormNum

/-! # Decimal numbers in texts

Reading a number the way the C++ library does, from the beginning of a text, and the
digits that are written for one.
-/
namespace PowerScreen.Library.Decimal

def leadingNumber (cs : List Char) : Option ℤ :=
  let digits := cs.takeWhile Char.isDigit
  if digits = [] then none else some (Nat.ofDigitChars 10 digits 0)

/-- The number a text begins with; a text without one, or a number that is no `int`, is
an exception. -/
def stoi (s : String) : Option ℤ :=
  (match s.toList.dropWhile Char.isWhitespace with
    | '-' :: cs => (leadingNumber cs).map (- ·)
    | '+' :: cs => leadingNumber cs
    | cs => leadingNumber cs).filter fun z => -2 ^ 31 ≤ z ∧ z < 2 ^ 31

theorem ne_of_isDigit {c d : Char} (hc : c.isDigit) (hd : d.isDigit = false) : c ≠ d := by
  rintro rfl
  simp [hc] at hd

theorem toNat_lt_of_isDigit {c : Char} (h : c.isDigit) : c.toNat < 128 := by
  have hle : c.val ≤ 57 := by
    simp only [Char.isDigit, Bool.and_eq_true, decide_eq_true_eq] at h
    exact h.2
  exact Nat.lt_of_le_of_lt (UInt32.le_iff_toNat_le.mp hle) (by decide)

theorem not_isWhitespace_of_isDigit {c : Char} (hc : c.isDigit) : c.isWhitespace = false := by
  unfold Char.isWhitespace
  simp [ne_of_isDigit hc (d := ' ') (by decide), ne_of_isDigit hc (d := '\t') (by decide),
    ne_of_isDigit hc (d := '\r') (by decide), ne_of_isDigit hc (d := '\n') (by decide)]

theorem isDigit_of_mem_toDigits {n : ℕ} {c : Char} (h : c ∈ Nat.toDigits 10 n) : c.isDigit :=
  Nat.isDigit_of_mem_toDigits (by decide) (by decide) h

theorem leadingNumber_toDigits (n : ℕ) : leadingNumber (Nat.toDigits 10 n) = some (n : ℤ) := by
  have hdigits : (Nat.toDigits 10 n).takeWhile Char.isDigit = Nat.toDigits 10 n := by
    exact List.takeWhile_eq_self_iff.mpr fun c hc => isDigit_of_mem_toDigits hc
  rw [leadingNumber, hdigits]
  simp [Nat.toDigits_ne_nil, Nat.ofDigitChars_ten_toDigits]

theorem toList_toString_ofNat (n : ℕ) : (toString (Int.ofNat n)).toList = Nat.toDigits 10 n :=
  Nat.toList_repr

theorem toList_toString_negSucc (n : ℕ) :
    (toString (Int.negSucc n)).toList = '-' :: Nat.toDigits 10 (n + 1) := by
  have hrepr : toString (Int.negSucc n) = "-" ++ (n + 1).repr := rfl
  rw [hrepr, String.toList_append, Nat.toList_repr]
  rfl

theorem eq_or_isDigit_of_mem {z : ℤ} {c : Char} (h : c ∈ (toString z).toList) :
    c = '-' ∨ c.isDigit := by
  cases z with
  | ofNat n => exact Or.inr (isDigit_of_mem_toDigits (toList_toString_ofNat n ▸ h))
  | negSucc n =>
    rw [toList_toString_negSucc, List.mem_cons] at h
    exact h.imp_right isDigit_of_mem_toDigits

/-- What is written for a number is read as it. -/
theorem stoi_toString {z : ℤ} (h : -2 ^ 31 ≤ z ∧ z < 2 ^ 31) : stoi (toString z) = some z := by
  cases z with
  | ofNat n =>
    obtain ⟨c, cs, hcs⟩ := List.exists_cons_of_ne_nil (Nat.toDigits_ne_nil (b := 10) (n := n))
    have hc : c.isDigit := isDigit_of_mem_toDigits (n := n) (hcs ▸ List.mem_cons_self)
    have hdrop : (c :: cs).dropWhile Char.isWhitespace = c :: cs :=
      List.dropWhile_cons_of_neg (by simp [not_isWhitespace_of_isDigit hc])
    have hnum := leadingNumber_toDigits n
    rw [hcs] at hnum
    rw [stoi, toList_toString_ofNat, hcs, hdrop]
    split
    · rename_i heq
      exact absurd (List.cons.inj heq).1 (ne_of_isDigit hc (by decide))
    · rename_i heq
      exact absurd (List.cons.inj heq).1 (ne_of_isDigit hc (by decide))
    · rw [hnum]
      simpa [Option.filter] using h
  | negSucc n =>
    rw [stoi, toList_toString_negSucc, List.dropWhile_cons_of_neg (by decide)]
    change Option.filter _ ((leadingNumber (Nat.toDigits 10 (n + 1))).map (- ·)) = _
    rw [leadingNumber_toDigits]
    simpa [Option.filter, Int.negSucc_eq] using h

end PowerScreen.Library.Decimal
