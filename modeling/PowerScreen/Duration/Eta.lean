import PowerScreen.Library.Decimal
import PowerScreen.Library.JsonPointer

/-! # Durations as texts

A duration is broken down like a point of time: the days are the day of the year, counted from
the beginning of 1970.
-/
namespace PowerScreen.Duration
open Library Library.Decimal

def isLeap (year : ℕ) : Bool := year % 4 = 0 && (year % 100 ≠ 0 || year % 400 = 0)

def yearDays (year : ℕ) : ℕ := if isLeap year then 366 else 365

theorem yearDays_pos (year : ℕ) : 0 < yearDays year := by
  rw [yearDays]
  split_ifs <;> decide

/-- The day of the year, this many days after the beginning of a year. -/
def dayOfYear (days year : ℕ) : ℕ :=
  if days < yearDays year then days else dayOfYear (days - yearDays year) (year + 1)
termination_by days
decreasing_by
  have hpos := yearDays_pos year
  omega

/-- The fields of `tm` that are read. -/
structure Tm where
  yday : ℕ
  hour : ℕ
  min : ℕ
  sec : ℕ

def gmtime (s : ℕ) : Tm :=
  ⟨dayOfYear (s / 86400) 1970, s % 86400 / 3600, s % 3600 / 60, s % 60⟩

/-- A part with its unit and a blank, unless it is zero. -/
def part (n : ℕ) (letter : Char) : List Char :=
  if 0 < n then Nat.toDigits 10 n ++ [letter, ' '] else []

def etaString (s : ℕ) : List Char :=
  part (gmtime s).yday 'd' ++ (part (gmtime s).hour 'h' ++ (part (gmtime s).min 'm' ++
    (Nat.toDigits 10 (gmtime s).sec ++ ['s'])))

def unitSeconds : Char → Option ℕ
  | 'd' => some 86400
  | 'h' => some 3600
  | 'm' => some 60
  | 's' => some 1
  | _ => none

def readPart (cs : List Char) : Option ℕ :=
  (cs.getLast?.bind unitSeconds).bind fun unit =>
    if cs.dropLast ≠ [] ∧ cs.dropLast.all Char.isDigit then
      some (Nat.ofDigitChars 10 cs.dropLast 0 * unit)
    else none

/-- The sum of the parts of a text. -/
def decode (cs : List Char) : Option ℕ :=
  ((Json.splitOn ' ' cs).mapM readPart).map List.sum

theorem readPart_append {cs : List Char} (hne : cs ≠ []) (hcs : ∀ c ∈ cs, c.isDigit) {letter : Char}
    {unit : ℕ} (hunit : unitSeconds letter = some unit) :
    readPart (cs ++ [letter]) = some (Nat.ofDigitChars 10 cs 0 * unit) := by
  rw [readPart, List.getLast?_concat, Option.bind_some, hunit, Option.bind_some,
    List.dropLast_concat, if_pos ⟨hne, List.all_eq_true.mpr hcs⟩]

theorem readPart_digits (n : ℕ) {letter : Char} {unit : ℕ} (hunit : unitSeconds letter = some unit) :
    readPart (Nat.toDigits 10 n ++ [letter]) = some (n * unit) := by
  rw [readPart_append Nat.toDigits_ne_nil (fun c hc => isDigit_of_mem_toDigits hc) hunit,
    Nat.ofDigitChars_ten_toDigits]

theorem blank_notMem_toDigits (n : ℕ) : ' ' ∉ Nat.toDigits 10 n := fun h =>
  absurd (isDigit_of_mem_toDigits h) (by decide)

theorem decode_part (n : ℕ) {letter : Char} {unit : ℕ} (hunit : unitSeconds letter = some unit)
    (hblank : letter ≠ ' ') {cs : List Char} {r : ℕ} (hr : decode cs = some r) :
    decode (part n letter ++ cs) = some (n * unit + r) := by
  rw [part]
  split_ifs with hn
  · obtain ⟨rs, hrs, rfl⟩ := Option.map_eq_some_iff.mp hr
    have hpart : ' ' ∉ Nat.toDigits 10 n ++ [letter] := by
      rw [List.mem_append, List.mem_singleton, not_or]
      exact ⟨blank_notMem_toDigits n, hblank.symm⟩
    have happend : Nat.toDigits 10 n ++ [letter, ' '] ++ cs =
        Nat.toDigits 10 n ++ [letter] ++ ' ' :: cs := by simp
    rw [happend, decode, Json.splitOn_append hpart, List.mapM_cons, readPart_digits n hunit, hrs]
    rfl
  · have hzero : n = 0 := by omega
    rw [List.nil_append, hr, hzero, Nat.zero_mul, Nat.zero_add]

/-- A last part stands alone. -/
theorem decode_last {cs : List Char} (hne : cs ≠ []) (hcs : ∀ c ∈ cs, c.isDigit) {letter : Char}
    {unit : ℕ} (hunit : unitSeconds letter = some unit) (hblank : letter ≠ ' ') :
    decode (cs ++ [letter]) = some (Nat.ofDigitChars 10 cs 0 * unit) := by
  have hpart : ' ' ∉ cs ++ [letter] := by
    rw [List.mem_append, List.mem_singleton, not_or]
    exact ⟨fun h => absurd (hcs _ h) (by decide), hblank.symm⟩
  rw [decode, Json.splitOn_of_not_mem hpart, List.mapM_cons, List.mapM_nil,
    readPart_append hne hcs hunit]
  rfl

theorem decode_digits (n : ℕ) {letter : Char} {unit : ℕ} (hunit : unitSeconds letter = some unit)
    (hblank : letter ≠ ' ') : decode (Nat.toDigits 10 n ++ [letter]) = some (n * unit) := by
  rw [decode_last Nat.toDigits_ne_nil (fun c hc => isDigit_of_mem_toDigits hc) hunit hblank,
    Nat.ofDigitChars_ten_toDigits]

/-- What a text stands for: the fields, whatever the days are. -/
theorem decode_etaString (s : ℕ) :
    decode (etaString s) = some ((gmtime s).yday * 86400 + s % 86400) := by
  have hsec := decode_digits (gmtime s).sec (by decide : unitSeconds 's' = some 1) (by decide)
  have hmin := decode_part (gmtime s).min (by decide : unitSeconds 'm' = some 60) (by decide) hsec
  have hhour := decode_part (gmtime s).hour (by decide : unitSeconds 'h' = some 3600) (by decide) hmin
  have hday := decode_part (gmtime s).yday (by decide : unitSeconds 'd' = some 86400) (by decide) hhour
  have hsum : (gmtime s).hour * 3600 + ((gmtime s).min * 60 + (gmtime s).sec * 1) = s % 86400 := by
    simp only [gmtime]
    omega
  rw [etaString, hday, hsum]

theorem dayOfYear_le (days year : ℕ) : dayOfYear days year ≤ days := by
  induction days using Nat.strongRecOn generalizing year with
  | ind days ih =>
    rw [dayOfYear]
    split_ifs with hlt
    · exact le_rfl
    · have hpos := yearDays_pos year
      exact (ih _ (by omega) _).trans (Nat.sub_le _ _)

/-- The days are all there only within the first year. -/
theorem dayOfYear_eq_self_iff (days year : ℕ) : dayOfYear days year = days ↔ days < yearDays year := by
  rw [dayOfYear]
  split_ifs with hlt
  · exact iff_of_true rfl hlt
  · have hpos := yearDays_pos year
    have hle := dayOfYear_le (days - yearDays year) (year + 1)
    exact iff_of_false (by omega) hlt

theorem decode_eq_self_iff (s : ℕ) : decode (etaString s) = some s ↔ s < 365 * 86400 := by
  have hyear : yearDays 1970 = 365 := by decide
  have hdays := dayOfYear_eq_self_iff (s / 86400) 1970
  rw [hyear] at hdays
  have hyday : (gmtime s).yday = dayOfYear (s / 86400) 1970 := rfl
  rw [decode_etaString, Option.some_inj, hyday]
  constructor
  · intro h
    have hlt := hdays.mp (by omega)
    omega
  · intro h
    rw [hdays.mpr (by omega)]
    omega

end PowerScreen.Duration
