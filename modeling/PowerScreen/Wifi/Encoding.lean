import PowerScreen.Library.Escaping
import PowerScreen.Library.Utf8

/-! # How the supplicant writes and reads texts

An SSID is a string of octets. The supplicant prints it with the octets that are not
printable escaped, and reads a value in one of three forms: in quotes as it stands, with
a `P` before the quotes with escapes, or as hex digits.
-/
namespace PowerScreen.Wifi
open Library

def hex2 (b : UInt8) : List Char := [Nat.digitChar (b.toNat / 16), Nat.digitChar (b.toNat % 16)]

/-- What is written for one octet. -/
def encodeOctet (b : UInt8) : List Char :=
  if b = 34 then ['\\', '"']
  else if b = 92 then ['\\', '\\']
  else if b = 27 then ['\\', 'e']
  else if b = 10 then ['\\', 'n']
  else if b = 13 then ['\\', 'r']
  else if b = 9 then ['\\', 't']
  else if 32 ≤ b ∧ b ≤ 126 then [Char.ofNat b.toNat]
  else '\\' :: 'x' :: hex2 b

/-- `room` is what is left of the buffer. -/
def printfEncode (room : ℕ) : List UInt8 → List Char
  | [] => []
  | b :: bs =>
    if room ≤ 4 then []
    else encodeOctet b ++ printfEncode (room - (encodeOctet b).length) bs

def ssidMaxLen : ℕ := 32

def wpaSsidTxt (ssid : List UInt8) : List Char := printfEncode (ssidMaxLen * 4 + 1) ssid

def hex2num (c : UInt8) : Option UInt8 :=
  if 48 ≤ c ∧ c ≤ 57 then some (c - 48)
  else if 97 ≤ c ∧ c ≤ 102 then some (c - 97 + 10)
  else if 65 ≤ c ∧ c ≤ 70 then some (c - 65 + 10)
  else none

def hex2byte : List UInt8 → Option UInt8
  | a :: b :: _ => do return (← hex2num a) * 16 + (← hex2num b)
  | _ => none

def hexstr2bin : List UInt8 → Option (List UInt8)
  | a :: b :: cs => do return (← hex2byte [a, b]) :: (← hexstr2bin cs)
  | _ => some []

def octalDigit (c : UInt8) : Bool := 48 ≤ c ∧ c ≤ 55

/-- A further octal digit of an escape, if there is one. -/
def octalMore (val : UInt8) : List UInt8 → UInt8 × List UInt8
  | [] => (val, [])
  | c :: cs => if octalDigit c then (val * 8 + (c - 48), cs) else (val, c :: cs)

/-- The hex digits after `\\x`, two or one; without one nothing is written. -/
def decodeHex (cs : List UInt8) : Option UInt8 × List UInt8 :=
  match hex2byte cs with
  | some val => (some val, cs.drop 2)
  | none =>
    match cs.head?.bind hex2num with
    | some val => (some val, cs.drop 1)
    | none => (none, cs)

def escapeLetter (c : UInt8) : Option UInt8 :=
  if c = 92 then some 92
  else if c = 34 then some 34
  else if c = 110 then some 10
  else if c = 114 then some 13
  else if c = 116 then some 9
  else if c = 101 then some 27
  else none

/-- What follows a backslash: the octet it stands for and what is left of the text. -/
def decodeEscape : List UInt8 → Option UInt8 × List UInt8
  | [] => (none, [])
  | c :: cs =>
    match escapeLetter c with
    | some val => (some val, cs)
    | none =>
      if c = 120 then decodeHex cs
      else if octalDigit c then
        let first := octalMore (c - 48) cs
        let second := octalMore first.1 first.2
        (some second.1, second.2)
      else (none, c :: cs)

theorem length_octalMore (val : UInt8) (cs : List UInt8) :
    (octalMore val cs).2.length ≤ cs.length := by
  cases cs with
  | nil => rfl
  | cons c cs =>
    rw [octalMore]
    split <;> simp

theorem length_decodeHex (cs : List UInt8) : (decodeHex cs).2.length ≤ cs.length := by
  unfold decodeHex
  split
  · simp
  · split <;> simp

theorem length_decodeEscape (cs : List UInt8) : (decodeEscape cs).2.length ≤ cs.length := by
  cases cs with
  | nil => rfl
  | cons c cs =>
    rw [decodeEscape]
    split
    · simp
    · split_ifs
      · exact (length_decodeHex cs).trans (Nat.le_succ _)
      · have hfirst := length_octalMore (c - 48) cs
        have hsecond := length_octalMore (octalMore (c - 48) cs).1 (octalMore (c - 48) cs).2
        exact (hsecond.trans hfirst).trans (Nat.le_succ _)
      · rfl

/-- One turn of the loop. -/
def decodeNext (c : UInt8) (cs : List UInt8) : Option UInt8 × List UInt8 :=
  if c = 92 then decodeEscape cs else (some c, cs)

theorem length_decodeNext (c : UInt8) (cs : List UInt8) :
    (decodeNext c cs).2.length ≤ cs.length := by
  unfold decodeNext
  split
  · exact length_decodeEscape cs
  · rfl

def printfDecode (room : ℕ) : List UInt8 → List UInt8
  | [] => []
  | c :: cs =>
    if room ≤ 1 then []
    else match (decodeNext c cs).1 with
      | some val => val :: printfDecode (room - 1) (decodeNext c cs).2
      | none => printfDecode room (decodeNext c cs).2
termination_by s => s.length
decreasing_by
  all_goals exact Nat.lt_succ_of_le (length_decodeNext c cs)

/-- What stands before the last quote, which has to end the text. -/
def untilQuote (value : List UInt8) : Option (List UInt8) :=
  if value.getLast? = some 34 then some value.dropLast else none

def wpaConfigParseString (value : List UInt8) : Option (List UInt8) :=
  if value.head? = some 34 then untilQuote value.tail
  else if value.take 2 = [80, 34] then
    (untilQuote (value.drop 2)).map fun t => printfDecode (t.length + 1) t
  else if value.length % 2 = 1 then none
  else hexstr2bin value

/-- An octet that is printed as itself. -/
def PlainOctet (b : UInt8) : Prop := 32 ≤ b ∧ b ≤ 126 ∧ b ≠ 34 ∧ b ≠ 92

instance (b : UInt8) : Decidable (PlainOctet b) := inferInstanceAs (Decidable (_ ∧ _))

/-- An octet is written as itself, as a letter behind a backslash or as two hex digits. -/
theorem encodeOctet_cases (b : UInt8) :
    (PlainOctet b ∧ encodeOctet b = [Char.ofNat b.toNat]) ∨
    (¬ PlainOctet b ∧ ∃ l : Char, 32 ≤ l.toNat ∧ l.toNat ≤ 126 ∧
      escapeLetter (UInt8.ofNat l.toNat) = some b ∧ encodeOctet b = ['\\', l]) ∨
    (¬ PlainOctet b ∧ encodeOctet b = '\\' :: 'x' :: hex2 b) := by
  unfold encodeOctet
  split_ifs with hquote hback hesc hnl hcr htab hrange
  · exact Or.inr (Or.inl ⟨by subst hquote; decide, '"', by subst hquote; decide⟩)
  · exact Or.inr (Or.inl ⟨by subst hback; decide, '\\', by subst hback; decide⟩)
  · exact Or.inr (Or.inl ⟨by subst hesc; decide, 'e', by subst hesc; decide⟩)
  · exact Or.inr (Or.inl ⟨by subst hnl; decide, 'n', by subst hnl; decide⟩)
  · exact Or.inr (Or.inl ⟨by subst hcr; decide, 'r', by subst hcr; decide⟩)
  · exact Or.inr (Or.inl ⟨by subst htab; decide, 't', by subst htab; decide⟩)
  · exact Or.inl ⟨⟨hrange.1, hrange.2, hquote, hback⟩, rfl⟩
  · exact Or.inr (Or.inr ⟨fun h => hrange ⟨h.1, h.2.1⟩, rfl⟩)

theorem length_encodeOctet (b : UInt8) :
    1 ≤ (encodeOctet b).length ∧ (encodeOctet b).length ≤ 4 := by
  unfold encodeOctet
  split_ifs <;> simp [hex2]

/-- The buffer has room for four characters an octet, which is what one takes at most. -/
theorem printfEncode_eq {room : ℕ} {bs : List UInt8} (h : 4 * bs.length < room) :
    printfEncode room bs = bs.flatMap encodeOctet := by
  induction bs generalizing room with
  | nil => rfl
  | cons b bs ih =>
    have hlen := (length_encodeOctet b).2
    rw [List.length_cons] at h
    rw [printfEncode, if_neg (by omega), ih (by omega), List.flatMap_cons]

theorem wpaSsidTxt_eq {ssid : List UInt8} (h : ssid.length ≤ ssidMaxLen) :
    wpaSsidTxt ssid = ssid.flatMap encodeOctet :=
  printfEncode_eq (by omega)

theorem toNat_digitChar {d : ℕ} (h : d < 16) :
    32 ≤ (Nat.digitChar d).toNat ∧ (Nat.digitChar d).toNat ≤ 126 := by
  interval_cases d <;> decide

theorem hex2num_digitChar {d : ℕ} (h : d < 16) :
    hex2num (UInt8.ofNat (Nat.digitChar d).toNat) = some (UInt8.ofNat d) := by
  interval_cases d <;> decide

theorem hex_digits_lt (b : UInt8) : b.toNat / 16 < 16 ∧ b.toNat % 16 < 16 := by
  have hb := b.toNat_lt
  omega

theorem toNat_ofNat_octet (b : UInt8) : (Char.ofNat b.toNat).toNat = b.toNat := by
  have hb := b.toNat_lt
  rw [Char.ofNat, dif_pos (Or.inl (by omega : b.toNat < 55296))]
  rfl

/-- Everything that is written is printable. -/
theorem toNat_of_mem_encodeOctet {b : UInt8} {c : Char} (h : c ∈ encodeOctet b) :
    32 ≤ c.toNat ∧ c.toNat ≤ 126 := by
  rcases encodeOctet_cases b with ⟨hplain, henc⟩ | ⟨-, l, hlow, hhigh, -, henc⟩ | ⟨-, henc⟩
  · rw [henc, List.mem_singleton] at h
    rw [h, toNat_ofNat_octet]
    exact ⟨UInt8.le_iff_toNat_le.mp hplain.1, UInt8.le_iff_toNat_le.mp hplain.2.1⟩
  · simp only [henc, List.mem_cons, List.not_mem_nil, or_false] at h
    rcases h with rfl | rfl
    · decide
    · exact ⟨hlow, hhigh⟩
  · simp only [henc, hex2, List.mem_cons, List.not_mem_nil, or_false] at h
    rcases h with rfl | rfl | rfl | rfl
    · decide
    · decide
    · exact toNat_digitChar (hex_digits_lt b).1
    · exact toNat_digitChar (hex_digits_lt b).2

theorem utf8_hex2 (b : UInt8) : utf8 (hex2 b) =
    [UInt8.ofNat (Nat.digitChar (b.toNat / 16)).toNat,
      UInt8.ofNat (Nat.digitChar (b.toNat % 16)).toNat] := by
  have hlt : ∀ d < 16, (Nat.digitChar d).toNat < 128 :=
    fun d hd => Nat.lt_of_le_of_lt (toNat_digitChar hd).2 (by decide)
  rw [hex2, utf8_cons_of_lt (hlt _ (hex_digits_lt b).1),
    utf8_cons_of_lt (hlt _ (hex_digits_lt b).2), utf8_nil]

theorem hex2byte_hex2 (b : UInt8) (rest : List UInt8) :
    hex2byte (utf8 (hex2 b) ++ rest) = some b := by
  rw [utf8_hex2, List.cons_append, List.cons_append, hex2byte,
    hex2num_digitChar (hex_digits_lt b).1, hex2num_digitChar (hex_digits_lt b).2]
  refine congrArg some (UInt8.toNat_inj.mp ?_)
  have hb := b.toNat_lt
  simp
  omega

/-- What is written for one octet is read as it. -/
theorem printfDecode_encodeOctet (b : UInt8) (rest : List UInt8) {room : ℕ} (h : 2 ≤ room) :
    printfDecode room (utf8 (encodeOctet b) ++ rest) = b :: printfDecode (room - 1) rest := by
  rcases encodeOctet_cases b with ⟨hplain, henc⟩ | ⟨-, l, hlow, hhigh, hletter, henc⟩ | ⟨-, henc⟩
  · have hb : (Char.ofNat b.toNat).toNat < 128 := by
      have := UInt8.le_iff_toNat_le.mp hplain.2.1
      rw [toNat_ofNat_octet]
      exact Nat.lt_of_le_of_lt this (by decide)
    rw [henc, utf8_cons_of_lt hb, toNat_ofNat_octet, UInt8.ofNat_toNat, utf8_nil, List.cons_append,
      List.nil_append, printfDecode, if_neg (by omega)]
    simp [decodeNext, hplain.2.2.2]
  · rw [henc, utf8_cons_of_lt (by decide), utf8_cons_of_lt (by omega), utf8_nil, List.cons_append,
      List.cons_append, List.nil_append, printfDecode, if_neg (by omega)]
    have hnext : decodeNext (UInt8.ofNat '\\'.toNat) (UInt8.ofNat l.toNat :: rest) =
        (some b, rest) := by
      rw [decodeNext, if_pos (by decide), decodeEscape, hletter]
    rw [hnext]
  · rw [henc, utf8_cons_of_lt (by decide), utf8_cons_of_lt (by decide), List.cons_append,
      List.cons_append, printfDecode, if_neg (by omega)]
    have hnext : decodeNext (UInt8.ofNat '\\'.toNat)
        (UInt8.ofNat 'x'.toNat :: (utf8 (hex2 b) ++ rest)) = (some b, rest) := by
      rw [decodeNext, if_pos (by decide), decodeEscape]
      change (if _ then _ else _) = _
      rw [if_pos (by decide), decodeHex, hex2byte_hex2]
      simp [utf8_hex2]
    rw [hnext]

/-- An SSID that is printed and sent back in the form with escapes is the SSID again. -/
theorem printfDecode_wpaSsidTxt {ssid : List UInt8} (h : ssid.length ≤ ssidMaxLen) {room : ℕ}
    (hroom : ssid.length < room) : printfDecode room (utf8 (wpaSsidTxt ssid)) = ssid := by
  rw [wpaSsidTxt_eq h]
  clear h
  induction ssid generalizing room with
  | nil => simp [printfDecode]
  | cons b bs ih =>
    rw [List.length_cons] at hroom
    rw [List.flatMap_cons, utf8_append, printfDecode_encodeOctet b _ (by omega), ih (by omega)]

theorem length_le_utf8 (cs : List Char) : cs.length ≤ (utf8 cs).length :=
  length_le_length_flatMap (fun _ => List.length_pos_of_ne_nil String.utf8EncodeChar_ne_nil) cs

/-- The printed form of an SSID, sent in the form that has escapes, is read as the SSID. -/
theorem parse_wpaSsidTxt {ssid : List UInt8} (h : ssid.length ≤ ssidMaxLen) :
    wpaConfigParseString (80 :: 34 :: (utf8 (wpaSsidTxt ssid) ++ [34])) = some ssid := by
  have hroom : ssid.length < (utf8 (wpaSsidTxt ssid)).length + 1 := by
    have hchars := length_le_length_flatMap (fun o => (length_encodeOctet o).1) ssid
    rw [← wpaSsidTxt_eq h] at hchars
    exact Nat.lt_succ_of_le (hchars.trans (length_le_utf8 _))
  rw [wpaConfigParseString, if_neg (by simp), if_pos (by simp), List.drop_succ_cons,
    List.drop_succ_cons, List.drop_zero, untilQuote, if_pos List.getLast?_concat,
    List.dropLast_concat, Option.map_some, printfDecode_wpaSsidTxt h hroom]

end PowerScreen.Wifi
