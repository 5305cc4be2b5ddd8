import PowerScreen.Library.Escaping
import PowerScreen.Wifi.Panel

/-! # The networks of a scan

The reply to a scan has a line for every access point. Every access point whose SSID is
not empty is in the panel's list under the printed form of its SSID.
-/
namespace PowerScreen.Wifi
open Library

/-- An access point as the supplicant knows it. -/
structure Bss where
  bssid : Fin 6 → UInt8
  freq : ℤ
  level : ℤ
  flags : String
  ssid : List UInt8
  freq_int : -2 ^ 31 ≤ freq ∧ freq < 2 ^ 31
  level_int : -2 ^ 31 ≤ level ∧ level < 2 ^ 31
  flags_plain : ∀ c ∈ flags.toList, c ≠ '\t' ∧ c ≠ '\n'
  ssid_len : ssid.length ≤ ssidMaxLen

namespace Bss

def mac (b : Bss) : List Char :=
  hex2 (b.bssid 0) ++ ':' :: hex2 (b.bssid 1) ++ ':' :: hex2 (b.bssid 2) ++
    ':' :: hex2 (b.bssid 3) ++ ':' :: hex2 (b.bssid 4) ++ ':' :: hex2 (b.bssid 5)

def line (b : Bss) : List Char :=
  b.mac ++ '\t' :: ((toString b.freq).toList ++ '\t' :: ((toString b.level).toList ++
    '\t' :: (b.flags.toList ++ '\t' :: wpaSsidTxt b.ssid)))

def text (b : Bss) : String := String.ofList (wpaSsidTxt b.ssid)

end Bss

def scanHeader : String := "bssid / frequency / signal level / flags / ssid"

def scanReply (around : List Bss) : String :=
  String.ofList ((scanHeader.toList :: around.map Bss.line).flatMap (· ++ ['\n']))

theorem printable_of_mem_text {b : Bss} {c : Char} (h : c ∈ wpaSsidTxt b.ssid) :
    32 ≤ c.toNat ∧ c.toNat ≤ 126 := by
  rw [wpaSsidTxt_eq b.ssid_len] at h
  obtain ⟨o, -, ho⟩ := List.mem_flatMap.mp h
  exact toNat_of_mem_encodeOctet ho

theorem hex2_ne {o : UInt8} {c : Char} (h : c ∈ hex2 o) : c ≠ '\t' ∧ c ≠ '\n' ∧ c ≠ 's' := by
  have hdigit : ∀ d < 16, Nat.digitChar d ≠ '\t' ∧ Nat.digitChar d ≠ '\n' ∧
      Nat.digitChar d ≠ 's' := by decide
  simp only [hex2, List.mem_cons, List.not_mem_nil, or_false] at h
  rcases h with rfl | rfl
  · exact hdigit _ (hex_digits_lt o).1
  · exact hdigit _ (hex_digits_lt o).2

theorem mac_ne {b : Bss} {c : Char} (h : c ∈ b.mac) : c ≠ '\t' ∧ c ≠ '\n' ∧ c ≠ 's' := by
  simp only [Bss.mac, List.mem_append, List.mem_cons] at h
  have hcolon : ':' ≠ '\t' ∧ ':' ≠ '\n' ∧ ':' ≠ 's' := by decide
  rcases h with ((((h | h | h) | h | h) | h | h) | h | h) | h | h
  all_goals first | exact hex2_ne h | exact h ▸ hcolon

theorem toString_ne {z : ℤ} {c : Char} (h : c ∈ (toString z).toList) : c ≠ '\t' ∧ c ≠ '\n' := by
  rcases Decimal.eq_or_isDigit_of_mem h with rfl | hdigit
  · decide
  · exact ⟨Decimal.ne_of_isDigit hdigit (by decide), Decimal.ne_of_isDigit hdigit (by decide)⟩

theorem not_header (b : Bss) : ¬ "bss".toList <+: b.line := by
  intro h
  have hmac : "bss".toList <+: b.mac :=
    List.prefix_of_prefix_length_le h (List.prefix_append b.mac _) (by simp [Bss.mac, hex2])
  exact (mac_ne (hmac.subset (by decide : 's' ∈ "bss".toList))).2.2 rfl

theorem text_ne {b : Bss} {c : Char} (h : c ∈ wpaSsidTxt b.ssid) : c ≠ '\t' ∧ c ≠ '\n' := by
  have hlow := (printable_of_mem_text h).1
  constructor <;> rintro rfl <;> exact absurd hlow (by decide)

theorem wpaSsidTxt_ne_nil {b : Bss} (h : b.ssid ≠ []) : wpaSsidTxt b.ssid ≠ [] := by
  intro hnil
  have hlen := length_le_length_flatMap (fun o => (length_encodeOctet o).1) b.ssid
  rw [← wpaSsidTxt_eq b.ssid_len, hnil] at hlen
  exact h (List.eq_nil_of_length_eq_zero (Nat.le_zero.mp hlen))

theorem fields_line {b : Bss} (h : b.ssid ≠ []) : fields '\t' b.line =
    [b.mac, (toString b.freq).toList, (toString b.level).toList, b.flags.toList,
      wpaSsidTxt b.ssid] := by
  rw [Bss.line, fields_append_cons (fun hc => (mac_ne hc).1 rfl),
    fields_append_cons (fun hc => (toString_ne hc).1 rfl),
    fields_append_cons (fun hc => (toString_ne hc).1 rfl),
    fields_append_cons (fun hc => (b.flags_plain _ hc).1 rfl),
    fields_of_not_mem (fun hc => (text_ne hc).1 rfl) (wpaSsidTxt_ne_nil h)]

theorem parseLine_line {b : Bss} (h : b.ssid ≠ []) :
    parseLine b.line = some ⟨b.text, b.level, b.freq, b.flags⟩ := by
  rw [parseLine, if_neg (not_header b), fields_line h]
  simp only [String.ofList_toList, Decimal.stoi_toString b.freq_int,
    Decimal.stoi_toString b.level_int, if_neg (wpaSsidTxt_ne_nil h), Bss.text]
  rfl

theorem newline_not_mem_line (b : Bss) : '\n' ∉ b.line := by
  have htab : '\n' ≠ '\t' := by decide
  simp only [Bss.line, List.mem_append, List.mem_cons, htab, false_or]
  rintro (h | h | h | h | h)
  · exact (mac_ne h).2.1 rfl
  · exact (toString_ne h).2 rfl
  · exact (toString_ne h).2 rfl
  · exact (b.flags_plain _ h).2 rfl
  · exact (text_ne h).2 rfl

/-- Every entry stands under the name of its network. -/
def Named (best : List (String × Network)) : Prop :=
  ∀ k n, best.lookup k = some n → n.ssid = k

theorem keepBest_eq (best : List (String × Network)) (n : Network) :
    (keepBest best n = Assoc.insert n.ssid n best) ∨
      (keepBest best n = best ∧ (best.lookup n.ssid).isSome) := by
  unfold keepBest
  cases hold : best.lookup n.ssid with
  | none => exact Or.inl rfl
  | some old =>
    by_cases hless : old.signal < n.signal
    · exact Or.inl (if_pos hless)
    · exact Or.inr ⟨if_neg hless, rfl⟩

theorem Named.keepBest {best : List (String × Network)} (h : Named best) (n : Network) :
    Named (keepBest best n) := by
  rcases keepBest_eq best n with heq | ⟨heq, -⟩
  · intro k m hm
    rw [heq, Assoc.lookup_insert] at hm
    split_ifs at hm with hk
    · cases hm
      exact hk.symm
    · exact h k m hm
  · rwa [heq]

theorem isSome_keepBest {best : List (String × Network)} {k : String} {n : Network}
    (h : (best.lookup k).isSome ∨ k = n.ssid) : ((keepBest best n).lookup k).isSome := by
  rcases keepBest_eq best n with heq | ⟨heq, hsome⟩
  · rw [heq, Assoc.lookup_insert]
    split_ifs with hk
    · rfl
    · exact h.resolve_right hk
  · rw [heq]
    exact h.elim id fun hk => hk ▸ hsome

theorem named_nil : Named [] := fun _ _ h => by simp at h

theorem foldl_keepBest (ns : List Network) {best : List (String × Network)} (h : Named best) :
    Named (ns.foldl keepBest best) ∧
      ∀ k, (best.lookup k).isSome ∨ k ∈ ns.map Network.ssid →
        ((ns.foldl keepBest best).lookup k).isSome := by
  induction ns generalizing best with
  | nil => exact ⟨h, fun k hk => hk.resolve_right (List.not_mem_nil)⟩
  | cons n ns ih =>
    obtain ⟨hnamed, hsome⟩ := ih (h.keepBest n)
    refine ⟨hnamed, fun k hk => hsome k ?_⟩
    rw [List.map_cons, List.mem_cons] at hk
    rcases hk with hk | hk | hk
    · exact Or.inl (isSome_keepBest (Or.inl hk))
    · exact Or.inl (isSome_keepBest (Or.inr hk))
    · exact Or.inr hk

theorem fields_scanReply (around : List Bss) :
    fields '\n' (scanReply around).toList = scanHeader.toList :: around.map Bss.line := by
  rw [scanReply, String.toList_ofList, fields_lines]
  intro l hl
  rcases List.mem_cons.mp hl with rfl | hl
  · decide
  · obtain ⟨b, -, rfl⟩ := List.mem_map.mp hl
    exact newline_not_mem_line b

/-- Whoever is around with a name is in the list under the printed form of it. -/
theorem mem_scanned {around : List Bss} {b : Bss} (hb : b ∈ around) (h : b.ssid ≠ []) :
    ∃ n ∈ scanned (scanReply around), n.ssid = b.text := by
  have hline : b.text ∈ (((fields '\n' (scanReply around).toList).filterMap parseLine).map
      Network.ssid) := by
    rw [fields_scanReply]
    exact List.mem_map.mpr ⟨_, List.mem_filterMap.mpr ⟨b.line,
      List.mem_cons_of_mem _ (List.mem_map_of_mem hb), parseLine_line h⟩, rfl⟩
  obtain ⟨hnamed, hsome⟩ :=
    foldl_keepBest ((fields '\n' (scanReply around).toList).filterMap parseLine) named_nil
  obtain ⟨n, hn⟩ := Option.isSome_iff_exists.mp (hsome b.text (Or.inr hline))
  exact ⟨n, List.mem_map.mpr ⟨(b.text, n), Assoc.mem_of_lookup hn, rfl⟩, hnamed b.text n hn⟩

end PowerScreen.Wifi
