import PowerScreen.Wifi.Scan

/-! # The saved networks

The supplicant lists the saved networks with their flags, among them that of the current
one. The panel and the system page read the list each on their own, and both look for that
flag in the whole line.
-/
namespace PowerScreen.Wifi
open Library

/-- A saved network as the supplicant lists it; the BSSID is an address or `any`. -/
structure Saved where
  id : ℕ
  ssid : List UInt8
  bssid : String
  flags : String
  ssid_len : ssid.length ≤ ssidMaxLen
  bssid_ne : bssid ≠ ""
  bssid_plain : ∀ c ∈ bssid.toList, c ≠ '\t' ∧ c ≠ '\n' ∧ c ≠ '['
  flags_plain : ∀ c ∈ flags.toList, c ≠ '\t' ∧ c ≠ '\n'

def currentFlag : List Char := ['[', 'C', 'U', 'R', 'R', 'E', 'N', 'T', ']']

namespace Saved

def text (e : Saved) : String := String.ofList (wpaSsidTxt e.ssid)

def line (e : Saved) : List Char :=
  Nat.toDigits 10 e.id ++ '\t' :: (wpaSsidTxt e.ssid ++ '\t' :: (e.bssid.toList ++
    '\t' :: e.flags.toList))

def isCurrent (e : Saved) : Bool := decide (currentFlag <:+: e.flags.toList)

/-- An entry whose SSID reads like the flag of the current one. -/
def isDecoy (e : Saved) : Bool :=
  !e.isCurrent && decide (e.flags ≠ "") && decide (currentFlag <:+: wpaSsidTxt e.ssid)

end Saved

def networksHeader : String := "network id / ssid / bssid / flags"

def networksReply (saved : List Saved) : String :=
  String.ofList ((networksHeader.toList :: saved.map Saved.line).flatMap (· ++ ['\n']))

/-- What a line says about the current network. -/
def currentIn (line : List Char) : Option String :=
  let parts := (fields '\t' line).map String.ofList
  if parts.length = 4 ∧ currentFlag <:+: line then some (parts.getD 1 "") else none

/-- The supplicants that answer are asked in turn. -/
def getWifiNetwork (replies : List (Option String)) : String :=
  ((replies.flatMap fun reply => reply.elim [] fun nets => fields '\n' nets.toList).findSome?
    currentIn).getD ""

/-- The lists are read as the supplicant means them. -/
structure ReadRight (p : Panel) (saved : List Saved) : Prop where
  found : (p.findCurrentNetwork (networksReply saved)).2 = saved.any Saved.isCurrent
  panel : (p.findCurrentNetwork (networksReply saved)).1.curNetwork =
    ((saved.find? Saved.isCurrent).map Saved.text).getD ""
  page : getWifiNetwork [some (networksReply saved)] =
    ((saved.find? Saved.isCurrent).map Saved.text).getD ""
  list : ∀ e ∈ saved, ∃ f ∈ saved, f.text = e.text ∧
    (p.findCurrentNetwork (networksReply saved)).1.listNetworks.lookup e.text =
      some (toString f.id)

/-- Neither the first nor the last entry that is current or a decoy has another SSID than
the current one. -/
def Undeceiving (saved : List Saved) : Prop :=
  match saved.find? Saved.isCurrent with
  | none => ∀ e ∈ saved, ¬ e.isDecoy
  | some c =>
    (∀ e, saved.find? (fun e => e.isCurrent || e.isDecoy) = some e → e.text = c.text) ∧
      ∀ e, saved.reverse.find? (fun e => e.isCurrent || e.isDecoy) = some e → e.text = c.text

theorem ssid_ne {e : Saved} {c : Char} (h : c ∈ wpaSsidTxt e.ssid) : c ≠ '\t' ∧ c ≠ '\n' := by
  rw [wpaSsidTxt_eq e.ssid_len] at h
  obtain ⟨o, -, ho⟩ := List.mem_flatMap.mp h
  have hlow := (toNat_of_mem_encodeOctet ho).1
  constructor <;> rintro rfl <;> exact absurd hlow (by decide)

theorem id_ne {e : Saved} {c : Char} (h : c ∈ Nat.toDigits 10 e.id) :
    c ≠ '\t' ∧ c ≠ '\n' ∧ c ≠ '[' := by
  have hdigit := Decimal.isDigit_of_mem_toDigits h
  exact ⟨Decimal.ne_of_isDigit hdigit (by decide), Decimal.ne_of_isDigit hdigit (by decide),
    Decimal.ne_of_isDigit hdigit (by decide)⟩

theorem fields_saved (e : Saved) : fields '\t' e.line =
    [Nat.toDigits 10 e.id, wpaSsidTxt e.ssid, e.bssid.toList] ++
      if e.flags = "" then [] else [e.flags.toList] := by
  rw [Saved.line, fields_append_cons (fun hc => (id_ne hc).1 rfl),
    fields_append_cons (fun hc => (ssid_ne hc).1 rfl),
    fields_append_cons (fun hc => (e.bssid_plain _ hc).1 rfl)]
  split_ifs with hflags
  · rw [hflags]
    rfl
  · rw [fields_of_not_mem (fun hc => (e.flags_plain _ hc).1 rfl)
      (fun hnil => hflags (String.toList_eq_nil_iff.mp hnil))]
    rfl

/-- The flag is found in the SSID as well as among the flags. -/
theorem currentFlag_infix_line (e : Saved) : currentFlag <:+: e.line ↔
    currentFlag <:+: wpaSsidTxt e.ssid ∨ currentFlag <:+: e.flags.toList := by
  have htab : '\t' ∉ currentFlag := by decide
  have hopen : '[' ∈ currentFlag := by decide
  have hid : ¬ currentFlag <:+: Nat.toDigits 10 e.id := fun h =>
    (id_ne (h.subset hopen)).2.2 rfl
  have hbssid : ¬ currentFlag <:+: e.bssid.toList := fun h =>
    (e.bssid_plain _ (h.subset hopen)).2.2 rfl
  rw [Saved.line, infix_append_cons_iff htab, infix_append_cons_iff htab,
    infix_append_cons_iff htab]
  simp [hid, hbssid]

theorem isCurrent_of_no_flags {e : Saved} (h : e.flags = "") : e.isCurrent = false := by
  rw [Saved.isCurrent, h]
  decide

theorem currentIn_line (e : Saved) :
    currentIn e.line = if e.isCurrent || e.isDecoy then some e.text else none := by
  simp only [currentIn, fields_saved, currentFlag_infix_line]
  by_cases hflags : e.flags = ""
  · rw [if_pos hflags]
    simp [Saved.isDecoy, isCurrent_of_no_flags hflags, hflags]
  · rw [if_neg hflags]
    by_cases hcur : currentFlag <:+: e.flags.toList <;>
      by_cases htext : currentFlag <:+: wpaSsidTxt e.ssid <;>
        simp [Saved.isDecoy, Saved.isCurrent, Saved.text, hflags, hcur, htext]

/-- The panel looks at a line in the same way. -/
theorem noteNetwork_eq (found : Panel × Bool) (line : List Char) :
    Panel.noteNetwork found line =
      ({ found.1 with
          curNetwork := (currentIn line).getD found.1.curNetwork
          listNetworks := (Panel.noteNetwork found line).1.listNetworks },
        found.2 || (currentIn line).isSome) := by
  have hflag : "[CURRENT]".toList = currentFlag := by decide
  unfold Panel.noteNetwork currentIn
  rw [hflag]
  by_cases hlen : (fields '\t' line).length = 4 <;> by_cases hflag : currentFlag <:+: line <;>
    simp [hlen, hflag]

theorem listNetworks_noteNetwork (found : Panel × Bool) (e : Saved) :
    (Panel.noteNetwork found e.line).1.listNetworks =
      Assoc.insert e.text (toString e.id) found.1.listNetworks := by
  have hid : String.ofList (Nat.toDigits 10 e.id) ≠ "network id" := fun h => by
    have hmem : 'n' ∈ Nat.toDigits 10 e.id := by
      rw [← String.toList_ofList (l := Nat.toDigits 10 e.id), h]
      decide
    exact absurd (Decimal.isDigit_of_mem_toDigits hmem) (by decide)
  unfold Panel.noteNetwork
  rw [fields_saved]
  simp [hid, Saved.text]
  rfl

theorem foldl_noteNetwork (lines : List (List Char)) (found : Panel × Bool) :
    (lines.foldl Panel.noteNetwork found).2 =
        (found.2 || lines.any fun line => (currentIn line).isSome) ∧
      (lines.foldl Panel.noteNetwork found).1.curNetwork =
        (lines.reverse.findSome? currentIn).getD found.1.curNetwork := by
  induction lines generalizing found with
  | nil => simp
  | cons line lines ih =>
    obtain ⟨hfound, hcur⟩ := ih (Panel.noteNetwork found line)
    rw [List.foldl_cons, hfound, hcur, noteNetwork_eq]
    constructor
    · rw [List.any_cons, Bool.or_assoc]
    · rw [List.reverse_cons, List.findSome?_append]
      cases lines.reverse.findSome? currentIn <;> simp

theorem foldl_listNetworks (saved : List Saved) (found : Panel × Bool) :
    ((saved.map Saved.line).foldl Panel.noteNetwork found).1.listNetworks =
      Assoc.insertAll (saved.map fun e => (e.text, toString e.id)) found.1.listNetworks := by
  induction saved generalizing found with
  | nil => rfl
  | cons e saved ih =>
    rw [List.map_cons, List.foldl_cons, ih, listNetworks_noteNetwork]
    rfl

theorem noteNetwork_header (found : Panel × Bool) :
    Panel.noteNetwork found networksHeader.toList = (found.1, found.2) := by
  have hfields : fields '\t' networksHeader.toList = [networksHeader.toList] := by decide
  unfold Panel.noteNetwork
  rw [hfields]
  simp

theorem fields_networksReply (saved : List Saved) :
    fields '\n' (networksReply saved).toList = networksHeader.toList :: saved.map Saved.line := by
  rw [networksReply, String.toList_ofList]
  refine fields_lines fun line hline => ?_
  rcases List.mem_cons.mp hline with rfl | hline
  · decide
  · obtain ⟨e, -, rfl⟩ := List.mem_map.mp hline
    have htab : '\n' ≠ '\t' := by decide
    simp only [Saved.line, List.mem_append, List.mem_cons, htab, false_or]
    rintro (h | h | h | h)
    · exact (id_ne h).2.1 rfl
    · exact (ssid_ne h).2 rfl
    · exact (e.bssid_plain _ h).2.1 rfl
    · exact (e.flags_plain _ h).2 rfl

theorem currentIn_header : currentIn networksHeader.toList = none := by decide

theorem findSome_lines (saved : List Saved) :
    (saved.map Saved.line).findSome? currentIn =
      (saved.find? fun e => e.isCurrent || e.isDecoy).map Saved.text := by
  induction saved with
  | nil => rfl
  | cons e saved ih =>
    rw [List.map_cons, List.findSome?_cons, currentIn_line, List.find?_cons, ih]
    cases e.isCurrent || e.isDecoy <;> rfl

section Read

variable (p : Panel) (saved : List Saved)

theorem findCurrentNetwork_found : (p.findCurrentNetwork (networksReply saved)).2 =
    saved.any fun e => e.isCurrent || e.isDecoy := by
  rw [Panel.findCurrentNetwork, fields_networksReply, List.foldl_cons, noteNetwork_header,
    (foldl_noteNetwork _ _).1, Bool.false_or, List.any_map]
  congr 1
  funext e
  rw [Function.comp_apply, currentIn_line]
  cases e.isCurrent || e.isDecoy <;> rfl

theorem findCurrentNetwork_cur : (p.findCurrentNetwork (networksReply saved)).1.curNetwork =
    ((saved.reverse.find? fun e => e.isCurrent || e.isDecoy).map Saved.text).getD "" := by
  rw [Panel.findCurrentNetwork, fields_networksReply, List.foldl_cons, noteNetwork_header,
    (foldl_noteNetwork _ _).2, ← List.map_reverse, findSome_lines]

theorem getWifiNetwork_reply : getWifiNetwork [some (networksReply saved)] =
    ((saved.find? fun e => e.isCurrent || e.isDecoy).map Saved.text).getD "" := by
  rw [getWifiNetwork, List.flatMap_singleton, Option.elim_some, fields_networksReply,
    List.findSome?_cons, currentIn_header, findSome_lines]

/-- Every saved network is under its SSID, whatever the flags are. -/
theorem findCurrentNetwork_list {e : Saved} (he : e ∈ saved) : ∃ f ∈ saved, f.text = e.text ∧
    (p.findCurrentNetwork (networksReply saved)).1.listNetworks.lookup e.text =
      some (toString f.id) := by
  rw [Panel.findCurrentNetwork, fields_networksReply, List.foldl_cons, noteNetwork_header,
    foldl_listNetworks, Assoc.lookup_insertAll, List.lookup_nil, Option.or_none]
  have hkey : (((saved.map fun e => (e.text, toString e.id)).reverse).lookup e.text).isSome := by
    rw [Assoc.isSome_lookup_iff, List.map_reverse, List.mem_reverse, List.map_map]
    exact List.mem_map_of_mem he
  obtain ⟨id, hid⟩ := Option.isSome_iff_exists.mp hkey
  obtain ⟨f, hf, heq⟩ := List.mem_map.mp (List.mem_reverse.mp (Assoc.mem_of_lookup hid))
  obtain ⟨htext, hid'⟩ := Prod.mk.inj heq
  exact ⟨f, hf, htext, by rw [hid, hid']⟩

end Read

/-- Both readers find the current network exactly where no other SSID that reads like the flag
comes first or last. -/
theorem read_right_iff (p : Panel) (saved : List Saved) :
    ReadRight p saved ↔ Undeceiving saved := by
  have hfound := findCurrentNetwork_found p saved
  have hpanel := findCurrentNetwork_cur p saved
  have hpage := getWifiNetwork_reply saved
  have hlist : ∀ e ∈ saved, _ := fun e he => findCurrentNetwork_list p saved he
  set marked : Saved → Bool := fun e => e.isCurrent || e.isDecoy with hmarked
  unfold Undeceiving
  cases hcur : saved.find? Saved.isCurrent with
  | none =>
    have hno : ∀ e ∈ saved, e.isCurrent = false := fun e he => by
      simpa using List.find?_eq_none.mp hcur e he
    have hany : saved.any Saved.isCurrent = false := by simpa using hno
    have hdecoy : (∀ e ∈ saved, marked e = false) ↔ ∀ e ∈ saved, ¬ e.isDecoy := by
      refine forall₂_congr fun e he => ?_
      simp [hmarked, hno e he]
    rw [← hdecoy]
    constructor
    · intro h
      have heq := hfound.symm.trans (h.found.trans hany)
      simpa using heq
    · intro h
      have hnone : saved.find? marked = none := List.find?_eq_none.mpr fun e he => by simp [h e he]
      have hlast : saved.reverse.find? marked = none :=
        List.find?_eq_none.mpr fun e he => by simp [h e (List.mem_reverse.mp he)]
      refine ⟨?_, ?_, ?_, hlist⟩
      · rw [hfound, hany]
        simpa using h
      · rw [hpanel, hlast, hcur]
      · rw [hpage, hnone, hcur]
  | some c =>
    have hmem : c ∈ saved := List.mem_of_find?_eq_some hcur
    have hc : c.isCurrent := List.find?_some hcur
    have hcm : marked c := by simp [hmarked, hc]
    have hany : saved.any Saved.isCurrent := List.any_eq_true.mpr ⟨c, hmem, hc⟩
    have hanym : saved.any marked := List.any_eq_true.mpr ⟨c, hmem, hcm⟩
    obtain ⟨first, hfirst⟩ := Option.isSome_iff_exists.mp
      (List.find?_isSome.mpr ⟨c, hmem, hcm⟩ : (saved.find? marked).isSome)
    obtain ⟨last, hlast⟩ := Option.isSome_iff_exists.mp
      (List.find?_isSome.mpr ⟨c, List.mem_reverse.mpr hmem, hcm⟩ :
        (saved.reverse.find? marked).isSome)
    rw [hfirst] at hpage
    rw [hlast] at hpanel
    dsimp only
    rw [hfirst, hlast]
    constructor
    · intro h
      have hp := hpage.symm.trans h.page
      have hl := hpanel.symm.trans h.panel
      rw [hcur] at hp hl
      exact ⟨fun e he => Option.some.inj he ▸ hp, fun e he => Option.some.inj he ▸ hl⟩
    · rintro ⟨hp, hl⟩
      refine ⟨hfound.trans (hanym.trans hany.symm), ?_, ?_, hlist⟩
      · rw [hpanel, hcur, Option.map_some, Option.map_some, hl last rfl]
      · rw [hpage, hcur, Option.map_some, Option.map_some, hp first rfl]

/-- A network that is switched off and whose SSID reads like the flag. -/
def decoy : Saved where
  id := 0
  ssid := [91, 67, 85, 82, 82, 69, 78, 84, 93]
  bssid := "any"
  flags := "[DISABLED]"
  ssid_len := by decide
  bssid_ne := by decide
  bssid_plain := @of_decide_eq_true _ (List.decidableBAll _ _) rfl
  flags_plain := @of_decide_eq_true _ (List.decidableBAll _ _) rfl

/-- No network is current, and both readers name one. -/
theorem decoy_taken_for_current : ¬ ∀ (p : Panel) (saved : List Saved), ReadRight p saved := by
  intro h
  have hpage := (h Panel.start [decoy]).page
  revert hpage
  decide

end PowerScreen.Wifi
