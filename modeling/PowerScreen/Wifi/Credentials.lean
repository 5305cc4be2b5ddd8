import PowerScreen.Wifi.Scan

/-! # What arrives of a name and a password

The commands of a connection quote the name and the password for debugging, while the
supplicant takes what stands between the quotes as it is, and the name itself has been
read in its printed form. So both arrive as they were exactly when nothing of them is
escaped on the way.
-/
namespace PowerScreen.Wifi
open Library

/-- The text before the first space and the text behind it. -/
def cutSpace (s : List UInt8) : Option (List UInt8 × List UInt8) :=
  if 32 ∈ s then some (s.takeWhile (· ≠ 32), (s.dropWhile (· ≠ 32)).tail) else none

/-- The number, the variable and the value of a `SET_NETWORK` command. -/
def setNetwork (cmd : String) : Option (List UInt8 × List UInt8 × List UInt8) :=
  if utf8 "SET_NETWORK ".toList <+: utf8 cmd.toList then do
    let (id, rest) ← cutSpace ((utf8 cmd.toList).drop 12)
    let (name, value) ← cutSpace rest
    return (id, name, value)
  else none

/-- The value of a variable of the network that the commands set. -/
def received (cmds : List String) (name : String) : Option (List UInt8) :=
  ((cmds.filterMap setNetwork).find? fun s => s.2.1 = utf8 name.toList).bind fun s =>
    wpaConfigParseString s.2.2

def addNetworkReply (id : ℕ) : String := toString id ++ "\n"

/-- A character that the quotes leave as it is. -/
def DebugFormat.Passes (fmt : DebugFormat) (c : Char) : Prop :=
  c ≠ '"' ∧ c ≠ '\\' ∧ fmt.printable c

instance (fmt : DebugFormat) (c : Char) : Decidable (fmt.Passes c) := by
  unfold DebugFormat.Passes
  infer_instance

theorem cutSpace_append {s : List UInt8} (h : 32 ∉ s) (t : List UInt8) :
    cutSpace (s ++ 32 :: t) = some (s, t) := by
  have hne : ∀ o ∈ s, decide (o ≠ 32) = true := fun o ho =>
    decide_eq_true fun heq => h (heq ▸ ho)
  rw [cutSpace, if_pos (by simp), List.takeWhile_append_of_pos hne,
    List.dropWhile_append_of_pos hne]
  simp

theorem toList_setNetworkCommand (nid name value : String) :
    (Panel.setNetworkCommand nid name value).toList =
      "SET_NETWORK ".toList ++ (nid.toList ++ ' ' :: (name.toList ++ ' ' :: value.toList)) := by
  have hspace : ∀ s : String, (" " ++ s).toList = ' ' :: s.toList := fun s => String.toList_append
  change ("SET_NETWORK " ++ nid ++ " " ++ name ++ " " ++ value).toList = _
  rw [String.append_assoc, String.append_assoc, String.append_assoc, String.append_assoc,
    String.toList_append, String.toList_append, hspace, String.toList_append, hspace]

theorem setNetwork_command {nid : String} (hnid : 32 ∉ utf8 nid.toList) {name : String}
    (hname : 32 ∉ utf8 name.toList) (value : String) :
    setNetwork (Panel.setNetworkCommand nid name value) =
      some (utf8 nid.toList, utf8 name.toList, utf8 value.toList) := by
  have hspace : ∀ cs : List Char, utf8 (' ' :: cs) = 32 :: utf8 cs := utf8_cons_of_lt (by decide)
  have hdrop : ∀ cs : List UInt8, (utf8 "SET_NETWORK ".toList ++ cs).drop 12 = cs :=
    fun cs => List.drop_left' (by decide)
  have hbuf : utf8 (Panel.setNetworkCommand nid name value).toList = utf8 "SET_NETWORK ".toList ++
      (utf8 nid.toList ++ 32 :: (utf8 name.toList ++ 32 :: utf8 value.toList)) := by
    rw [toList_setNetworkCommand, utf8_append, utf8_append, hspace, utf8_append, hspace]
  rw [setNetwork, hbuf, if_pos (List.prefix_append _ _), hdrop, cutSpace_append hnid]
  change (cutSpace (utf8 name.toList ++ 32 :: utf8 value.toList)).bind _ = _
  rw [cutSpace_append hname]
  rfl

theorem received_cons_none {cmd : String} (h : setNetwork cmd = none) (cmds : List String)
    (name : String) : received (cmd :: cmds) name = received cmds name := by
  rw [received, List.filterMap_cons_none h, received]

theorem received_cons {cmd : String} {id var value : List UInt8}
    (h : setNetwork cmd = some (id, var, value)) (cmds : List String) (name : String) :
    received (cmd :: cmds) name =
      if var = utf8 name.toList then wpaConfigParseString value else received cmds name := by
  rw [received, List.filterMap_cons_some h, List.find?_cons]
  by_cases hvar : var = utf8 name.toList
  · simp [hvar]
  · simp [hvar, received]

theorem parse_quote (fmt : DebugFormat) (s : String) :
    wpaConfigParseString (utf8 (fmt.quote s).toList) =
      some (utf8 (s.toList.flatMap fmt.escape)) := by
  have hquote : utf8 (fmt.quote s).toList = 34 :: (utf8 (s.toList.flatMap fmt.escape) ++ [34]) := by
    rw [DebugFormat.quote, String.toList_ofList, utf8_cons_of_lt (by decide), utf8_append,
      utf8_cons_of_lt (by decide), utf8_nil]
    rfl
  rw [hquote, wpaConfigParseString, if_pos (List.head?_cons ..), untilQuote, List.tail_cons,
    if_pos List.getLast?_concat, List.dropLast_concat]

theorem escapes_escape (fmt : DebugFormat) : Escapes fmt.Passes id fmt.escape := by
  intro c
  unfold DebugFormat.escape DebugFormat.Passes
  split_ifs with hquote hprint
  · exact Or.inr ⟨fun h => hquote.elim h.1 h.2.1, by simp⟩
  · exact Or.inl ⟨⟨fun h => hquote (Or.inl h), fun h => hquote (Or.inr h), hprint⟩, rfl⟩
  · have hcode := List.length_pos_of_ne_nil (fmt.code_ne_nil c)
    exact Or.inr ⟨fun h => hprint h.2.2, by rw [List.length_cons]; omega⟩

theorem escaped_text_iff (fmt : DebugFormat) (cs : List Char) :
    utf8 (cs.flatMap fmt.escape) = utf8 cs ↔ ∀ c ∈ cs, fmt.Passes c := by
  have hiff := (escapes_escape fmt).flatMap_eq_map_iff (l := cs)
  rwa [List.map_id, ← utf8_inj] at hiff

/-- The octets that arrive for one octet of an SSID. -/
def arrival (fmt : DebugFormat) (o : UInt8) : List UInt8 :=
  utf8 ((encodeOctet o).flatMap fmt.escape)

theorem passes_of_plain (fmt : DebugFormat) {o : UInt8} (h : PlainOctet o) :
    fmt.Passes (Char.ofNat o.toNat) := by
  obtain ⟨hlow, hhigh, hquote, hback⟩ := h
  have htoNat := toNat_ofNat_octet o
  rw [UInt8.le_iff_toNat_le] at hlow hhigh
  refine ⟨fun h => hquote ?_, fun h => hback ?_, ?_⟩
  · exact UInt8.toNat_inj.mp (htoNat.symm.trans (congrArg Char.toNat h))
  · exact UInt8.toNat_inj.mp (htoNat.symm.trans (congrArg Char.toNat h))
  · have hlt : (Char.ofNat o.toNat).toNat < 127 := by
      rw [htoNat]
      exact Nat.lt_of_le_of_lt hhigh (by decide)
    rw [fmt.ascii _ (Nat.lt_succ_of_lt hlt)]
    exact ⟨htoNat.symm ▸ hlow, hlt⟩

theorem arrival_of_backslash (fmt : DebugFormat) {o : UInt8} {cs : List Char}
    (h : encodeOctet o = '\\' :: cs) : 2 ≤ (arrival fmt o).length := by
  have hesc : fmt.escape '\\' = ['\\', '\\'] := rfl
  rw [arrival, h, List.flatMap_cons, hesc, utf8_append, List.length_append]
  exact Nat.le_add_right 2 _

theorem escapes_arrival (fmt : DebugFormat) : Escapes PlainOctet id (arrival fmt) := by
  intro o
  rcases encodeOctet_cases o with ⟨hplain, henc⟩ | ⟨hplain, l, -, -, -, henc⟩ | ⟨hplain, henc⟩
  · have hlt : (Char.ofNat o.toNat).toNat < 128 := by
      rw [toNat_ofNat_octet]
      exact Nat.lt_of_le_of_lt (UInt8.le_iff_toNat_le.mp hplain.2.1) (by decide)
    refine Or.inl ⟨hplain, ?_⟩
    rw [arrival, henc, List.flatMap_cons,
      (escapes_escape fmt).eq_of_plain (passes_of_plain fmt hplain), List.flatMap_nil,
      List.append_nil, id, utf8_cons_of_lt hlt, toNat_ofNat_octet, UInt8.ofNat_toNat, utf8_nil, id]
  · exact Or.inr ⟨hplain, arrival_of_backslash fmt henc⟩
  · exact Or.inr ⟨hplain, arrival_of_backslash fmt henc⟩

theorem escaped_ssid_iff (fmt : DebugFormat) (b : Bss) :
    utf8 ((wpaSsidTxt b.ssid).flatMap fmt.escape) = b.ssid ↔ ∀ o ∈ b.ssid, PlainOctet o := by
  have harrive : utf8 ((wpaSsidTxt b.ssid).flatMap fmt.escape) = b.ssid.flatMap (arrival fmt) := by
    rw [wpaSsidTxt_eq b.ssid_len, List.flatMap_assoc, utf8, List.flatMap_assoc]
    rfl
  have hiff := (escapes_arrival fmt).flatMap_eq_map_iff (l := b.ssid)
  rwa [List.map_id, ← harrive] at hiff

theorem mem_addNetworkReply {id : ℕ} {c : Char} (h : c ∈ (addNetworkReply id).toList) :
    c.isDigit ∨ c = '\n' := by
  rw [addNetworkReply, String.toList_append, List.mem_append] at h
  rcases h with h | h
  · exact Or.inl (Decimal.isDigit_of_mem_toDigits (Nat.toList_repr ▸ h))
  · exact Or.inr (List.mem_singleton.mp h)

/-- The number the supplicant gives a new network holds no space. -/
theorem space_not_mem_reply (id : ℕ) : 32 ∉ utf8 (addNetworkReply id).toList := by
  refine not_mem_utf8 (d := ' ') (fun c hc => ?_) (by decide) fun hspace => ?_
  · rcases mem_addNetworkReply hc with hdigit | rfl
    · exact Decimal.toNat_lt_of_isDigit hdigit
    · decide
  · rcases mem_addNetworkReply hspace with hdigit | hnl
    · exact absurd hdigit (by decide)
    · exact absurd hnl (by decide)

theorem addNetworkReply_ne (id : ℕ) : addNetworkReply id ≠ "" := by
  intro h
  have hnl : '\n' ∈ (addNetworkReply id).toList := by
    rw [addNetworkReply, String.toList_append]
    exact List.mem_append_right _ (List.mem_singleton_self _)
  rw [h] at hnl
  exact absurd hnl (by decide)

/-- What is received of a name and a password are the octets their quotes arrive as. -/
theorem received_connect (fmt : DebugFormat) (p : Panel) (id : ℕ) (password : String) :
    received (p.connect fmt (addNetworkReply id) (some password)) "ssid" =
        some (utf8 (p.selectedNetwork.toList.flatMap fmt.escape)) ∧
      received (p.connect fmt (addNetworkReply id) (some password)) "psk" =
        some (utf8 (password.toList.flatMap fmt.escape)) := by
  have hnid := space_not_mem_reply id
  have hadd : setNetwork "ADD_NETWORK" = none := by decide
  have hssid := setNetwork_command hnid (by decide : 32 ∉ utf8 "ssid".toList)
    (fmt.quote p.selectedNetwork)
  have hpsk := setNetwork_command hnid (by decide : 32 ∉ utf8 "psk".toList) (fmt.quote password)
  have hother : utf8 "ssid".toList ≠ utf8 "psk".toList := by decide
  rw [Panel.connect, if_neg (addNetworkReply_ne id)]
  rw [received_cons_none hadd, received_cons_none hadd, received_cons hssid, if_pos rfl,
    received_cons hssid, if_neg hother, received_cons hpsk, if_pos rfl]
  exact ⟨parse_quote fmt p.selectedNetwork, parse_quote fmt password⟩

theorem networks_showScan (p : Panel) (reply : String) :
    (p.showScan reply).networks = Panel.sorted p.curNetwork (scanned reply) := rfl

theorem handleRow_selectedNetwork {p : Panel} {row : ℕ} {n : Network}
    (h : p.networks[row]? = some n) : (p.handleRow row).selectedNetwork = n.ssid := by
  rw [Panel.handleRow, h]
  rfl

/-- Every network with a name that is around has a row to tap. -/
theorem exists_row (p : Panel) {around : List Bss} {b : Bss} (hb : b ∈ around)
    (hne : b.ssid ≠ []) :
    ∃ row, ((p.showScan (scanReply around)).handleRow row).selectedNetwork = b.text := by
  obtain ⟨n, hn, hname⟩ := mem_scanned hb hne
  have hlisted : n ∈ (p.showScan (scanReply around)).networks := by
    rw [networks_showScan, Panel.sorted, List.mem_insertionSort]
    exact hn
  obtain ⟨row, hrow⟩ := List.mem_iff_getElem?.mp hlisted
  exact ⟨row, (handleRow_selectedNetwork hrow).trans hname⟩

/-- The name and the password arrive as they were. -/
def Arrives (fmt : DebugFormat) (p : Panel) (id : ℕ) (ssid : List UInt8) (password : String) :
    Prop :=
  received (p.connect fmt (addNetworkReply id) (some password)) "ssid" = some ssid ∧
    received (p.connect fmt (addNetworkReply id) (some password)) "psk" =
      some (utf8 password.toList)

theorem arrives_iff (fmt : DebugFormat) {p : Panel} {b : Bss} (hp : p.selectedNetwork = b.text)
    (id : ℕ) (password : String) : Arrives fmt p id b.ssid password ↔
      (∀ o ∈ b.ssid, PlainOctet o) ∧ ∀ c ∈ password.toList, fmt.Passes c := by
  obtain ⟨hssid, hpsk⟩ := received_connect fmt p id password
  rw [Arrives, hssid, hpsk, Option.some_inj, Option.some_inj, hp, Bss.text, String.toList_ofList,
    escaped_ssid_iff, escaped_text_iff]

/-- A network that is around has a row, and from whatever row shows its name: the name and the
password arrive as they were exactly when the SSID has plain octets only and the quotes leave
every character of the password as it is. -/
theorem credentials_iff (fmt : DebugFormat) (p : Panel) {around : List Bss} {b : Bss}
    (hb : b ∈ around) (hne : b.ssid ≠ []) (id : ℕ) (password : String) :
    (∃ row, ((p.showScan (scanReply around)).handleRow row).selectedNetwork = b.text) ∧
    ∀ row, ((p.showScan (scanReply around)).handleRow row).selectedNetwork = b.text →
      (Arrives fmt ((p.showScan (scanReply around)).handleRow row) id b.ssid password ↔
        (∀ o ∈ b.ssid, PlainOctet o) ∧ ∀ c ∈ password.toList, fmt.Passes c) :=
  ⟨exists_row p hb hne, fun _ hrow => arrives_iff fmt hrow id password⟩

/-- The format of the library for characters below 256, the others taken as printable. -/
def latinFormat : DebugFormat where
  printable c := decide (32 ≤ c.toNat) && !decide (127 ≤ c.toNat ∧ c.toNat < 161)
  code c :=
    if c = '\n' then ['n'] else if c = '\r' then ['r'] else if c = '\t' then ['t']
    else 'x' :: hex2 (UInt8.ofNat c.toNat)
  ascii c h := by
    simp only [Bool.and_eq_true, Bool.not_eq_true', decide_eq_true_eq, decide_eq_false_iff_not]
    omega
  code_ne_nil c := by split_ifs <;> simp

def accessPoint (ssid : List UInt8) (h : ssid.length ≤ ssidMaxLen) : Bss where
  bssid _ := 0
  freq := 2412
  level := -50
  flags := "[WPA2-PSK-CCMP][ESS]"
  ssid := ssid
  freq_int := by decide
  level_int := by decide
  flags_plain := @of_decide_eq_true _ (List.decidableBAll _ _) rfl
  ssid_len := h

/-- The SSID `Home` and the password `12345678`. -/
theorem credentials_plain :
    (∃ row, ((Panel.start.showScan (scanReply [accessPoint [72, 111, 109, 101]
        (by decide)])).handleRow row).selectedNetwork = "Home") ∧
      ∀ row, ((Panel.start.showScan (scanReply [accessPoint [72, 111, 109, 101]
          (by decide)])).handleRow row).selectedNetwork = "Home" →
        Arrives latinFormat ((Panel.start.showScan (scanReply [accessPoint [72, 111, 109, 101]
          (by decide)])).handleRow row) 0 [72, 111, 109, 101] "12345678" := by
  obtain ⟨hrow, hiff⟩ := credentials_iff latinFormat Panel.start
    (b := accessPoint [72, 111, 109, 101] (by decide)) (List.mem_singleton_self _) (by decide) 0
    "12345678"
  refine ⟨hrow, fun row h => (hiff row h).mpr ⟨?_, ?_⟩⟩
  · exact @of_decide_eq_true _ (List.decidableBAll _ _) rfl
  · exact @of_decide_eq_true _ (List.decidableBAll _ _) rfl

/-- The SSID of three letters and the two octets of an accented one, and a password with a
quote: what arrives are the escapes. -/
theorem escapes_arrive :
    let b := accessPoint [67, 97, 102, 195, 169] (by decide)
    ∃ row, let p := (Panel.start.showScan (scanReply [b])).handleRow row
      p.selectedNetwork = b.text ∧
        received (p.connect latinFormat (addNetworkReply 0) (some "a\"b")) "ssid" =
          some (utf8 "Caf\\\\xc3\\\\xa9".toList) ∧
        received (p.connect latinFormat (addNetworkReply 0) (some "a\"b")) "psk" =
          some (utf8 "a\\\"b".toList) ∧
        ¬ Arrives latinFormat p 0 b.ssid "a\"b" := by
  intro b
  obtain ⟨row, hname⟩ := exists_row Panel.start (List.mem_singleton_self b) (by decide)
  obtain ⟨hssid, hpsk⟩ := received_connect latinFormat
    ((Panel.start.showScan (scanReply [b])).handleRow row) 0 "a\"b"
  rw [hname] at hssid
  refine ⟨row, hname, hssid.trans (by decide), hpsk.trans (by decide),
    fun h => absurd (hssid.symm.trans h.1) (by decide)⟩

end PowerScreen.Wifi
