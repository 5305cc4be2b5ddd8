import PowerScreen.Library.LongestMatch

/-! # The firmware version

A file is searched for four numbers with dots between them. Where the groups from a place on are
too few, the search goes on behind them: no version begins inside of groups that end too early.
-/
namespace PowerScreen.SysInfo
open Library Library.Groups

/-- `isdigit` of a byte. -/
def isdigit (c : UInt8) : Bool := 0x30 ≤ c && c ≤ 0x39

def dot : UInt8 := 0x2E

/-- What is left of the text begins with a digit. -/
def atDigit : List UInt8 → Bool
  | [] => false
  | c :: _ => isdigit c

/-- The loop over the groups at `j`: their number, and what is left of the text. -/
def readGroups (groups : ℕ) (t : List UInt8) : ℕ × List UInt8 :=
  if atDigit t then
    match h : t.dropWhile isdigit with
    | [] => (groups + 1, [])
    | c :: t' =>
      if groups + 1 < 4 ∧ c = dot ∧ atDigit t' then readGroups (groups + 1) t'
      else (groups + 1, c :: t')
  else (groups, t)
termination_by t.length
decreasing_by
  have hlen := (List.dropWhile_suffix (l := t) isdigit).length_le
  rw [h, List.length_cons] at hlen
  omega

theorem readGroups_eq (groups : ℕ) (t : List UInt8) : readGroups groups t =
    if atDigit t then
      match t.dropWhile isdigit with
      | [] => (groups + 1, [])
      | c :: t' =>
        if groups + 1 < 4 ∧ c = dot ∧ atDigit t' then readGroups (groups + 1) t'
        else (groups + 1, c :: t')
    else (groups, t) := by
  rw [readGroups]
  split_ifs
  · split <;> rename_i h <;> simp only [h]
  · rfl

/-- What the loop has done when it ends with `n` groups. -/
structure Read (groups : ℕ) (t : List UInt8) (n : ℕ) (rest : List UInt8) : Prop where
  suffix : rest <:+ t
  le : groups ≤ n
  le_four : n ≤ 4
  /-- Four groups are the longest word that begins here. -/
  complete : n = 4 → ∃ w, t = w ++ rest ∧ w ∈ Groups.groups isdigit dot (3 - groups) ∧
    ∀ v, v <+: t → v ∈ Groups.groups isdigit dot (3 - groups) → v <+: w
  /-- Fewer are all that begins at any place up to the end of the loop. -/
  incomplete : n ≠ 4 → ∀ m, n - groups ≤ m → ∀ u, u <:+ t → rest.length ≤ u.length →
    ∀ w, w <+: u → w ∉ Groups.groups isdigit dot m

theorem isdigit_dot : isdigit dot = false := by decide

theorem not_digit_of_atDigit {t : List UInt8} (h : atDigit t = false) (c : UInt8) (u : List UInt8)
    (ht : t = c :: u) : isdigit c = false := by
  rw [ht] at h
  exact h

theorem atDigit_of_mem {n : ℕ} {w t : List UInt8} (hw : w <+: t)
    (h : w ∈ Groups.groups isdigit dot n) : atDigit t := by
  obtain ⟨c, u, rfl, hc⟩ := head_of_mem h
  obtain ⟨s, rfl⟩ := hw
  exact hc

/-- A place up to the end of the first group is inside of it or at its end. -/
theorem split_of_suffix {d rest u : List UInt8} (hu : u <:+ d ++ rest)
    (hlen : rest.length ≤ u.length) : ∃ g, g <:+ d ∧ u = g ++ rest := by
  have hrest := List.suffix_of_suffix_length_le (List.suffix_append d rest) hu hlen
  obtain ⟨g, rfl⟩ := hrest
  obtain ⟨s, hs⟩ := hu
  rw [← List.append_assoc, List.append_cancel_right_eq] at hs
  exact ⟨g, ⟨s, hs⟩, rfl⟩

theorem read_of_not_digit {t : List UInt8} (groups : ℕ) (hgroups : groups < 4)
    (h : atDigit t = false) : Read groups t groups t where
  suffix := List.suffix_rfl
  le := le_rfl
  le_four := hgroups.le
  complete hn := absurd hn hgroups.ne
  incomplete _ m _ u hu hlen w hw hmem := by
    have heq := hu.eq_of_length (le_antisymm hu.length_le hlen)
    have hdigit := atDigit_of_mem (heq ▸ hw) hmem
    rw [h] at hdigit
    cases hdigit

section Group

variable {groups n : ℕ} {d rest t' : List UInt8} (hd : d ≠ []) (hall : ∀ c ∈ d, isdigit c)
include hd hall

/-- The loop ends behind a group that is the last one. -/
theorem read_of_break (hgroups : groups < 4) (hrest : atDigit rest = false)
    (hstop : groups + 1 = 4 ∨ ∀ t', rest = dot :: t' → atDigit t' = false) :
    Read groups (d ++ rest) (groups + 1) rest where
  suffix := List.suffix_append d rest
  le := Nat.le_succ groups
  le_four := hgroups
  complete hn := by
    have hzero : 3 - groups = 0 := by omega
    rw [hzero]
    refine ⟨d, rfl, mem_groups_zero.mpr ⟨hd, hall⟩, fun v hv hmem => ?_⟩
    exact prefix_of_mem_zero hall (not_digit_of_atDigit hrest) hv hmem
  incomplete hn m hm u hu hlen w hw hmem := by
    obtain ⟨m, rfl⟩ : ∃ k, m = k + 1 := ⟨m - 1, by omega⟩
    obtain ⟨g, hg, rfl⟩ := split_of_suffix hu hlen
    obtain ⟨t', b, rfl, hb, hmem', -⟩ := split_of_mem_succ (fun c hc => hall c (hg.subset hc))
      (not_digit_of_atDigit hrest) isdigit_dot hw hmem
    have hnone := (hstop.resolve_left hn) t' rfl
    rw [atDigit_of_mem hb hmem'] at hnone
    cases hnone

/-- Behind a dot with a digit the loop goes on. -/
theorem read_of_next (hgroups : groups + 1 < 4) (h : Read (groups + 1) t' n rest) :
    Read groups (d ++ dot :: t') n rest where
  suffix := h.suffix.trans ((List.suffix_cons dot t').trans (List.suffix_append d _))
  le := (Nat.le_succ groups).trans h.le
  le_four := h.le_four
  complete hn := by
    obtain ⟨w, rfl, hmem, hlongest⟩ := h.complete hn
    have hsucc : 3 - groups = 3 - (groups + 1) + 1 := by omega
    rw [hsucc]
    refine ⟨d ++ dot :: w, by simp, mem_groups_succ.mpr ⟨d, w, ⟨hd, hall⟩, hmem, rfl⟩,
      fun v hv hmem' => ?_⟩
    obtain ⟨rest', b, heq, hb, hbmem, rfl⟩ := split_of_mem_succ hall
      (fun c u hc => (List.cons.inj hc).1 ▸ isdigit_dot) isdigit_dot hv hmem'
    obtain rfl := (List.cons.inj heq).2
    exact (List.prefix_append_right_inj d).mpr
      (List.cons_prefix_cons.mpr ⟨rfl, hlongest b hb hbmem⟩)
  incomplete hn m hm u hu hlen w hw hmem := by
    have hle := h.le
    obtain ⟨m, rfl⟩ : ∃ k, m = k + 1 := ⟨m - 1, by omega⟩
    rcases Nat.lt_or_ge t'.length u.length with hlong | hshort
    · -- in front of the groups that were read later, which are too few
      obtain ⟨g, hg, rfl⟩ := split_of_suffix hu hlong
      obtain ⟨rest', b, heq, hb, hbmem, -⟩ := split_of_mem_succ (fun c hc => hall c (hg.subset hc))
        (fun c u hc => (List.cons.inj hc).1 ▸ isdigit_dot) isdigit_dot hw hmem
      obtain rfl := (List.cons.inj heq).2
      exact h.incomplete hn m (by omega) t' List.suffix_rfl h.suffix.length_le b hb hbmem
    · have hu' : u <:+ t' := List.suffix_of_suffix_length_le hu
        ((List.suffix_cons dot t').trans (List.suffix_append d _)) hshort
      exact h.incomplete hn (m + 1) (by omega) u hu' hlen w hw hmem

end Group

theorem read_readGroups (groups : ℕ) (hgroups : groups < 4) (t : List UInt8) :
    Read groups t (readGroups groups t).1 (readGroups groups t).2 := by
  have hhead (u : List UInt8) : atDigit (u.dropWhile isdigit) = false := by
    cases h : u.dropWhile isdigit with
    | nil => rfl
    | cons c u' =>
      have hc := List.head_dropWhile_not isdigit (l := u) (by simp [h])
      rw [atDigit]
      simpa only [h, List.head_cons] using hc
  have hall (u : List UInt8) : ∀ c ∈ u.takeWhile isdigit, isdigit c := fun c hc =>
    List.mem_takeWhile_imp hc
  have hne (u : List UInt8) (hu : atDigit u) : u.takeWhile isdigit ≠ [] := by
    cases u with
    | nil => cases hu
    | cons c u' =>
      rw [List.takeWhile_cons_of_pos (p := isdigit) hu]
      exact List.cons_ne_nil _ _
  induction groups, t using readGroups.induct with
  | case1 groups t hdigit hend =>
    rw [readGroups_eq, if_pos hdigit, hend]
    have heq : t.takeWhile isdigit ++ [] = t := hend ▸ List.takeWhile_append_dropWhile
    have hbreak : Read groups (t.takeWhile isdigit ++ []) (groups + 1) [] :=
      read_of_break (hne t hdigit) (hall t) hgroups rfl (.inr fun t' h => by cases h)
    rwa [heq] at hbreak
  | case2 groups t hdigit c t' hrest hgo ih =>
    obtain ⟨hless, rfl, hnext⟩ := hgo
    rw [readGroups_eq, if_pos hdigit, hrest]
    dsimp only
    rw [if_pos ⟨hless, rfl, hnext⟩]
    have heq : t.takeWhile isdigit ++ dot :: t' = t := hrest ▸ List.takeWhile_append_dropWhile
    have hread := read_of_next (hne t hdigit) (hall t) hless (ih hless)
    rwa [heq] at hread
  | case3 groups t hdigit c t' hrest hstop =>
    rw [readGroups_eq, if_pos hdigit, hrest]
    dsimp only
    rw [if_neg hstop]
    have heq : t.takeWhile isdigit ++ c :: t' = t := hrest ▸ List.takeWhile_append_dropWhile
    have hread := read_of_break (hne t hdigit) (hall t) hgroups (hrest ▸ hhead t) ?_
    · rwa [heq] at hread
    · rw [not_and] at hstop
      rcases Nat.lt_or_ge (groups + 1) 4 with hless | hmore
      · refine .inr fun u h => ?_
        obtain ⟨rfl, rfl⟩ := List.cons.inj h
        exact Bool.eq_false_iff.mpr fun hu => hstop hless ⟨rfl, hu⟩
      · exact .inl (by omega)
  | case4 groups t hdigit =>
    rw [readGroups_eq, if_neg hdigit]
    exact read_of_not_digit groups hgroups (Bool.eq_false_iff.mpr hdigit)

/-- The groups at a place, if they are four. -/
def fourGroups : Matcher UInt8 (List UInt8) := fun t =>
  if (readGroups 0 t).1 = 4 then
    some (t.take (t.length - (readGroups 0 t).2.length), t.length - (readGroups 0 t).2.length)
  else none

/-- Four numbers with dots between them. -/
def dottedVersion : Language UInt8 := Groups.groups isdigit dot 3

/-- Groups that are too few leave no version up to their end. -/
theorem notMem_of_few {t u w : List UInt8} (h : (readGroups 0 t).1 ≠ 4) (hu : u <:+ t)
    (hlen : (readGroups 0 t).2.length ≤ u.length) (hw : w <+: u) : w ∉ dottedVersion := by
  have hread := read_readGroups 0 (by decide) t
  have hfew := Nat.le_of_lt_succ (lt_of_le_of_ne hread.le_four h)
  exact hread.incomplete h 3 hfew u hu hlen w hw

theorem longest_fourGroups : fourGroups.Longest dottedVersion := by
  have hfound (t : List UInt8) (h : (readGroups 0 t).1 = 4) : ∃ w, w <+: t ∧ w ∈ dottedVersion ∧
      (∀ v, v <+: t → v ∈ dottedVersion → v <+: w) ∧ fourGroups t = some (w, w.length) := by
    obtain ⟨w, ht, hmem, hlongest⟩ := (read_readGroups 0 (by decide) t).complete h
    have hlen : t.length - (readGroups 0 t).2.length = w.length := by
      rw [congrArg List.length ht, List.length_append, Nat.add_sub_cancel]
    have htake : t.take w.length = w := by
      rw [congrArg (List.take w.length) ht, List.take_left]
    exact ⟨w, ⟨_, ht.symm⟩, hmem, hlongest, by rw [fourGroups, if_pos h, hlen, htake]⟩
  constructor
  · intro t
    by_cases h : (readGroups 0 t).1 = 4
    · obtain ⟨w, hw, hmem, -, hsome⟩ := hfound t h
      exact iff_of_false (by simp [hsome]) fun hnone => hnone w hw hmem
    · have hlen := (read_readGroups 0 (by decide) t).suffix.length_le
      exact iff_of_true (if_neg h) fun w hw => notMem_of_few h List.suffix_rfl hlen hw
  · intro t r n hr
    by_cases h : (readGroups 0 t).1 = 4
    · obtain ⟨w, hw, hmem, hlongest, hsome⟩ := hfound t h
      obtain ⟨rfl, -⟩ := Prod.mk.inj (Option.some.inj (hsome.symm.trans hr))
      exact ⟨hw, hmem, hlongest⟩
    · rw [fourGroups, if_neg h] at hr
      cases hr

/-- The outer loop at `i`. -/
def searchFrom (t : List UInt8) : List UInt8 :=
  match t with
  | [] => []
  | c :: t =>
    let r := readGroups 0 (c :: t)
    if r.1 = 4 then (c :: t).take ((c :: t).length - r.2.length)
    -- from behind the end of the groups
    else searchFrom r.2.tail
termination_by t.length
decreasing_by
  have hlen := (read_readGroups 0 (by decide) (c :: t)).suffix.length_le
  rw [List.length_tail, List.length_cons]
  rw [List.length_cons] at hlen
  omega

/-- A file that cannot be opened has no version. -/
def findDottedVersion (file : Option (List UInt8)) : List UInt8 :=
  match file with
  | none => []
  | some content => searchFrom (content.take 4096)

/-- What is skipped is nowhere the beginning of a version. -/
theorem searchFrom_eq (t : List UInt8) :
    searchFrom t = ((fourGroups.search t).map Prod.fst).getD [] := by
  induction t using searchFrom.induct with
  | case1 =>
    have hnone : fourGroups [] = none := by simp [fourGroups, readGroups_eq, atDigit]
    rw [searchFrom, Matcher.search, hnone]
    rfl
  | case2 c t r h =>
    have hfour : fourGroups (c :: t) = some ((c :: t).take ((c :: t).length - r.2.length),
        (c :: t).length - r.2.length) := if_pos h
    rw [searchFrom, Matcher.search, hfour]
    exact if_pos h
  | case3 c t r h ih =>
    have hsuffix := (read_readGroups 0 (by decide) (c :: t)).suffix
    have hskip : fourGroups.FirstAt (c :: t) r.2.tail := fun v hv hlt => by
      rw [List.length_tail] at hlt
      have hlen : r.2.length ≤ v.length := by omega
      exact (longest_fourGroups.none_iff v).mpr fun w hw => notMem_of_few h hv hlen hw
    rw [searchFrom, Matcher.search_of_skip ((List.tail_suffix _).trans hsuffix) hskip, ← ih]
    exact if_neg h

/-- For every file: the leftmost longest version of its first 4096 bytes, nothing iff there is
none. -/
theorem findDottedVersion_spec (content : List UInt8) :
    (findDottedVersion (some content) = [] ↔
      ∀ w, w <:+: content.take 4096 → w ∉ dottedVersion) ∧
    (findDottedVersion (some content) = [] ∨
      LeftmostLongest dottedVersion (content.take 4096) (findDottedVersion (some content))) := by
  rw [findDottedVersion, searchFrom_eq, ← longest_fourGroups.search_eq_none]
  cases h : fourGroups.search (content.take 4096) with
  | none => exact ⟨iff_of_true rfl rfl, .inl rfl⟩
  | some r =>
    have hbest := longest_fourGroups.search_eq_some h
    have hne : r.1 ≠ [] := by
      obtain ⟨-, -, -, hmem, -⟩ := hbest
      obtain ⟨c, u, heq, -⟩ := head_of_mem hmem
      exact heq ▸ List.cons_ne_nil c u
    exact ⟨iff_of_false hne (by simp), .inr hbest⟩

def candidates : List String :=
  ["/usr/data/creality/userdata/config/system_version.json",
    "/usr/data/creality/userdata/config/system_config.json",
    "/usr/data/creality/userdata/version",
    "/etc/version"]

def unknown : List UInt8 := "unknown".toList.map fun c => c.toNat.toUInt8

/-- The first candidate with a version decides. -/
def k1cFirmwareVersion (files : String → Option (List UInt8)) : List UInt8 :=
  ((candidates.map fun path => findDottedVersion (files path)).find? (· ≠ [])).getD unknown

/-- Four numbers are never the text that stands for none. -/
theorem k1cFirmwareVersion_eq_unknown_iff (files : String → Option (List UInt8)) :
    k1cFirmwareVersion files = unknown ↔
      ∀ path ∈ candidates, findDottedVersion (files path) = [] := by
  have hversion (path : String) (h : findDottedVersion (files path) ≠ []) :
      findDottedVersion (files path) ≠ unknown := by
    cases hfile : files path with
    | none =>
      rw [hfile] at h
      exact absurd rfl h
    | some content =>
      rw [hfile] at h
      obtain ⟨-, -, -, hmem, -⟩ := (findDottedVersion_spec content).2.resolve_left h
      obtain ⟨c, u, heq, hc⟩ := head_of_mem hmem
      intro hunknown
      have hletter : c = 0x75 := (List.cons.inj (heq.symm.trans hunknown)).1
      rw [hletter] at hc
      exact absurd hc (by decide)
  rw [k1cFirmwareVersion]
  cases hfind : (candidates.map fun path => findDottedVersion (files path)).find? (· ≠ []) with
  | none =>
    simp only [List.find?_eq_none, List.forall_mem_map, ne_eq, decide_not, Bool.not_eq_true',
      decide_eq_false_iff_not, not_not] at hfind
    exact iff_of_true rfl hfind
  | some r =>
    obtain ⟨path, hpath, rfl⟩ := List.mem_map.mp (List.mem_of_find?_eq_some hfind)
    have hne : findDottedVersion (files path) ≠ [] := by simpa using List.find?_some hfind
    exact iff_of_false (hversion path hne) fun hall => hne (hall path hpath)

end PowerScreen.SysInfo
