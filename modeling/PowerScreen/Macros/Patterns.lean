import PowerScreen.Library.Scan
import PowerScreen.Library.Json

/-! # The patterns for the parameters of a macro

The two regular expressions of `parse_macros`. The first finds a parameter and takes the
rest of the line along, the second searches that rest for a default.
-/
namespace PowerScreen.Macros
open Library

/-- `\w` -/
def isWord (c : Char) : Bool := c.isAlphanum || c = '_'

/-- `\s` -/
def isBlank (c : Char) : Bool :=
  c = ' ' || c = '\t' || c = '\n' || c = '\x0b' || c = '\x0c' || c = '\r'

/-- What `.` does not match. -/
def isLineEnd (c : Char) : Bool := c = '\n' || c = '\r'

def isQuote (c : Char) : Bool := c = '"' || c = '\''

/-- The text behind a word at its head; letters match in either case. -/
def dropWord (word : String) (t : List Char) : Option (List Char) :=
  if (t.take word.length).map Char.toLower = word.toList then some (t.drop word.length) else none

/-- `params\.(\w+)(.*)` -/
def paramRegex : Matcher Char (List Char × List Char) := fun t =>
  (dropWord "params." t).bind fun u =>
    let name := u.takeWhile isWord
    let rest := (u.dropWhile isWord).takeWhile fun c => !isLineEnd c
    if name = [] then none else some ((name, rest), 7 + name.length + rest.length)

/-- `(?:\\.|[^\x02])*` and the closing quote: the alternatives in the order in which they are
tried, so that the longest text is found first. -/
def closing (q : Char) : List Char → Option (List Char)
  | [] => none
  | c :: t =>
    ((match t with
      | d :: t' =>
        if c = '\\' ∧ !isLineEnd d then (closing q t').map fun r => c :: d :: r else none
      | [] => none).or
    (if c = '\x02' then none else (closing q t).map (c :: ·))).or
    (if c = q then some [q] else none)

/-- `[^,)]` -/
def inNumber (c : Char) : Bool := c ≠ ',' && c ≠ ')'

/-- `(["'])(?:\\.|[^\x02])*\2|-?[0-9][^,)]*` -/
def defaultArgument : List Char → Option (List Char)
  | [] => none
  | c :: t =>
    if isQuote c then (closing c t).map (c :: ·)
    else if c.isDigit then some (c :: t.takeWhile inNumber)
    else if c = '-' ∧ t.head?.any Char.isDigit then some (c :: t.takeWhile inNumber)
    else none

/-- `\|\s*default\s*\(\s*` -/
def defaultOpening : List Char → Option (List Char)
  | '|' :: t => (dropWord "default" (t.dropWhile isBlank)).bind fun u =>
    match u.dropWhile isBlank with
    | '(' :: v => some (v.dropWhile isBlank)
    | _ => none
  | _ => none

def defaultValueRegex : Matcher Char (List Char) := fun t =>
  (defaultOpening t).bind fun u =>
    (defaultArgument u).map fun a => (a, t.length - u.length + a.length)

/-- The matches that `sregex_iterator` goes through. -/
def paramMatches (gcode : List Char) : List (List Char × List Char) := paramRegex.scan 0 gcode

def defaultValue (rest : List Char) : List Char :=
  ((defaultValueRegex.search rest).map Prod.fst).getD []

/-- A spelling of the word in front of a parameter. -/
def Spells (s : List Char) : Prop := s.map Char.toLower = "params.".toList

/-- A parameter at the head of a text, spelled so, with this text behind it. -/
structure Refers (s X r u : List Char) : Prop where
  text : u = s ++ X ++ r
  ne : X ≠ []
  word : ∀ c ∈ X, isWord c
  boundary : ∀ c ∈ r.head?, isWord c = false

/-- `params.X` stands somewhere in the text. -/
def Occurs (X t : List Char) : Prop := ∃ r u, u <:+ t ∧ Refers "params.".toList X r u

/-- The first parameter on the line, in any spelling. -/
structure Leads (s X r l : List Char) : Prop where
  spells : Spells s
  found : ∃ u, u <:+ l ∧ Refers s X r u ∧
    ∀ v, v <:+ l → u.length < v.length → ∀ s' Y r', Spells s' → ¬ Refers s' Y r' v

theorem dropWord_eq_some {word : String} {t u : List Char} :
    dropWord word t = some u ↔ ∃ s, s.map Char.toLower = word.toList ∧ t = s ++ u := by
  unfold dropWord
  constructor
  · intro h
    split_ifs at h with htake
    cases h
    exact ⟨_, htake, (List.take_append_drop _ t).symm⟩
  · rintro ⟨s, hs, rfl⟩
    have hlen : s.length = word.length := by
      rw [← List.length_map Char.toLower, hs, String.length_toList]
    rw [← hlen, List.take_left, if_pos hs, List.drop_left]

theorem takeWhile_eq_of_boundary {p : Char → Bool} {a b : List Char} (ha : ∀ c ∈ a, p c)
    (hb : ∀ c ∈ b.head?, p c = false) :
    (a ++ b).takeWhile p = a ∧ (a ++ b).dropWhile p = b := by
  rw [List.takeWhile_append_of_pos ha, List.dropWhile_append_of_pos ha]
  cases b with
  | nil => simp
  | cons c b =>
    have hc : p c = false := hb c rfl
    simp [hc]

theorem not_isLineEnd_of_isWord {c : Char} (hc : isWord c) : isLineEnd c = false := by
  have h : ¬ (c = '\n' ∨ c = '\r') := by
    rintro (rfl | rfl) <;> exact absurd hc (by decide)
  simpa [isLineEnd] using h

theorem Spells.length {s : List Char} (hs : Spells s) : s.length = 7 := by
  have h : (s.map Char.toLower).length = "params.".toList.length := congrArg List.length hs
  rwa [List.length_map] at h

theorem Spells.not_isLineEnd {s : List Char} (hs : Spells s) : ∀ c ∈ s, isLineEnd c = false := by
  intro c hc
  have hlow : c.toLower ∈ "params.".toList := hs ▸ List.mem_map_of_mem hc
  have h : ¬ (c = '\n' ∨ c = '\r') := by
    rintro (rfl | rfl) <;> exact absurd hlow (by decide)
  simpa [isLineEnd] using h

theorem Refers.takeWhile {s X r u : List Char} (h : Refers s X r u) :
    (X ++ r).takeWhile isWord = X ∧ (X ++ r).dropWhile isWord = r :=
  takeWhile_eq_of_boundary h.word h.boundary

/-- The pattern matches where a parameter is referred to, as far as the line goes. -/
theorem paramRegex_eq_some {u X rest : List Char} {n : ℕ} :
    paramRegex u = some ((X, rest), n) ↔ ∃ s r, Spells s ∧ Refers s X r u ∧
      rest = r.takeWhile (fun c => !isLineEnd c) ∧ n = 7 + X.length + rest.length := by
  unfold paramRegex
  rw [Option.bind_eq_some_iff]
  constructor
  · rintro ⟨v, hv, h⟩
    obtain ⟨s, hs, rfl⟩ := dropWord_eq_some.mp hv
    dsimp only at h
    split_ifs at h with hne
    cases h
    refine ⟨s, _, hs, ⟨?_, hne, fun c => List.mem_takeWhile_imp, fun c hc => ?_⟩, rfl, rfl⟩
    · rw [List.append_assoc, List.takeWhile_append_dropWhile]
    · cases hd : v.dropWhile isWord with
      | nil =>
        rw [hd] at hc
        cases hc
      | cons e r =>
        rw [hd] at hc
        cases hc
        have hhead := List.head_dropWhile_not isWord (hd ▸ List.cons_ne_nil c r)
        simpa [hd] using hhead
  · rintro ⟨s, r, hs, h, rfl, rfl⟩
    refine ⟨X ++ r, dropWord_eq_some.mpr ⟨s, hs, by rw [h.text, List.append_assoc]⟩, ?_⟩
    dsimp only
    rw [h.takeWhile.1, h.takeWhile.2, if_neg h.ne]

theorem isWord_of_isLineEnd {c : Char} (hc : isLineEnd c) : isWord c = false := by
  cases hw : isWord c with
  | false => rfl
  | true =>
    rw [not_isLineEnd_of_isWord hw] at hc
    cases hc

section Line

variable {l t : List Char} (hl : ∀ c ∈ l, isLineEnd c = false)
  (ht : ∀ c ∈ t.head?, isLineEnd c)
include ht

theorem Refers.extend {s X r : List Char} (h : Refers s X r l) : Refers s X (r ++ t) (l ++ t) where
  text := by rw [h.text, List.append_assoc (s ++ X)]
  ne := h.ne
  word := h.word
  boundary c hc := by
    cases r with
    | nil => exact isWord_of_isLineEnd (ht c hc)
    | cons d r => exact h.boundary c hc

/-- What is referred to on a line ends before the line does. -/
theorem Refers.cut {s X r : List Char} (hs : Spells s) (h : Refers s X r (l ++ t)) :
    ∃ r', r = r' ++ t ∧ Refers s X r' l := by
  rcases List.append_eq_append_iff.mp h.text with ⟨a, hsX, hta⟩ | ⟨a, hla, hra⟩
  · cases a with
    | nil =>
      refine ⟨[], hta.symm, ?_, h.ne, h.word, by simp⟩
      rw [List.append_nil, hsX, List.append_nil]
    | cons c a =>
      have hend : isLineEnd c := ht c (by rw [hta]; rfl)
      have hmem : c ∈ s ++ X := hsX ▸ List.mem_append_right l List.mem_cons_self
      have hnot : isLineEnd c = false := by
        rcases List.mem_append.mp hmem with hc | hc
        · exact hs.not_isLineEnd c hc
        · exact not_isLineEnd_of_isWord (h.word c hc)
      rw [hnot] at hend
      cases hend
  · refine ⟨a, hra, hla, h.ne, h.word, fun c hc => h.boundary c ?_⟩
    cases a with
    | nil => cases hc
    | cons d a => rwa [hra]

include hl

theorem takeWhile_line {r : List Char} (hr : r <:+ l) :
    (r ++ t).takeWhile (fun c => !isLineEnd c) = r := by
  refine (takeWhile_eq_of_boundary (fun c hc => ?_) fun c hc => ?_).1
  · rw [hl c (hr.subset hc), Bool.not_false]
  · rw [ht c hc, Bool.not_true]

theorem paramRegex_append : paramRegex (l ++ t) = paramRegex l := by
  refine Option.ext fun m => ?_
  obtain ⟨⟨X, rest⟩, n⟩ := m
  rw [paramRegex_eq_some, paramRegex_eq_some]
  constructor
  · rintro ⟨s, r, hs, h, hrest, hn⟩
    obtain ⟨r', rfl, h'⟩ := h.cut ht hs
    have hr : r' <:+ l := ⟨s ++ X, h'.text.symm⟩
    rw [takeWhile_line hl ht hr] at hrest
    have hself := takeWhile_line hl (t := []) (by simp) hr
    rw [List.append_nil] at hself
    exact ⟨s, r', hs, h', hrest.trans hself.symm, hn⟩
  · rintro ⟨s, r, hs, h, hrest, hn⟩
    have hr : r <:+ l := ⟨s ++ X, h.text.symm⟩
    have hself := takeWhile_line hl (t := []) (by simp) hr
    rw [List.append_nil] at hself
    exact ⟨s, r ++ t, hs, h.extend ht, by rw [hrest, hself, takeWhile_line hl ht hr], hn⟩

end Line

theorem paramRegex_linewise : paramRegex.Linewise isLineEnd where
  nil := by decide
  append hl _ he t := paramRegex_append hl (t := _ :: t) (by simpa using he)
  length {l} hl r n h := by
    obtain ⟨X, rest⟩ := r
    obtain ⟨s, r, hs, hr, hrest, hn⟩ := paramRegex_eq_some.mp h
    have hself := takeWhile_line hl (t := []) (by simp) (r := r) ⟨s ++ X, hr.text.symm⟩
    rw [List.append_nil] at hself
    rw [hn, hrest, hself, hr.text, List.length_append, List.length_append, hs.length]

theorem paramRegex_eq_none {u : List Char} :
    paramRegex u = none ↔ ∀ s X r, Spells s → ¬ Refers s X r u := by
  constructor
  · intro h s X r hs hr
    have hsome := paramRegex_eq_some.mpr ⟨s, r, hs, hr, rfl, rfl⟩
    rw [h] at hsome
    cases hsome
  · intro h
    rw [Option.eq_none_iff_forall_ne_some]
    rintro ⟨⟨X, rest⟩, n⟩ hsome
    obtain ⟨s, r, hs, hr, -⟩ := paramRegex_eq_some.mp hsome
    exact h s X r hs hr

/-- The search on a line finds its first parameter, with all that follows. -/
theorem search_paramRegex {l X r : List Char} (hl : ∀ c ∈ l, isLineEnd c = false) :
    (paramRegex.search l).map Prod.fst = some (X, r) ↔ ∃ s, Leads s X r l := by
  have hrest {s X r u : List Char} (hu : u <:+ l) (h : Refers s X r u) :
      r.takeWhile (fun c => !isLineEnd c) = r := by
    have hr : r <:+ u := ⟨s ++ X, h.text.symm⟩
    have hline := takeWhile_line hl (t := []) (by simp) (hr.trans hu)
    rwa [List.append_nil] at hline
  constructor
  · intro h
    obtain ⟨⟨m, n⟩, hm, heq⟩ := Option.map_eq_some_iff.mp h
    cases heq
    obtain ⟨u, hu, hfirst, hmatch⟩ := Matcher.search_eq_some.mp hm
    obtain ⟨s, r', hs, hr, rfl, -⟩ := paramRegex_eq_some.mp hmatch
    rw [hrest hu hr]
    exact ⟨s, hs, u, hu, hr, fun v hv hlt s' Y r' =>
      paramRegex_eq_none.mp (hfirst v hv hlt) s' Y r'⟩
  · rintro ⟨s, hs, u, hu, hr, hfirst⟩
    have hmatch := paramRegex_eq_some.mpr ⟨s, r, hs, hr, rfl, rfl⟩
    rw [hrest hu hr] at hmatch
    rw [Matcher.search_eq_some.mpr ⟨u, hu, fun v hv hlt => ?_, hmatch⟩, Option.map_some]
    exact paramRegex_eq_none.mpr fun s' Y r' => hfirst v hv hlt s' Y r'

def lines (t : List Char) : List (List Char) := t.splitOnP isLineEnd

theorem not_isLineEnd_of_mem_lines {t l : List Char} (hl : l ∈ lines t) :
    ∀ c ∈ l, isLineEnd c = false := by
  induction t generalizing l with
  | nil =>
    rw [lines, List.splitOnP_nil, List.mem_singleton] at hl
    simp [hl]
  | cons d t ih =>
    rw [lines, List.splitOnP_cons_eq_if_modifyHead] at hl
    obtain ⟨m, ms, hms⟩ := List.exists_cons_of_ne_nil (List.splitOnP_ne_nil isLineEnd t)
    have hmem : ∀ k ∈ m :: ms, ∀ c ∈ k, isLineEnd c = false := fun k hk =>
      ih (by rwa [lines, hms])
    split_ifs at hl with hd
    · rcases List.mem_cons.mp hl with rfl | hl
      · simp
      · exact ih hl
    · rw [hms, List.modifyHead_cons] at hl
      rcases List.mem_cons.mp hl with rfl | hl
      · intro c hc
        rcases List.mem_cons.mp hc with rfl | hc
        · simpa using hd
        · exact hmem m List.mem_cons_self c hc
      · exact hmem l (List.mem_cons_of_mem m hl)

theorem exists_of_lines_cons {t l : List Char} {ls : List (List Char)} (h : lines t = l :: ls) :
    ∃ z, t = l ++ z ∧ ∀ c ∈ z.head?, isLineEnd c := by
  induction t generalizing l ls with
  | nil =>
    obtain ⟨rfl, -⟩ := List.cons.inj h
    exact ⟨[], rfl, by simp⟩
  | cons d t ih =>
    rw [lines, List.splitOnP_cons_eq_if_modifyHead] at h
    split_ifs at h with hd
    · obtain ⟨rfl, -⟩ := List.cons.inj h
      exact ⟨d :: t, rfl, by simpa using hd⟩
    · obtain ⟨m, ms, hms⟩ := List.exists_cons_of_ne_nil (List.splitOnP_ne_nil isLineEnd t)
      rw [hms, List.modifyHead_cons] at h
      obtain ⟨rfl, -⟩ := List.cons.inj h
      obtain ⟨z, rfl, hz⟩ := ih hms
      exact ⟨z, rfl, hz⟩

/-- A line stands in the text, and what follows it begins with the end of the line. -/
theorem exists_of_mem_lines {t l : List Char} (hl : l ∈ lines t) :
    ∃ a z, t = a ++ (l ++ z) ∧ ∀ c ∈ z.head?, isLineEnd c := by
  induction t generalizing l with
  | nil =>
    rw [lines, List.splitOnP_nil, List.mem_singleton] at hl
    exact ⟨[], [], by simp [hl], by simp⟩
  | cons d t ih =>
    rw [lines, List.splitOnP_cons_eq_if_modifyHead] at hl
    split_ifs at hl with hd
    · rcases List.mem_cons.mp hl with rfl | hl
      · exact ⟨[], d :: t, rfl, by simpa using hd⟩
      · obtain ⟨a, z, rfl, hz⟩ := ih hl
        exact ⟨d :: a, z, rfl, hz⟩
    · obtain ⟨m, ms, hms⟩ := List.exists_cons_of_ne_nil (List.splitOnP_ne_nil isLineEnd t)
      rw [hms, List.modifyHead_cons] at hl
      rcases List.mem_cons.mp hl with rfl | hl
      · obtain ⟨z, rfl, hz⟩ := exists_of_lines_cons hms
        exact ⟨[], z, rfl, hz⟩
      · obtain ⟨a, z, rfl, hz⟩ := ih (by rw [lines, hms]; exact List.mem_cons_of_mem m hl)
        exact ⟨d :: a, z, rfl, hz⟩

/-- The iterator goes through the first parameter of every line. -/
theorem mem_paramMatches {t X r : List Char} :
    (X, r) ∈ paramMatches t ↔ ∃ l ∈ lines t, ∃ s, Leads s X r l := by
  rw [paramMatches, paramRegex_linewise.scan_eq, List.mem_filterMap]
  constructor
  · rintro ⟨l, hl, h⟩
    exact ⟨l, hl, (search_paramRegex (not_isLineEnd_of_mem_lines hl)).mp h⟩
  · rintro ⟨l, hl, h⟩
    exact ⟨l, hl, (search_paramRegex (not_isLineEnd_of_mem_lines hl)).mpr h⟩

end PowerScreen.Macros
