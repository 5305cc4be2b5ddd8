import Mathlib.Data.List.Infix
import PowerScreen.Library.Fields

/-! # Editing a text file line by line

A text is looked through for a line, gets a line at its end, or one after certain lines. A
last line without a newline is a line too.
-/
namespace PowerScreen.Library.LineEdit

abbrev Line := List Char

def lines (text : List Char) : List Line := fields '\n' text

/-- A pattern has characters and places where any character fits. -/
abbrev Pattern := List (Option Char)

def literal (word : List Char) : Pattern := word.map some

def matchesHere : Pattern → Line → Bool
  | [], _ => true
  | _ :: _, [] => false
  | some p :: ps, c :: cs => p = c && matchesHere ps cs
  | none :: ps, _ :: cs => matchesHere ps cs

/-- The pattern fits somewhere in the line. -/
def contains (pattern : Pattern) (line : Line) : Bool := line.tails.any (matchesHere pattern)

def grep (p : Line → Bool) (text : List Char) : Bool := (lines text).any p

def appendLine (line : Line) (text : List Char) : List Char := text ++ '\n' :: (line ++ ['\n'])

/-- A line of its own, after every line that is an anchor. -/
def insertAfter (anchor : Line → Bool) (line : Line) (ls : List Line) : List Line :=
  ls.flatMap fun l => if anchor l then [l, line] else [l]

/-- The same in a text, where a last line without a newline stays so if nothing follows it. -/
def sedAppend (anchor : Line → Bool) (line : Line) (text : List Char) : List Char :=
  let edited := (insertAfter anchor line (lines text)).flatMap (· ++ ['\n'])
  if text.getLast?.any (· ≠ '\n') && !(lines text).getLast?.any anchor then edited.dropLast
  else edited

def appendUnless (guard : Line → Bool) (line : Line) (text : List Char) : List Char :=
  if grep guard text then text else appendLine line text

def insertUnless (guard anchor : Line → Bool) (line : Line) (text : List Char) : List Char :=
  if grep guard text then text else sedAppend anchor line text

theorem matchesHere_append {pattern : Pattern} {a : Line} (h : matchesHere pattern a) (b : Line) :
    matchesHere pattern (a ++ b) := by
  induction pattern generalizing a with
  | nil => cases a <;> cases b <;> rfl
  | cons p ps ih =>
    cases a with
    | nil => cases h
    | cons c cs =>
      cases p with
      | none => exact ih h
      | some p =>
        rw [matchesHere, Bool.and_eq_true] at h
        rw [List.cons_append, matchesHere, Bool.and_eq_true]
        exact ⟨h.1, ih h.2⟩

theorem contains_append {pattern : Pattern} {a : Line} (h : contains pattern a) (b : Line) :
    contains pattern (a ++ b) := by
  obtain ⟨t, ht, hmatch⟩ := List.any_eq_true.mp h
  obtain ⟨s, rfl⟩ := (List.mem_tails t a).mp ht
  refine List.any_eq_true.mpr ⟨t ++ b, (List.mem_tails _ _).mpr ⟨s, ?_⟩,
    matchesHere_append hmatch b⟩
  rw [List.append_assoc]

/-- A text is made of lines that end in a newline and a rest that has none. -/
theorem exists_lines_rest (text : List Char) : ∃ (ls : List Line) (rest : Line),
    (∀ l ∈ ls, '\n' ∉ l) ∧ '\n' ∉ rest ∧ text = ls.flatMap (· ++ ['\n']) ++ rest := by
  induction text with
  | nil => exact ⟨[], [], by simp⟩
  | cons c cs ih =>
    obtain ⟨ls, rest, hls, hrest, rfl⟩ := ih
    by_cases hc : c = '\n'
    · exact ⟨[] :: ls, rest, by simpa using hls, hrest, by simp [hc]⟩
    · cases ls with
      | nil => exact ⟨[], c :: rest, by simp, by simp [Ne.symm hc, hrest], by simp⟩
      | cons l ls =>
        refine ⟨(c :: l) :: ls, rest, ?_, hrest, by simp⟩
        intro m hm
        rcases List.mem_cons.mp hm with rfl | hm
        · simp [Ne.symm hc, hls l List.mem_cons_self]
        · exact hls m (List.mem_cons_of_mem _ hm)

theorem lines_append {ls : List Line} (hls : ∀ l ∈ ls, '\n' ∉ l) (text : List Char) :
    lines (ls.flatMap (· ++ ['\n']) ++ text) = ls ++ lines text := by
  induction ls with
  | nil => rfl
  | cons l ls ih =>
    rw [List.flatMap_cons, List.append_assoc, List.append_assoc, List.singleton_append, lines,
      fields_append_cons (hls l List.mem_cons_self), List.cons_append]
    exact congrArg (l :: ·) (ih fun m hm => hls m (List.mem_cons_of_mem _ hm))

theorem lines_rest {rest : Line} (hrest : '\n' ∉ rest) :
    lines rest = if rest = [] then [] else [rest] := by
  split_ifs with hnil
  · rw [hnil]
    rfl
  · exact fields_of_not_mem hrest hnil

/-- Where the text ends in a newline, an empty line comes before the new one. -/
theorem lines_appendLine {line : Line} (hline : '\n' ∉ line) (text : List Char) :
    ∃ blank, (∀ l ∈ blank, l = []) ∧
      lines (appendLine line text) = lines text ++ blank ++ [line] := by
  obtain ⟨ls, rest, hls, hrest, rfl⟩ := exists_lines_rest text
  have hlast : lines (line ++ ['\n']) = [line] := by
    rw [lines, fields_append_cons hline]
    rfl
  have hlines : lines (appendLine line (ls.flatMap (· ++ ['\n']) ++ rest)) =
      ls ++ rest :: [line] := by
    rw [appendLine, List.append_assoc, lines_append hls, lines, fields_append_cons hrest]
    exact congrArg (fun t => ls ++ rest :: t) hlast
  rw [hlines, lines_append hls, lines_rest hrest]
  by_cases hnil : rest = []
  · exact ⟨[[]], by simp, by simp [hnil]⟩
  · exact ⟨[], by simp, by simp [hnil]⟩

theorem newline_not_mem_insertAfter {anchor : Line → Bool} {line : Line} (hline : '\n' ∉ line)
    {ls : List Line} (hls : ∀ l ∈ ls, '\n' ∉ l) : ∀ l ∈ insertAfter anchor line ls, '\n' ∉ l := by
  intro l hl
  obtain ⟨m, hm, hl⟩ := List.mem_flatMap.mp hl
  split_ifs at hl
  · rcases List.mem_cons.mp hl with rfl | hl
    · exact hls _ hm
    · exact List.mem_singleton.mp hl ▸ hline
  · exact List.mem_singleton.mp hl ▸ hls m hm

theorem insertAfter_append (anchor : Line → Bool) (line : Line) (ls ms : List Line) :
    insertAfter anchor line (ls ++ ms) = insertAfter anchor line ls ++ insertAfter anchor line ms :=
  List.flatMap_append

theorem lines_sedAppend {line : Line} (hline : '\n' ∉ line) (anchor : Line → Bool)
    (text : List Char) :
    lines (sedAppend anchor line text) = insertAfter anchor line (lines text) := by
  obtain ⟨ls, rest, hls, hrest, htext⟩ := exists_lines_rest text
  have hlines : lines text = ls ++ lines rest := by rw [htext, lines_append hls]
  have hmem : ∀ l ∈ lines text, '\n' ∉ l := by
    rw [hlines, lines_rest hrest]
    intro l hl
    rcases List.mem_append.mp hl with hl | hl
    · exact hls l hl
    · split_ifs at hl
      · cases hl
      · exact List.mem_singleton.mp hl ▸ hrest
  have hnew : ∀ l ∈ insertAfter anchor line (lines text), '\n' ∉ l :=
    newline_not_mem_insertAfter hline hmem
  have hfull : lines ((insertAfter anchor line (lines text)).flatMap (· ++ ['\n'])) =
      insertAfter anchor line (lines text) := fields_lines hnew
  unfold sedAppend
  dsimp only
  split_ifs with hend
  · rw [Bool.and_eq_true] at hend
    have hne : rest ≠ [] := by
      rintro rfl
      rcases List.eq_nil_or_concat ls with rfl | ⟨ms, m, rfl⟩
      · simp [htext] at hend
      · simp [htext, ← List.append_assoc] at hend
    rw [lines_rest hrest, if_neg hne] at hlines
    have hanchor : anchor rest = false := by simpa [hlines] using hend.2
    have hsplit : insertAfter anchor line (lines text) = insertAfter anchor line ls ++ [rest] := by
      rw [hlines, insertAfter_append]
      simp [insertAfter, hanchor]
    have hbefore : ∀ l ∈ insertAfter anchor line ls, '\n' ∉ l := fun l hl =>
      hnew l (hsplit ▸ List.mem_append_left _ hl)
    rw [hsplit, List.flatMap_append, List.flatMap_singleton, ← List.append_assoc,
      List.dropLast_concat, lines_append hbefore, lines_rest hrest, if_neg hne]
  · exact hfull

theorem sedAppend_of_not_grep {anchor : Line → Bool} {text : List Char} (h : ¬ grep anchor text)
    (line : Line) : sedAppend anchor line text = text := by
  obtain ⟨ls, rest, hls, hrest, htext⟩ := exists_lines_rest text
  have hlines : lines text = ls ++ lines rest := by rw [htext, lines_append hls]
  have hno : ∀ l ∈ lines text, anchor l = false := by
    simpa [grep] using h
  have hsame : insertAfter anchor line (lines text) = lines text := by
    rw [insertAfter, List.flatMap_congr (g := fun l => [l]) fun l hl => by simp [hno l hl]]
    simp
  unfold sedAppend
  rw [hsame]
  dsimp only
  by_cases hnil : rest = []
  · have hend : text.getLast?.any (· ≠ '\n') = false := by
      rcases List.eq_nil_or_concat ls with rfl | ⟨ms, m, rfl⟩
      · simp [htext, hnil]
      · simp [htext, hnil, ← List.append_assoc]
    rw [hend, Bool.false_and, if_neg Bool.false_ne_true, hlines, lines_rest hrest, if_pos hnil,
      List.append_nil]
    simp [htext, hnil]
  · have hend : text.getLast?.any (· ≠ '\n') := by
      rw [htext, List.getLast?_append_of_ne_nil _ hnil, List.getLast?_eq_some_getLast hnil,
        Option.any_some]
      exact decide_eq_true fun heq => hrest (heq ▸ List.getLast_mem hnil)
    have hlast : (lines text).getLast?.any anchor = false := by
      rw [hlines, lines_rest hrest, if_neg hnil]
      have hrestMem : rest ∈ lines text := by
        rw [hlines, lines_rest hrest, if_neg hnil]
        simp
      simpa using hno rest hrestMem
    rw [hend, hlast, if_pos (by rfl), hlines, lines_rest hrest, if_neg hnil, List.flatMap_append,
      List.flatMap_singleton, ← List.append_assoc, List.dropLast_concat, htext]

/-- There is one active line, and every other line that is not empty is one of before. -/
structure Once (active : Line → Bool) (before after : List Char) : Prop where
  once : (lines after).countP active = 1
  kept : (lines before).Sublist (lines after)
  others : (lines after).filter (fun l => !active l && l ≠ []) =
    (lines before).filter fun l => !active l && l ≠ []

section Edits

variable {guard active anchor : Line → Bool} {line : Line}

theorem once_self_iff {text : List Char} :
    Once active text text ↔ (lines text).countP active = 1 :=
  ⟨fun h => h.once, fun h => ⟨h, List.Sublist.refl _, rfl⟩⟩

theorem countP_of_not_grep (hactive : ∀ l, active l → guard l) {text : List Char}
    (h : ¬ grep guard text) : (lines text).countP active = 0 := by
  refine List.countP_eq_zero.mpr fun l hl hact => h ?_
  exact List.any_eq_true.mpr ⟨l, hl, hactive l hact⟩

variable (hline : '\n' ∉ line) (hact : active line) (hactive : ∀ l, active l → guard l)
include hline hact hactive

/-- A line appended unless the guard finds one. -/
theorem once_appendUnless_iff (hempty : active [] = false) (text : List Char) :
    Once active text (appendUnless guard line text) ↔
      ¬ grep guard text ∨ (lines text).countP active = 1 := by
  unfold appendUnless
  split_ifs with hgrep
  · rw [once_self_iff]
    simp [hgrep]
  · refine iff_of_true ?_ (Or.inl hgrep)
    obtain ⟨blank, hblank, hlines⟩ := lines_appendLine hline text
    have hnone : ∀ l ∈ blank, active l = false := fun l hl => by rw [hblank l hl, hempty]
    refine ⟨?_, ?_, ?_⟩
    · have hblank0 : blank.countP active = 0 := List.countP_eq_zero.mpr fun l hl hact =>
        Bool.false_ne_true ((hnone l hl).symm.trans hact)
      rw [hlines, List.countP_append, List.countP_append, hblank0,
        countP_of_not_grep hactive hgrep, List.countP_singleton, if_pos hact]
    · rw [hlines, List.append_assoc]
      exact List.sublist_append_left _ _
    · have hblank' : blank.filter (fun l => !active l && l ≠ []) = [] :=
        List.filter_eq_nil_iff.mpr fun l hl => by simp [hblank l hl]
      rw [hlines, List.filter_append, List.filter_append, hblank', List.append_nil]
      simp [hact]

theorem appendUnless_idempotent (text : List Char) :
    appendUnless guard line (appendUnless guard line text) = appendUnless guard line text := by
  by_cases hgrep : grep guard text
  · have hsame : appendUnless guard line text = text := if_pos hgrep
    rw [hsame, hsame]
  · have hnew : appendUnless guard line text = appendLine line text := if_neg hgrep
    obtain ⟨blank, -, hlines⟩ := lines_appendLine hline text
    have hfound : grep guard (appendLine line text) := by
      rw [grep, hlines]
      exact List.any_eq_true.mpr ⟨line, by simp, hactive line hact⟩
    rw [hnew]
    exact if_pos hfound

omit hline hact hactive in
theorem filter_insertAfter {p : Line → Bool} (hp : p line = false) (ls : List Line) :
    (insertAfter anchor line ls).filter p = ls.filter p := by
  induction ls with
  | nil => rfl
  | cons l ls ih =>
    rw [insertAfter, List.flatMap_cons, List.filter_append]
    change _ ++ (insertAfter anchor line ls).filter p = _
    rw [ih]
    split_ifs <;> cases h : p l <;> simp [h, hp]

omit hline hactive in
theorem countP_insertAfter (ls : List Line) :
    (insertAfter anchor line ls).countP active = ls.countP active + ls.countP anchor := by
  induction ls with
  | nil => rfl
  | cons l ls ih =>
    rw [insertAfter, List.flatMap_cons, List.countP_append]
    change _ + (insertAfter anchor line ls).countP active = _
    rw [ih]
    by_cases h : anchor l <;> by_cases hl : active l <;>
      simp only [h, hl, hact, List.countP_cons, List.countP_nil, if_true, if_false,
        Bool.false_eq_true] <;> omega

omit hline hact hactive in
theorem sublist_insertAfter (ls : List Line) : ls.Sublist (insertAfter anchor line ls) := by
  induction ls with
  | nil => exact List.nil_sublist _
  | cons l ls ih =>
    rw [insertAfter, List.flatMap_cons]
    split_ifs
    · exact (ih.cons line).cons_cons l
    · exact ih.cons_cons l

/-- A line put after the anchors unless the guard finds one: one anchor is needed. -/
theorem once_insertUnless_iff (text : List Char) :
    Once active text (insertUnless guard anchor line text) ↔
      if grep guard text then (lines text).countP active = 1
      else (lines text).countP anchor = 1 := by
  unfold insertUnless
  split_ifs with hgrep
  · exact once_self_iff
  · have hcount : (lines (sedAppend anchor line text)).countP active =
        (lines text).countP anchor := by
      rw [lines_sedAppend hline, countP_insertAfter hact, countP_of_not_grep hactive hgrep,
        Nat.zero_add]
    refine ⟨fun h => hcount.symm.trans h.once, fun h => ⟨hcount.trans h, ?_, ?_⟩⟩
    · rw [lines_sedAppend hline]
      exact sublist_insertAfter _
    · rw [lines_sedAppend hline]
      exact filter_insertAfter (by simp [hact]) _

theorem insertUnless_idempotent (text : List Char) :
    insertUnless guard anchor line (insertUnless guard anchor line text) =
      insertUnless guard anchor line text := by
  by_cases hgrep : grep guard text
  · have hsame : insertUnless guard anchor line text = text := if_pos hgrep
    rw [hsame, hsame]
  · have hnew : insertUnless guard anchor line text = sedAppend anchor line text := if_neg hgrep
    by_cases hanchor : grep anchor text
    · obtain ⟨l, hl, hla⟩ := List.any_eq_true.mp hanchor
      have hfound : grep guard (sedAppend anchor line text) := by
        rw [grep, lines_sedAppend hline]
        refine List.any_eq_true.mpr ⟨line, List.mem_flatMap.mpr ⟨l, hl, ?_⟩, hactive line hact⟩
        rw [if_pos hla]
        simp
      rw [hnew]
      exact if_pos hfound
    · rw [hnew, sedAppend_of_not_grep hanchor, hnew, sedAppend_of_not_grep hanchor]

end Edits

end PowerScreen.Library.LineEdit
