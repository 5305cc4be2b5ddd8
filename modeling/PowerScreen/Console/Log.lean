import PowerScreen.Console.Panel
import PowerScreen.Library.Recolor
import PowerScreen.Library.Run
import Mathlib.Data.List.TakeWhile

/-! # The log

Every line is a coloured run of one label. The `#` of a line is doubled, which is the escape
outside a run; inside one the first of the two ends the run.
-/
namespace PowerScreen.Console
open Library Library.Run Library.Recolor

/-- Errors are looked for in any case. -/
def mentionsError (line : List Char) : Bool :=
  decide ("error".toList <:+: line.map Char.toLower)

/-- The colour of a line, as the parameter of the command. -/
def lineParam (line : String) : List Char :=
  if startsWith line.toList "//".toList then "A1A1A1".toList
  else if startsWith line.toList "!!".toList || mentionsError line.toList then "FF6467".toList
  else if startsWith line.toList "ok".toList then "4ADE80".toList
  else "FAFAFA".toList

def lineText (line : String) : List Char :=
  '#' :: (lineParam line ++ ' ' :: (escape line.toList ++ ['#', '\n']))

/-- The text of `refresh_log`. -/
def Panel.refreshLog (p : Panel) : List Char := p.logLines.flatMap lineText

/-- A text as a C string. -/
def cStr (text : List Char) : List Char := text.takeWhile (· ≠ '\x00')

/-- `COLOR_FG`, the label's own colour. -/
def colorFg : ℕ := 0xFAFAFA

def lineColour (line : String) : ℕ := paramColour colorFg (lineParam line)

/-- The label shows these lines, each in its colour. -/
def Shows (p : Panel) (lines : List String) : Prop :=
  display colorFg .wait (cStr p.refreshLog) =
    lines.flatMap fun line => line.toList.map (·, lineColour line) ++ [('\n', colorFg)]

/-- No zero in it, and each `#` stands at the end of a line that is neither a comment, an error
nor an ok. -/
def Spelled (line : String) : Prop :=
  '\x00' ∉ line.toList ∧ ∃ w n, line.toList = w ++ List.replicate n '#' ∧ '#' ∉ w ∧
    (n = 0 ∨ lineColour line = colorFg)

def Panel.log (lines : List String) : Panel := run (fun p line => p.appendLog line) Panel.new lines

/-- The log holds the last lines. -/
theorem logLines_log (lines : List String) :
    (Panel.log lines).logLines = lines.drop (lines.length - 150) := by
  induction lines using List.reverseRecOn with
  | nil => rfl
  | append_singleton lines line ih =>
    have happend : lines.drop (lines.length - 150) ++ [line] =
        (lines ++ [line]).drop (lines.length - 150) :=
      (List.drop_append_of_le_length (Nat.sub_le _ _)).symm
    have hlen : lines.length - 150 + ((lines ++ [line]).length - (lines.length - 150) - 150) =
        (lines ++ [line]).length - 150 := by
      rw [List.length_append, List.length_singleton]
      omega
    rw [Panel.log, run_append, run_cons, run_nil, ← Panel.log, Panel.appendLog, ih, happend,
      List.drop_drop, List.length_drop, hlen]

theorem lineParam_plain (line : String) : '#' ∉ lineParam line ∧ ' ' ∉ lineParam line ∧
    '\x00' ∉ lineParam line := by
  rw [lineParam]
  split_ifs <;> decide

/-- What is shown of a list of lines. -/
theorem display_lines (lines : List String) : display colorFg .wait (lines.flatMap lineText) =
    lines.flatMap fun line =>
      shown colorFg (.run (lineColour line)) line.toList ++ [('\n', colorFg)] := by
  induction lines with
  | nil => rfl
  | cons line lines ih =>
    obtain ⟨hmark, hblank, -⟩ := lineParam_plain line
    have hline := display_line colorFg hmark hblank line.toList (lines.flatMap lineText)
    rw [List.flatMap_cons, List.flatMap_cons, lineText]
    simp only [List.cons_append, List.append_assoc, List.nil_append]
    rw [hline, ih]
    rfl

theorem zero_mem_refreshLog {lines : List String} :
    '\x00' ∈ lines.flatMap lineText ↔ ∃ line ∈ lines, '\x00' ∈ line.toList := by
  have hline (line : String) : '\x00' ∈ lineText line ↔ '\x00' ∈ line.toList := by
    have hescape (cs : List Char) : '\x00' ∈ escape cs ↔ '\x00' ∈ cs := by
      induction cs with
      | nil => exact Iff.rfl
      | cons c cs ih =>
        rw [escape_cons, List.mem_append, List.mem_cons, ih]
        refine or_congr ?_ Iff.rfl
        split_ifs with hc
        · subst hc
          decide
        · exact List.mem_singleton
    have hparam := (lineParam_plain line).2.2
    rw [lineText, List.mem_cons, List.mem_append, List.mem_cons, List.mem_append, hescape]
    constructor
    · rintro (h | h | h | h | h)
      · exact absurd h (by decide)
      · exact absurd h hparam
      · exact absurd h (by decide)
      · exact h
      · exact absurd h (by decide)
    · exact fun h => Or.inr (Or.inr (Or.inr (Or.inl h)))
  rw [List.mem_flatMap]
  exact exists_congr fun line => and_congr_right fun _ => hline line

theorem cStr_eq {text : List Char} (h : '\x00' ∉ text) : cStr text = text := by
  refine List.takeWhile_eq_self_iff.mpr fun c hc => decide_eq_true ?_
  rintro rfl
  exact h hc

theorem zero_notMem_cStr (text : List Char) : '\x00' ∉ cStr text := by
  intro h
  have hne := List.mem_takeWhile_imp (p := (· ≠ '\x00')) h
  exact absurd rfl (of_decide_eq_true hne)

/-- A log without zeros shows its lines iff each `#` stands at the end of a white line. -/
theorem shows_iff (p : Panel) : Shows p p.logLines ↔ ∀ line ∈ p.logLines, Spelled line := by
  by_cases hzero : '\x00' ∈ p.refreshLog
  · obtain ⟨line, hline, hin⟩ := zero_mem_refreshLog.mp hzero
    refine iff_of_false (fun h => ?_) fun h => (h line hline).1 hin
    have hshown : ('\x00', lineColour line) ∈ display colorFg .wait (cStr p.refreshLog) := by
      rw [h, List.mem_flatMap]
      exact ⟨line, hline, List.mem_append_left _ (List.mem_map.mpr ⟨_, hin, rfl⟩)⟩
    exact zero_notMem_cStr _ (mem_of_mem_display hshown)
  · have hnone : ∀ line ∈ p.logLines, '\x00' ∉ line.toList := fun line hline hin =>
      hzero (zero_mem_refreshLog.mpr ⟨line, hline, hin⟩)
    have hle (line : String) : (shown colorFg (.run (lineColour line)) line.toList ++
        [('\n', colorFg)]).length ≤
        (line.toList.map (·, lineColour line) ++ [('\n', colorFg)]).length := by
      rw [List.length_append, List.length_append, List.length_map]
      exact Nat.add_le_add_right ((length_shown_le line.toList).1 _) 1
    rw [Shows, cStr_eq hzero, Panel.refreshLog, display_lines, flatMap_eq_iff hle]
    refine forall_congr' fun line => imp_congr_right fun hline => ?_
    rw [List.append_left_inj, shown_eq_iff, Spelled]
    exact ⟨fun h => ⟨hnone line hline, h⟩, fun h => h.2⟩

/-- For every sequence of lines, the last 150 of them are shown as they are iff each is spelled. -/
theorem log_verbatim_iff (lines : List String) :
    Shows (Panel.log lines) (lines.drop (lines.length - 150)) ↔
      ∀ line ∈ lines.drop (lines.length - 150), Spelled line := by
  rw [← logLines_log]
  exact shows_iff _

/-- A line with a number sign in the middle. -/
theorem number_sign_lost : ¬ Shows (Panel.log ["layer #3"]) ["layer #3"] := by
  intro h
  have hlen := congrArg List.length h
  revert hlen
  decide

end PowerScreen.Console
