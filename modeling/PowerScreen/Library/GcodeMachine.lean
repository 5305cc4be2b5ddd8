import Mathlib.Algebra.Order.Field.Rat
import Mathlib.Data.List.TakeWhile
import Mathlib.Tactic.Ring
import PowerScreen.Library.Decimal
import PowerScreen.Library.Gcode

/-! # What G-code moves do

A move sets or shifts the axes it names, by the modes in force when it runs. A line that cannot
be read, or that asks for a move the machine does not accept, ends its script; what the lines
before it did stays.
-/
namespace PowerScreen.Library.Gcode

/-- A number as `float` reads it, without a sign. -/
def unsigned (cs : List Char) : Option ℚ :=
  let whole := cs.takeWhile Char.isDigit
  match cs.dropWhile Char.isDigit with
  | [] => if whole = [] then none else some (Nat.ofDigitChars 10 whole 0)
  | '.' :: frac =>
    if frac.all Char.isDigit ∧ whole ++ frac ≠ [] then
      some (Nat.ofDigitChars 10 (whole ++ frac) 0 / 10 ^ frac.length)
    else none
  | _ => none

def number : List Char → Option ℚ
  | '-' :: cs => (unsigned cs).map (- ·)
  | '+' :: cs => unsigned cs
  | cs => unsigned cs

/-- The text of a parameter: what follows its letter in one of the words after the command. -/
def paramText (letter : Char) (line : List Char) : Option (List Char) :=
  (fields ' ' line).tail.findSome? fun word => match word with
    | c :: cs => if c = letter then some cs else none
    | [] => none

theorem paramText_words {words : List (List Char)} {line : List Char} (letter : Char)
    (h : fields ' ' line = words) : paramText letter line =
      words.tail.findSome? fun word => match word with
        | c :: cs => if c = letter then some cs else none
        | [] => none := by
  rw [paramText, h]

structure Machine where
  modes : Modes
  position : Char → ℚ
  /-- Where the absolute coordinates begin. -/
  base : Char → ℚ
  extrudeFactor : ℚ
  target : ℚ

namespace Machine

/-- The position with one axis set. -/
def moved (p : Char → ℚ) (letter : Char) (v : ℚ) : Char → ℚ := Function.update p letter v

/-- Relative to the last position, or to the base. -/
def destination (m : Machine) (letter : Char) (relative : Bool) (v : ℚ) : ℚ :=
  if relative then m.position letter + v else m.base letter + v

/-- One axis of a move, as far as the line names it. -/
def axis (m : Machine) (line : List Char) (letter : Char) (relative : Bool) (factor : ℚ)
    (p : Char → ℚ) : Option (Char → ℚ) :=
  match paramText letter line with
  | none => some p
  | some text => (number text).map fun v =>
    moved p letter (m.destination letter relative (factor * v))

/-- The extrusion is relative also where only the coordinates are. -/
def goal (m : Machine) (line : List Char) : Option (Char → ℚ) :=
  let relative := !m.modes.absoluteCoord
  (((m.axis line 'X' relative 1 m.position).bind (m.axis line 'Y' relative 1)).bind
    (m.axis line 'Z' relative 1)).bind
      (m.axis line 'E' (relative || !m.modes.absoluteExtrude) m.extrudeFactor)

variable (accepts : (Char → ℚ) → (Char → ℚ) → Bool)

def move (m : Machine) (line : List Char) : Option Machine :=
  (m.goal line).bind fun p => if accepts m.position p then some { m with position := p } else none

/-- Heats to the temperature, and waits for it. -/
def heat (m : Machine) (line : List Char) : Option Machine :=
  match paramText 'S' line with
  | none => some { m with target := 0 }
  | some text => (number text).map fun v => { m with target := v }

def execLine (m : Machine) (line : List Char) : Option Machine :=
  let cmd := command line
  if cmd = ['G', '0'] ∨ cmd = ['G', '1'] then m.move accepts line
  else if cmd = ['M', '1', '0', '9'] then m.heat line
  else some { m with modes := m.modes.exec cmd }

def runLines (m : Machine) : List (List Char) → Machine
  | [] => m
  | line :: lines => match m.execLine accepts line with
    | some m' => m'.runLines lines
    | none => m

def runScript (m : Machine) (script : List Char) : Machine :=
  m.runLines accepts (fields '\n' script)

section Lines

variable {accepts} {m m' : Machine} {line : List Char}

theorem runLines_cons_some (h : m.execLine accepts line = some m') (lines : List (List Char)) :
    m.runLines accepts (line :: lines) = m'.runLines accepts lines := by
  rw [runLines, h]

theorem runLines_singleton (m : Machine) (line : List Char) :
    m.runLines accepts [line] = (m.execLine accepts line).getD m := by
  rw [runLines]
  cases m.execLine accepts line <;> rfl

theorem execLine_move (h : command line = ['G', '0'] ∨ command line = ['G', '1']) :
    m.execLine accepts line = m.move accepts line := if_pos h

theorem execLine_heat (h : command line = ['M', '1', '0', '9']) :
    m.execLine accepts line = m.heat line := by
  rw [execLine, h, if_neg (by decide), if_pos rfl]

theorem execLine_mode {cmd : List Char} (h : command line = cmd)
    (hcmd : cmd ∉ [['G', '0'], ['G', '1'], ['M', '1', '0', '9']]) :
    m.execLine accepts line = some { m with modes := m.modes.exec cmd } := by
  simp only [List.mem_cons, List.not_mem_nil, or_false, not_or] at hcmd
  rw [execLine, h, if_neg (by tauto), if_neg hcmd.2.2]

end Lines

section Goals

variable {m : Machine} {line : List Char}

theorem axis_absent {letter : Char} (h : paramText letter line = none) (relative : Bool) (factor : ℚ)
    (p : Char → ℚ) : m.axis line letter relative factor p = some p := by
  rw [axis, h]

theorem axis_present {letter : Char} {text : List Char} {v : ℚ}
    (h : paramText letter line = some text) (hv : number text = some v) (relative : Bool)
    (factor : ℚ) (p : Char → ℚ) : m.axis line letter relative factor p =
      some (moved p letter (m.destination letter relative (factor * v))) := by
  rw [axis, h]
  dsimp only
  rw [hv]
  rfl

/-- A move of one axis of space. -/
theorem goal_one {letter : Char} (hletter : letter ∈ ['X', 'Y', 'Z']) {text : List Char} {v : ℚ}
    (h : ∀ l, l ∈ ['X', 'Y', 'Z', 'E'] →
      paramText l line = if l = letter then some text else none)
    (hv : number text = some v) : m.goal line =
      some (moved m.position letter (m.destination letter (!m.modes.absoluteCoord) v)) := by
  have hx := h 'X' (by decide)
  have hy := h 'Y' (by decide)
  have hz := h 'Z' (by decide)
  have he := h 'E' (by decide)
  rw [goal]
  simp only [List.mem_cons, List.not_mem_nil, or_false] at hletter
  rcases hletter with rfl | rfl | rfl
  · rw [if_pos rfl] at hx
    rw [if_neg (by decide)] at hy hz he
    rw [axis_present hx hv, Option.bind_some, axis_absent hy, Option.bind_some, axis_absent hz,
      Option.bind_some, axis_absent he, one_mul]
  · rw [if_pos rfl] at hy
    rw [if_neg (by decide)] at hx hz he
    rw [axis_absent hx, Option.bind_some, axis_present hy hv, Option.bind_some, axis_absent hz,
      Option.bind_some, axis_absent he, one_mul]
  · rw [if_pos rfl] at hz
    rw [if_neg (by decide)] at hx hy he
    rw [axis_absent hx, Option.bind_some, axis_absent hy, Option.bind_some, axis_present hz hv,
      Option.bind_some, axis_absent he, one_mul]

/-- A relative extrusion, whatever the mode of the coordinates. -/
theorem goal_feed (hmode : m.modes.absoluteExtrude = false) {text : List Char} {v : ℚ}
    (h : ∀ l, l ∈ ['X', 'Y', 'Z', 'E'] → paramText l line = if l = 'E' then some text else none)
    (hv : number text = some v) :
    m.goal line = some (moved m.position 'E' (m.position 'E' + m.extrudeFactor * v)) := by
  have hrel : (!m.modes.absoluteCoord || !m.modes.absoluteExtrude) = true := by
    rw [hmode, Bool.not_false, Bool.or_true]
  have hx := h 'X' (by decide)
  have hy := h 'Y' (by decide)
  have hz := h 'Z' (by decide)
  have he := h 'E' (by decide)
  rw [if_neg (by decide)] at hx hy hz
  rw [if_pos rfl] at he
  rw [goal, hrel, axis_absent hx, Option.bind_some, axis_absent hy, Option.bind_some, axis_absent hz,
    Option.bind_some, axis_present he hv]
  rfl

end Goals

end Machine

theorem unsigned_toDigits (n : ℕ) : unsigned (Nat.toDigits 10 n) = some (n : ℚ) := by
  have hall : ∀ c ∈ Nat.toDigits 10 n, c.isDigit := fun c hc => Decimal.isDigit_of_mem_toDigits hc
  have htake : (Nat.toDigits 10 n).takeWhile Char.isDigit = Nat.toDigits 10 n :=
    List.takeWhile_eq_self_iff.mpr hall
  have hdrop : (Nat.toDigits 10 n).dropWhile Char.isDigit = [] :=
    List.dropWhile_eq_nil_iff.mpr hall
  rw [unsigned, htake, hdrop]
  simp [Nat.toDigits_ne_nil, Nat.ofDigitChars_ten_toDigits]

/-- A text without a sign of its own takes the one before it. -/
theorem number_signed {cs : List Char} (hcs : cs.head? ≠ some '-' ∧ cs.head? ≠ some '+') {v : ℚ}
    (h : unsigned cs = some v) : number cs = some v ∧ number ('-' :: cs) = some (-v) ∧
      number ('+' :: cs) = some v := by
  refine ⟨?_, by rw [number, h, Option.map_some], by rw [number, h]⟩
  unfold number
  split
  · exact absurd rfl hcs.1
  · exact absurd rfl hcs.2
  · exact h

end PowerScreen.Library.Gcode
