import PowerScreen.Library.Fields

/-! # The modes of a G-code interpreter

Two modes outlive the command that sets them: whether the coordinates of a move are
absolute, and whether its extrusion is. A script runs line by line, and the first word of a
line is its command.
-/
namespace PowerScreen.Library.Gcode

structure Modes where
  absoluteCoord : Bool
  absoluteExtrude : Bool
deriving DecidableEq

def command (line : List Char) : List Char := line.takeWhile (· ≠ ' ')

namespace Modes

def exec (m : Modes) (cmd : List Char) : Modes :=
  if cmd = ['G', '9', '0'] then { m with absoluteCoord := true }
  else if cmd = ['G', '9', '1'] then { m with absoluteCoord := false }
  else if cmd = ['M', '8', '2'] then { m with absoluteExtrude := true }
  else if cmd = ['M', '8', '3'] then { m with absoluteExtrude := false }
  else m

def runLine (m : Modes) (line : List Char) : Modes := m.exec (command line)

def runScript (m : Modes) (script : List Char) : Modes :=
  (fields '\n' script).foldl runLine m

/-- The script begins with a line of its own. -/
theorem runScript_line_append (m : Modes) {line : List Char} (hline : '\n' ∉ line)
    (script : List Char) :
    m.runScript (line ++ '\n' :: script) = (m.runLine line).runScript script := by
  rw [runScript, fields_append_cons hline, List.foldl_cons, runScript]

theorem runScript_line (m : Modes) {line : List Char} (hline : '\n' ∉ line) (hne : line ≠ []) :
    m.runScript line = m.runLine line := by
  rw [runScript, fields_of_not_mem hline hne, List.foldl_cons, List.foldl_nil]

end Modes

theorem command_append_space {cmd : List Char} (hcmd : ' ' ∉ cmd) (rest : List Char) :
    command (cmd ++ ' ' :: rest) = cmd := by
  induction cmd with
  | nil => rfl
  | cons c cmd ih =>
    have hc : c ≠ ' ' := fun h => hcmd (h ▸ List.mem_cons_self)
    rw [List.cons_append, command, List.takeWhile_cons_of_pos (by simp [hc])]
    exact congrArg (c :: ·) (ih fun h => hcmd (List.mem_cons_of_mem c h))

end PowerScreen.Library.Gcode
