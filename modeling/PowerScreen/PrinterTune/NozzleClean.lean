import PowerScreen.Library.GcodeMachine
import PowerScreen.PidTune.Panel
import PowerScreen.PrinterTune.Grid

/-! # The way to the brush

A confirmed cleaning without the filament box drives over the bed to the brush. The script
lifts the nozzle first where the stored height says so, and homes before that where the
stored axes say so.
-/
namespace PowerScreen.PrinterTune
open Library Library.Gcode

/-- The toolhead's stored height is a number below 30. -/
def lifts (s : State) : Option Bool :=
  (s.getData ["printer_state", "toolhead", "position", "2"]).map fun z =>
    z.num?.any fun n => decide (n.toRat < 30)

def toBrush : List Char := "G90\nG0 X148.5 F5000\nG0 Y225 F5000\nPS_NOCFS_CLEAN_BRUSH".toList

/-- The script of a confirmed cleaning. -/
def cleanScript (mode : NozzleCleanMode) (s : State) : Option (List Char) := do
  let homed ← PidTune.isHomed s
  let home := if homed then [] else "G28\n".toList
  if mode = .box then return home ++ "BOX_NOZZLE_CLEAN".toList
  else return home ++ (if ← lifts s then "G90\nG1 Z30 F600\n".toList else []) ++ toBrush

/-- The commands of the printer's own that the scripts use. -/
def ownCommands : List (List Char) :=
  ["G28".toList, "BOX_NOZZLE_CLEAN".toList, "PS_NOCFS_CLEAN_BRUSH".toList]

def isOwn (cmd : List Char) : Bool := ownCommands.any fun own => own = cmd

variable (own : List Char → Machine → Machine) (accepts : (Char → ℚ) → (Char → ℚ) → Bool)

def execLine (m : Machine) (line : List Char) : Option Machine :=
  if isOwn (command line) then some (own (command line) m) else m.execLine accepts line

/-- The moves of a script, from where to where, but those of the printer's own commands. -/
def moves (m : Machine) : List (List Char) → List ((Char → ℚ) × (Char → ℚ))
  | [] => []
  | line :: lines => match execLine own accepts m line with
    | none => []
    | some m' => (if isOwn (command line) then [] else [(m.position, m'.position)]) ++
      moves m' lines

def scriptMoves (m : Machine) (script : List Char) : List ((Char → ℚ) × (Char → ℚ)) :=
  moves own accepts m (fields '\n' script)

/-- A move over the bed. -/
def Travels (move : (Char → ℚ) × (Char → ℚ)) : Prop :=
  move.1 'X' ≠ move.2 'X' ∨ move.1 'Y' ≠ move.2 'Y'

theorem isOwn_commands : isOwn (command "G28".toList) ∧
    isOwn (command "BOX_NOZZLE_CLEAN".toList) ∧ isOwn (command "PS_NOCFS_CLEAN_BRUSH".toList) ∧
    ¬ isOwn ['G', '9', '0'] ∧ ¬ isOwn ['G', '0'] ∧ ¬ isOwn ['G', '1'] := by
  decide

section Lines

variable {own accepts} {m : Machine} {line : List Char} {lines : List (List Char)}

theorem moves_own (h : isOwn (command line)) :
    moves own accepts m (line :: lines) = moves own accepts (own (command line) m) lines := by
  rw [moves, execLine, if_pos h]
  dsimp only
  rw [if_pos h, List.nil_append]

theorem moves_absolute : moves own accepts m ("G90".toList :: lines) =
    (m.position, m.position) ::
      moves own accepts { m with modes := { m.modes with absoluteCoord := true } } lines := by
  have hcmd : command "G90".toList = ['G', '9', '0'] := rfl
  have hown : ¬ isOwn (command "G90".toList) := by
    rw [hcmd]
    exact isOwn_commands.2.2.2.1
  have hexec : m.execLine accepts "G90".toList =
      some { m with modes := { m.modes with absoluteCoord := true } } :=
    Machine.execLine_mode hcmd (by decide)
  rw [moves, execLine, if_neg hown, hexec]
  dsimp only
  rw [if_neg hown, List.singleton_append]

/-- A move of one axis of space to a coordinate. -/
structure GoesTo (line : List Char) (letter : Char) (v : ℚ) : Prop where
  cmd : command line = ['G', '0'] ∨ command line = ['G', '1']
  axis : letter ∈ ['X', 'Y', 'Z']
  text : ∃ text, number text = some v ∧ ∀ l, l ∈ ['X', 'Y', 'Z', 'E'] →
    paramText l line = if l = letter then some text else none

/-- The rest of the script runs if the printer accepts the move. -/
theorem moves_to {letter : Char} {v : ℚ} (hline : GoesTo line letter v)
    (hmode : m.modes.absoluteCoord = true) {move : (Char → ℚ) × (Char → ℚ)}
    (hmove : move ∈ moves own accepts m (line :: lines)) :
    let q := Machine.moved m.position letter (m.base letter + v)
    move = (m.position, q) ∨ move ∈ moves own accepts { m with position := q } lines := by
  intro q
  obtain ⟨text, hv, h⟩ := hline.text
  have hown : ¬ isOwn (command line) := by
    obtain ⟨-, -, -, -, hzero, hone⟩ := isOwn_commands
    rcases hline.cmd with h | h <;> rw [h] <;> assumption
  have hgoal : m.goal line = some q := by
    rw [Machine.goal_one hline.axis h hv, hmode]
    rfl
  rw [moves, execLine, if_neg hown, Machine.execLine_move hline.cmd, Machine.move, hgoal,
    Option.bind_some] at hmove
  cases haccepts : accepts m.position q with
  | false =>
    rw [haccepts] at hmove
    cases hmove
  | true =>
    rw [haccepts, if_pos rfl] at hmove
    dsimp only at hmove
    rw [if_neg hown, List.singleton_append] at hmove
    exact List.mem_cons.mp hmove

end Lines

theorem fields_box (homed : Bool) :
    fields '\n' ((if homed then [] else "G28\n".toList) ++ "BOX_NOZZLE_CLEAN".toList) =
      (if homed then [] else ["G28".toList]) ++ ["BOX_NOZZLE_CLEAN".toList] := by
  cases homed <;> rfl

def liftLines : List (List Char) := ["G90".toList, "G1 Z30 F600".toList]

def brushLines : List (List Char) :=
  ["G90".toList, "G0 X148.5 F5000".toList, "G0 Y225 F5000".toList, "PS_NOCFS_CLEAN_BRUSH".toList]

theorem fields_clean (homed lift : Bool) :
    fields '\n' ((if homed then [] else "G28\n".toList) ++
      (if lift then "G90\nG1 Z30 F600\n".toList else []) ++ toBrush) =
    (if homed then [] else ["G28".toList]) ++ (if lift then liftLines else []) ++ brushLines := by
  cases homed <;> cases lift <;> rfl

theorem goesTo_z : GoesTo "G1 Z30 F600".toList 'Z' 30 :=
  ⟨Or.inr rfl, by decide, "30".toList, by rfl, forall_mem_of_all rfl⟩

theorem goesTo_x : GoesTo "G0 X148.5 F5000".toList 'X' (297 / 2) :=
  ⟨Or.inl rfl, by decide, "148.5".toList, by decide +kernel, forall_mem_of_all rfl⟩

theorem goesTo_y : GoesTo "G0 Y225 F5000".toList 'Y' 225 :=
  ⟨Or.inl rfl, by decide, "225".toList, by rfl, forall_mem_of_all rfl⟩

variable {own accepts}

/-- The way to the brush stays at the height it begins at. -/
theorem height_brushLines {m : Machine} {move : (Char → ℚ) × (Char → ℚ)}
    (hmove : move ∈ moves own accepts m brushLines) (ht : Travels move) :
    move.1 'Z' = m.position 'Z' ∧ move.2 'Z' = m.position 'Z' := by
  rw [brushLines, moves_absolute] at hmove
  rcases List.mem_cons.mp hmove with rfl | hmove
  · simp [Travels] at ht
  · rcases moves_to goesTo_x rfl hmove with rfl | hmove
    · exact ⟨rfl, rfl⟩
    · rcases moves_to goesTo_y rfl hmove with rfl | hmove
      · exact ⟨rfl, rfl⟩
      · rw [moves_own isOwn_commands.2.2.1] at hmove
        cases hmove

/-- With a lift it begins at 30. -/
theorem height_liftLines {m : Machine} {move : (Char → ℚ) × (Char → ℚ)}
    (hmove : move ∈ moves own accepts m (liftLines ++ brushLines)) (ht : Travels move) :
    move.1 'Z' = m.base 'Z' + 30 ∧ move.2 'Z' = m.base 'Z' + 30 := by
  rw [liftLines, List.cons_append, moves_absolute] at hmove
  rcases List.mem_cons.mp hmove with rfl | hmove
  · simp [Travels] at ht
  · rcases moves_to goesTo_z rfl hmove with rfl | hmove
    · simp [Travels, Machine.moved] at ht
    · exact height_brushLines hmove ht

/-- The printer that the script's own moves start from. -/
def atStart (own : List Char → Machine → Machine) (s : State) (m : Machine) : Machine :=
  if PidTune.isHomed s = some true then m else own "G28".toList m

/-- A homed toolhead near the bed. -/
def nearBed : State where
  entries := [("printer_state", .obj [("toolhead", .obj [("homed_axes", .str "xyz"),
    ("position", .arr [.num (.int 0), .num (.int 0), .num (.int 5), .num (.int 0)])])])]
  sorted := by decide

def atFive : Machine where
  modes := ⟨true, true⟩
  position l := if l = 'Z' then 5 else 0
  base _ := 0
  extrudeFactor := 1
  target := 0

end PowerScreen.PrinterTune
