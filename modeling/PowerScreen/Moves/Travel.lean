import PowerScreen.Library.GcodeMachine
import PowerScreen.Moves.Modes

/-! # Where manual moves take the printer

The script of a tap sets the mode that its move needs, so what the move does depends neither on
the modes that the printer was in nor on what other scripts did in between: a jog goes the
selected distance and a feed the selected length, heated to the selected temperature.
-/
namespace PowerScreen.Moves
open Library Library.Gcode Library.Run

/-- The selected distance in millimetres. -/
def distanceMm : Fin 7 → ℚ := ![1 / 10, 1 / 2, 1, 5, 10, 25, 50]

def signed (up : Bool) (v : ℚ) : ℚ := if up then v else -v

/-- The two panels and the printer. -/
structure Printer where
  homing : HomingPanel := {}
  extruder : ExtruderPanel := {}
  machine : Machine

/-- A tap, or anything else that changes how the printer reads G-code. -/
inductive Act where
  | tap (t : Tap)
  | other (modes : Modes) (base : Char → ℚ) (extrudeFactor target : ℚ)

section
variable (accepts : (Char → ℚ) → (Char → ℚ) → Bool)

namespace Printer

def send (s : Printer) (ms : List Message) : Printer :=
  { s with machine := ms.foldl (fun m msg => match msg with
    | .gcodeScript script => m.runScript accepts script
    | .jsonrpc _ => m) s.machine }

def step (s : Printer) : Act → Printer
  | .tap (.jog axis up) => s.send accepts (s.homing.handleCallback (.jog axis up))
  | .tap .extrude => s.send accepts (s.extruder.handleCallback .extrude)
  | .tap .retract => s.send accepts (s.extruder.handleCallback .retract)
  | .tap (.distance idx) => { s with homing := { s.homing with distanceIdx := idx } }
  | .tap (.temp idx) => { s with extruder := { s.extruder with tempIdx := idx } }
  | .tap (.length idx) => { s with extruder := { s.extruder with lengthIdx := idx } }
  | .tap (.speed idx) => { s with extruder := { s.extruder with speedIdx := idx } }
  | .other modes base extrudeFactor target =>
    { s with machine := { s.machine with modes := modes, base := base
                                         extrudeFactor := extrudeFactor, target := target } }

end Printer

/-- What the taps are for: the toolhead, what is selected, and no modes. -/
structure Toolhead where
  homing : HomingPanel
  extruder : ExtruderPanel
  position : Char → ℚ
  extrudeFactor : ℚ
  target : ℚ

namespace Toolhead

/-- The axis goes a way, if the printer accepts where it leads. -/
def shift (t : Toolhead) (letter : Char) (way : ℚ) : Toolhead :=
  let p := Machine.moved t.position letter (t.position letter + way)
  if accepts t.position p then { t with position := p } else t

def feed (t : Toolhead) (sign : ℚ) : Toolhead :=
  let heated : Toolhead := { t with target := temperatures t.extruder.tempIdx }
  heated.shift accepts 'E' (t.extrudeFactor * (sign * lengths t.extruder.lengthIdx))

def step (t : Toolhead) : Act → Toolhead
  | .tap (.jog axis up) =>
    t.shift accepts axis.letter (signed up (distanceMm t.homing.distanceIdx))
  | .tap .extrude => t.feed accepts 1
  | .tap .retract => t.feed accepts (-1)
  | .tap (.distance idx) => { t with homing := { t.homing with distanceIdx := idx } }
  | .tap (.temp idx) => { t with extruder := { t.extruder with tempIdx := idx } }
  | .tap (.length idx) => { t with extruder := { t.extruder with lengthIdx := idx } }
  | .tap (.speed idx) => { t with extruder := { t.extruder with speedIdx := idx } }
  | .other _ _ extrudeFactor target =>
    { t with extrudeFactor := extrudeFactor, target := target }

end Toolhead

def Printer.toolhead (s : Printer) : Toolhead :=
  ⟨s.homing, s.extruder, s.machine.position, s.machine.extrudeFactor, s.machine.target⟩

end

section Scripts

variable {accepts : (Char → ℚ) → (Char → ℚ) → Bool}

theorem number_distance (i : Fin 7) (up : Bool) :
    number ((if up then '+' else '-') :: distances i) = some (signed up (distanceMm i)) := by
  have hdistance : ∀ i, unsigned (distances i) = some (distanceMm i) ∧
      (distances i).head? ≠ some '-' ∧ (distances i).head? ≠ some '+' := by decide +kernel
  obtain ⟨hv, hsign⟩ := hdistance i
  obtain ⟨-, hdown, hup⟩ := number_signed hsign hv
  cases up
  · exact hdown
  · exact hup

theorem fields_moveOp (p : HomingPanel) (axis : Axis) (up : Bool) :
    fields ' ' (p.moveOp axis up) = [['G', '0'],
      axis.letter :: (if up then '+' else '-') :: distances p.distanceIdx,
      ['F', '1', '2', '0', '0']] := by
  have hdistance : ∀ i, ' ' ∉ distances i := by decide
  have hword : ' ' ∉ axis.letter :: (if up then '+' else '-') :: distances p.distanceIdx := by
    cases axis <;> cases up <;> simp [Axis.letter, hdistance]
  have hsplit : p.moveOp axis up = ['G', '0'] ++ ' ' ::
      ((axis.letter :: (if up then '+' else '-') :: distances p.distanceIdx) ++
        ' ' :: ['F', '1', '2', '0', '0']) := by
    rw [HomingPanel.moveOp]
    rfl
  rw [hsplit, fields_append_cons (by decide), fields_append_cons hword,
    fields_of_not_mem (by decide) (List.cons_ne_nil _ _)]

/-- A jog names its own axis only. -/
theorem paramText_moveOp (p : HomingPanel) (axis : Axis) (up : Bool) :
    ∀ l, l ∈ ['X', 'Y', 'Z', 'E'] → paramText l (p.moveOp axis up) =
      if l = axis.letter then some ((if up then '+' else '-') :: distances p.distanceIdx)
      else none := by
  intro l hl
  rw [paramText_words l (fields_moveOp p axis up)]
  simp only [List.mem_cons, List.not_mem_nil, or_false] at hl
  rcases hl with rfl | rfl | rfl | rfl <;> cases axis <;> rfl

/-- A jog goes its way, or nothing moves. -/
theorem runScript_jog_machine (p : HomingPanel) (axis : Axis) (up : Bool) (m : Machine) :
    m.runScript accepts (['G', '9', '1'] ++ '\n' :: p.moveOp axis up) =
      let way := Machine.moved m.position axis.letter
        (m.position axis.letter + signed up (distanceMm p.distanceIdx))
      { m with modes := { m.modes with absoluteCoord := false }
               position := if accepts m.position way then way else m.position } := by
  have hlines : fields '\n' (['G', '9', '1'] ++ '\n' :: p.moveOp axis up) =
      [['G', '9', '1'], p.moveOp axis up] := by
    rw [fields_append_cons (by decide),
      fields_of_not_mem (newline_not_mem_moveOp p axis up) (List.cons_ne_nil _ _)]
  have hmode : m.execLine accepts ['G', '9', '1'] =
      some { m with modes := { m.modes with absoluteCoord := false } } :=
    Machine.execLine_mode (show command ['G', '9', '1'] = ['G', '9', '1'] by decide) (by decide)
  have hcmd : command (p.moveOp axis up) = ['G', '0'] := command_append_space (by decide) _
  have hgoal : ({ m with modes := { m.modes with absoluteCoord := false } } : Machine).goal
      (p.moveOp axis up) = some (Machine.moved m.position axis.letter
        (m.position axis.letter + signed up (distanceMm p.distanceIdx))) :=
    Machine.goal_one (show axis.letter ∈ ['X', 'Y', 'Z'] by cases axis <;> decide)
      (paramText_moveOp p axis up) (number_distance p.distanceIdx up)
  rw [Machine.runScript, hlines, Machine.runLines_cons_some hmode, Machine.runLines_singleton,
    Machine.execLine_move (Or.inl hcmd), Machine.move, hgoal, Option.bind_some]
  dsimp only
  split_ifs <;> rfl

theorem number_length (p : ExtruderPanel) : number p.len = some (lengths p.lengthIdx : ℚ) ∧
    number ('-' :: p.len) = some (-(lengths p.lengthIdx : ℚ)) := by
  have hhead : p.len.head? ≠ some '-' ∧ p.len.head? ≠ some '+' := by
    have hall : ∀ i, (Nat.toDigits 10 (lengths i)).head? ≠ some '-' ∧
        (Nat.toDigits 10 (lengths i)).head? ≠ some '+' := by decide
    exact hall p.lengthIdx
  obtain ⟨hplus, hminus, -⟩ := number_signed hhead (unsigned_toDigits (lengths p.lengthIdx))
  exact ⟨hplus, hminus⟩

/-- The sign of a feed: none, or a minus. -/
inductive FeedSign : List Char → ℚ → Prop
  | extrude : FeedSign [] 1
  | retract : FeedSign ['-'] (-1)

theorem fields_feed {p : ExtruderPanel} {sign : List Char} {v : ℚ} (hsign : FeedSign sign v) :
    fields '\n' (p.feed sign) = [['M', '1', '0', '9'] ++ ' ' :: 'S' :: p.temp, ['M', '8', '3'],
      ['G', '1'] ++ ' ' :: 'E' :: (sign ++ p.len ++
        ' ' :: 'F' :: Nat.toDigits 10 (speeds p.speedIdx * 60))] := by
  have hnew : '\n' ∉ sign := by cases hsign <;> decide
  have hheat : '\n' ∉ ['M', '1', '0', '9'] ++ ' ' :: 'S' :: p.temp := by
    simp [ExtruderPanel.temp, newline_not_mem_toDigits]
  have hmove : '\n' ∉ ['G', '1'] ++ ' ' :: 'E' :: (sign ++ p.len ++
      ' ' :: 'F' :: Nat.toDigits 10 (speeds p.speedIdx * 60)) := by
    simp [ExtruderPanel.len, newline_not_mem_toDigits, hnew]
  rw [ExtruderPanel.feed, fields_append_cons hheat, fields_append_cons (by decide),
    fields_of_not_mem hmove (List.cons_ne_nil _ _)]

theorem space_not_mem_toDigits (n : ℕ) : ' ' ∉ Nat.toDigits 10 n := fun h =>
  absurd (Decimal.isDigit_of_mem_toDigits h) (by decide)

/-- A feed names the extruder only. -/
theorem paramText_feed {p : ExtruderPanel} {sign : List Char} {v : ℚ} (hsign : FeedSign sign v) :
    ∀ l, l ∈ ['X', 'Y', 'Z', 'E'] → paramText l (['G', '1'] ++ ' ' :: 'E' :: (sign ++ p.len ++
      ' ' :: 'F' :: Nat.toDigits 10 (speeds p.speedIdx * 60))) =
        if l = 'E' then some (sign ++ p.len) else none := by
  have hword : ' ' ∉ 'E' :: (sign ++ p.len) := by
    cases hsign <;> simp [ExtruderPanel.len, space_not_mem_toDigits]
  have hspeed : ' ' ∉ 'F' :: Nat.toDigits 10 (speeds p.speedIdx * 60) := by
    simp [space_not_mem_toDigits]
  have hwords : fields ' ' (['G', '1'] ++ ' ' :: 'E' :: (sign ++ p.len ++
      ' ' :: 'F' :: Nat.toDigits 10 (speeds p.speedIdx * 60))) =
        [['G', '1'], 'E' :: (sign ++ p.len), 'F' :: Nat.toDigits 10 (speeds p.speedIdx * 60)] := by
    rw [fields_append_cons (by decide), ← List.cons_append, fields_append_cons hword,
      fields_of_not_mem hspeed (List.cons_ne_nil _ _)]
  intro l hl
  rw [paramText_words l hwords]
  simp only [List.mem_cons, List.not_mem_nil, or_false] at hl
  rcases hl with rfl | rfl | rfl | rfl <;> rfl

theorem number_feed {p : ExtruderPanel} {sign : List Char} {v : ℚ} (hsign : FeedSign sign v) :
    number (sign ++ p.len) = some (v * lengths p.lengthIdx) := by
  obtain ⟨hplus, hminus⟩ := number_length p
  cases hsign with
  | extrude => rw [List.nil_append, hplus, one_mul]
  | retract => rw [List.singleton_append, hminus, neg_one_mul]

theorem number_temp (p : ExtruderPanel) : number p.temp = some (temperatures p.tempIdx : ℚ) := by
  have hall : ∀ i, (Nat.toDigits 10 (temperatures i)).head? ≠ some '-' ∧
      (Nat.toDigits 10 (temperatures i)).head? ≠ some '+' := by decide
  exact (number_signed (hall p.tempIdx) (unsigned_toDigits (temperatures p.tempIdx))).1

/-- A feed heats and goes its way. -/
theorem runScript_feed_machine (p : ExtruderPanel) {sign : List Char} {v : ℚ}
    (hsign : FeedSign sign v) (m : Machine) :
    m.runScript accepts (p.feed sign) =
      let way := Machine.moved m.position 'E'
        (m.position 'E' + m.extrudeFactor * (v * lengths p.lengthIdx))
      { m with modes := { m.modes with absoluteExtrude := false }
               target := temperatures p.tempIdx
               position := if accepts m.position way then way else m.position } := by
  have hheatCmd : command (['M', '1', '0', '9'] ++ ' ' :: 'S' :: p.temp) = ['M', '1', '0', '9'] :=
    command_append_space (by decide) _
  have hS : paramText 'S' (['M', '1', '0', '9'] ++ ' ' :: 'S' :: p.temp) = some p.temp := by
    have hwords : fields ' ' (['M', '1', '0', '9'] ++ ' ' :: 'S' :: p.temp) =
        [['M', '1', '0', '9'], 'S' :: p.temp] := by
      rw [fields_append_cons (by decide), fields_of_not_mem
        (by simp [ExtruderPanel.temp, space_not_mem_toDigits]) (List.cons_ne_nil _ _)]
    rw [paramText_words 'S' hwords]
    rfl
  have hheat : m.execLine accepts (['M', '1', '0', '9'] ++ ' ' :: 'S' :: p.temp) =
      some { m with target := temperatures p.tempIdx } := by
    rw [Machine.execLine_heat hheatCmd, Machine.heat, hS]
    dsimp only
    rw [number_temp]
    rfl
  have hmode : ({ m with target := temperatures p.tempIdx } : Machine).execLine accepts
      ['M', '8', '3'] = some { m with target := temperatures p.tempIdx
                                      modes := { m.modes with absoluteExtrude := false } } :=
    Machine.execLine_mode (show command ['M', '8', '3'] = ['M', '8', '3'] by decide) (by decide)
  have hgoal := Machine.goal_feed (m := { m with
      target := temperatures p.tempIdx, modes := { m.modes with absoluteExtrude := false } })
    rfl (paramText_feed (p := p) hsign) (number_feed hsign)
  rw [Machine.runScript, fields_feed hsign, Machine.runLines_cons_some hheat,
    Machine.runLines_cons_some hmode, Machine.runLines_singleton,
    Machine.execLine_move (Or.inr (command_append_space (by decide) _)), Machine.move, hgoal,
    Option.bind_some]
  dsimp only
  split_ifs <;> rfl

theorem toolhead_step (s : Printer) (a : Act) :
    (s.step accepts a).toolhead = s.toolhead.step accepts a := by
  have hshift (t : Toolhead) (letter : Char) (way : ℚ) :
      t.shift accepts letter way = { t with
        position := if accepts t.position (Machine.moved t.position letter (t.position letter + way))
          then Machine.moved t.position letter (t.position letter + way) else t.position } := by
    unfold Toolhead.shift
    dsimp only
    split_ifs <;> rfl
  cases a with
  | other modes base extrudeFactor target => rfl
  | tap t =>
    cases t with
    | jog axis up =>
      have hscript : s.machine.runScript accepts _ = _ :=
        runScript_jog_machine s.homing axis up s.machine
      rw [Toolhead.step, hshift]
      change Printer.toolhead { s with machine := s.machine.runScript accepts _ } = _
      rw [hscript]
      rfl
    | extrude =>
      have hscript : s.machine.runScript accepts _ = _ :=
        runScript_feed_machine s.extruder .extrude s.machine
      rw [Toolhead.step, Toolhead.feed, hshift]
      change Printer.toolhead { s with machine := s.machine.runScript accepts _ } = _
      rw [hscript]
      rfl
    | retract =>
      have hscript : s.machine.runScript accepts _ = _ :=
        runScript_feed_machine s.extruder .retract s.machine
      rw [Toolhead.step, Toolhead.feed, hshift]
      change Printer.toolhead { s with machine := s.machine.runScript accepts _ } = _
      rw [hscript]
      rfl
    | _ => rfl

variable (accepts)

end Scripts

/-- The way along an axis of space that an act asks for, with what is selected. -/
def Act.way (p : HomingPanel) (letter : Char) : Act → ℚ
  | .tap (.jog axis up) => if axis.letter = letter then signed up (distanceMm p.distanceIdx) else 0
  | _ => 0

def Act.select (p : HomingPanel) : Act → HomingPanel
  | .tap (.distance idx) => { p with distanceIdx := idx }
  | _ => p

/-- The ways of a run, each with the distance selected at that time. -/
def travel (letter : Char) : HomingPanel → List Act → ℚ
  | _, [] => 0
  | p, a :: as => a.way p letter + travel letter (a.select p) as

end PowerScreen.Moves
