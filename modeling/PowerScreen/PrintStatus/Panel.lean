import PowerScreen.State.PrintState

/-! # The print status panel and what it keeps of a file

A new name in `print_stats` resets the panel and asks for the metadata of the file.
The reply sets the estimated time, the file and the material, as far as it has them;
the time left and the layers are shown from these and from the reports.
-/
namespace PowerScreen.PrintStatus
open Library Library.Run

/-- Conversions of the machine: seconds through a single-precision number, a whole
number, and the layer of a height, `ceil((z - first) / height + 1)`. -/
structure Arith where
  seconds : Library.Num → UInt32
  int : Library.Num → ℤ
  layerAt : Library.Num → Library.Num → Library.Num → ℤ

variable (A : Arith)

/-- A conversion to `float` or `int` takes truth values too, one to `double` does not. -/
def arith? : Json → Option Library.Num
  | .num n => some n
  | .bool b => some (.int b.toNat)
  | _ => none

/-- What the label shows, `none` for the three dots: the difference is taken modulo
`2 ^ 32` and shown when it is not negative as a signed number. -/
def timeLeft (estimate passed : UInt32) : Option UInt32 :=
  if estimate - passed < 0x80000000 then some (estimate - passed) else none

/-- A whole number under a key; a value that is neither object nor null is an exception. -/
def intAt (j : Json) (key : String) : Option (Option ℤ) := do
  Json.optional (fun v => (arith? v).map A.int) (← Json.getAt [key] j)

/-- The layers of the file by its metadata. -/
def fileLayers (file : Json) : Option ℤ := do
  match ← intAt A file "layer_count" with
  | some count => return count
  | none =>
    let first ← Json.getAt ["first_layer_height"] file
    let height ← Json.getAt ["layer_height"] file
    let object ← Json.getAt ["object_height"] file
    if first = .null ∨ height = .null ∨ object = .null then return 0
    return max (A.layerAt (← object.num?) (← first.num?) (← height.num?)) 0

def maxLayer (info file : Json) : Option ℤ := do
  match ← intAt A info "total_layer" with
  | some total => return total
  | none => fileLayers A file

/-- The layer of the nozzle's height by the metadata of the file. -/
def fileLayer (s : State) (file : Json) (total : ℤ) : Option ℤ := do
  if file = .null then return 0
  let passed ← Json.optional (fun v => (arith? v).map A.int) (s.field "print_stats" "print_duration")
  let zpos ← Json.getAt ["2"] (s.field "gcode_move" "gcode_position")
  let first ← Json.getAt ["first_layer_height"] file
  let height ← Json.getAt ["layer_height"] file
  if passed.getD 0 ≤ 0 ∨ zpos = .null ∨ first = .null ∨ height = .null then return 0
  let layer := A.layerAt (← zpos.num?) (← first.num?) (← height.num?)
  return if total < layer then total else max layer 0

def currentLayer (s : State) (info file : Json) (total : ℤ) : Option ℤ := do
  match ← intAt A info "current_layer" with
  | some current => return current
  | none => fileLayer A s file total

/-- The two numbers of the layer labels. -/
def layers (s : State) (info file : Json) : Option (ℤ × ℤ) := do
  let total ← maxLayer A info file
  let current ← currentLayer A s info file total
  return (current, total)

structure Panel where
  state : State
  estimatedTime : UInt32 := 0
  currentFile : Json := .null
  material : String := ""
  timeLeft : Option UInt32 := none
  layers : ℤ × ℤ := (0, 0)
  /-- The files metadata was asked for, one request each. -/
  sent : List String := []
  /-- The requests without a reply, by their number. -/
  waiting : List ℕ := []

namespace Panel

/-- The file stays cached. -/
def reset (p : Panel) : Panel :=
  { p with estimatedTime := 0, material := "", timeLeft := none }

/-- The stored name of the file, when it is a text that is not empty. -/
def fileName (p : Panel) : Option (Option String) :=
  (Json.optional Json.str? (p.state.field "print_stats" "filename")).map (·.filter (· ≠ ""))

def populate (p : Panel) : Option Panel := do
  let p := match ← p.fileName with
    | some name => { p with sent := p.sent ++ [name], waiting := p.waiting ++ [p.sent.length] }
    | none => p
  let shown ← PrintStatus.layers A p.state (p.state.field "print_stats" "info") p.currentFile
  return { p with layers := shown }

def init (p : Panel) : Option Panel := p.reset.populate A

def updateTimeProgress (p : Panel) (passed : UInt32) : Panel :=
  { p with timeLeft := PrintStatus.timeLeft p.estimatedTime passed }

def showPassed (p : Panel) (passed : Option UInt32) : Panel := passed.elim p p.updateTimeProgress

end Panel

def secondsOf (j : Json) : Option (Option UInt32) :=
  Json.optional (fun v => (arith? v).map A.seconds) j

/-- What is taken over from a reply. A reply without a result reads as one with
an empty result. -/
structure Metadata where
  estimate : Option UInt32
  file : Json
  material : Option String
deriving DecidableEq

/-- The unchecked accesses create the entries they miss, the file is read after the
first of them. -/
def readMetadata (j : Json) : Option Metadata := do
  let estimate ← secondsOf A (← Json.getAt ["result", "estimated_time"] j)
  let j ← Json.modifyAt (fun v => v) ["result", "estimated_time"] j
  let file ← Json.getAt ["result"] j
  let material ← Json.getAt ["result", "filament_type"] j
  return ⟨estimate, file, material.str?⟩

namespace Panel

/-- The time left is shown anew when the reply has an estimate. -/
def takeEstimate (p : Panel) : Option UInt32 → Option Panel
  | none => some p
  | some estimate => (secondsOf A (p.state.field "print_stats" "print_duration")).map
      ({ p with estimatedTime := estimate } : Panel).showPassed

/-- The name of the file the reply is about is not looked at. -/
def handleMetadata (p : Panel) (j : Json) : Option Panel := do
  let m ← readMetadata A j
  let p ← p.takeEstimate A m.estimate
  return { p with currentFile := m.file, material := m.material.getD p.material }

/-- A new name resets the panel before the rest of the notification is shown. -/
def renamed (p : Panel) (name : Json) : Option Panel :=
  if name = .null then some p else p.init A

def consume (p : Panel) (st : Status) (t : ℚ) : Option Panel := do
  let s := (p.state.receive (.update st t)).getD p.state
  let p ← ({ p with state := s } : Panel).renamed A
    ((st.field? "print_stats" "filename").getD .null)
  let passed ← secondsOf A ((st.field? "print_stats" "print_duration").getD .null)
  let shown ← PrintStatus.layers A s ((st.field? "print_stats" "info").getD .null) p.currentFile
  return { p.showPassed passed with layers := shown }

/-- A connection ends in the complete state, from which the panel starts again. -/
def report (p : Panel) : Report → Option Panel
  | .subscribed st id t =>
    ({ p with state := (p.state.receive (.subscribed st id t)).getD p.state } : Panel).init A
  | .update st t => p.consume A st t

end Panel

/-- The report carries a name for the file, or is the first of a connection. -/
def renames : Report → Bool
  | .subscribed .. => true
  | .update st _ => (st.field? "print_stats" "filename").getD .null ≠ .null

/-- The layer information a report is shown with. -/
def infoOf (s : State) : Report → Json
  | .subscribed .. => s.field "print_stats" "info"
  | .update st _ => (st.field? "print_stats" "info").getD .null

def passedOf : Report → Option UInt32
  | .subscribed .. => none
  | .update st _ => (secondsOf A ((st.field? "print_stats" "print_duration").getD .null)).join

def received (s : State) (r : Report) : State := (s.receive r).getD s

theorem populate_spec {p p' : Panel} (h : p.populate A = some p') :
    p'.state = p.state ∧ p'.currentFile = p.currentFile ∧ p'.estimatedTime = p.estimatedTime ∧
      p'.material = p.material ∧ p'.timeLeft = p.timeLeft ∧
      layers A p.state (p.state.field "print_stats" "info") p.currentFile = some p'.layers := by
  obtain ⟨name, hn, h⟩ := Option.bind_eq_some_iff.mp h
  cases name with
  | none =>
    obtain ⟨l, hl, h⟩ := Option.bind_eq_some_iff.mp h
    cases h
    exact ⟨rfl, rfl, rfl, rfl, rfl, hl⟩
  | some name =>
    obtain ⟨l, hl, h⟩ := Option.bind_eq_some_iff.mp h
    cases h
    exact ⟨rfl, rfl, rfl, rfl, rfl, hl⟩

/-- What a report does to the panel. -/
theorem report_spec {p p' : Panel} {r : Report} (h : p.report A r = some p') :
    p'.state = received p.state r ∧ p'.currentFile = p.currentFile ∧
      p'.estimatedTime = (if renames r then 0 else p.estimatedTime) ∧
      p'.material = (if renames r then "" else p.material) ∧
      p'.timeLeft = (passedOf A r).elim (if renames r then none else p.timeLeft)
        (timeLeft p'.estimatedTime) ∧
      layers A p'.state (infoOf p'.state r) p'.currentFile = some p'.layers := by
  cases r with
  | subscribed st id t =>
    obtain ⟨hs, hf, he, hm, ht, hl⟩ := populate_spec A h
    rw [hs, hf, he, hm, ht]
    exact ⟨rfl, rfl, rfl, rfl, rfl, hl⟩
  | update st t =>
    obtain ⟨q, hq, h⟩ := Option.bind_eq_some_iff.mp h
    obtain ⟨passed, hp, h⟩ := Option.bind_eq_some_iff.mp h
    obtain ⟨l, hl, h⟩ := Option.bind_eq_some_iff.mp h
    cases h
    have hpassed : passedOf A (.update st t) = passed := by rw [passedOf, hp, Option.join_some]
    rw [Panel.renamed] at hq
    by_cases hname : (st.field? "print_stats" "filename").getD .null = .null
    · rw [if_pos hname] at hq
      cases hq
      have hr : renames (.update st t) = false := by simp [renames, hname]
      rw [hr, hpassed]
      cases passed <;> exact ⟨rfl, rfl, rfl, rfl, rfl, hl⟩
    · rw [if_neg hname] at hq
      have hr : renames (.update st t) = true := by simp [renames, hname]
      obtain ⟨hs, hf, he, hm, ht, -⟩ := populate_spec A hq
      have hshown : layers A q.state ((st.field? "print_stats" "info").getD .null)
          q.currentFile = some l := by
        rw [hs]
        exact hl
      rw [hr, hpassed]
      cases passed with
      | none => exact ⟨hs, hf, he, hm, ht, hshown⟩
      | some seconds => exact ⟨hs, hf, he, hm, rfl, hshown⟩

/-- What the estimate of a reply does to the panel. -/
theorem takeEstimate_spec {p q : Panel} {estimate : Option UInt32}
    (h : p.takeEstimate A estimate = some q) :
    q.estimatedTime = estimate.getD p.estimatedTime ∧ q.material = p.material ∧
      q.layers = p.layers ∧ (q.timeLeft = p.timeLeft ↔ ∀ e ∈ estimate, ∀ passed,
        secondsOf A (p.state.field "print_stats" "print_duration") = some (some passed) →
          timeLeft e passed = p.timeLeft) := by
  cases estimate with
  | none =>
    cases h
    exact ⟨rfl, rfl, rfl, by simp⟩
  | some e =>
    obtain ⟨passed, hp, rfl⟩ := Option.map_eq_some_iff.mp h
    cases passed with
    | none => exact ⟨rfl, rfl, rfl, by simp [Panel.showPassed, hp]⟩
    | some s =>
      exact ⟨rfl, rfl, rfl, by simp [Panel.showPassed, Panel.updateTimeProgress, hp]⟩

end PowerScreen.PrintStatus
