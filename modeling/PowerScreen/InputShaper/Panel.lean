import PowerScreen.Library.FixedPoint
import PowerScreen.Library.Json

/-! # The input shaper panel

Each axis has a card with a switch, a spinner, the result of the last calibration as a table
or a graph, and the shaper and its frequency in tenths of a hertz, which the user may change
before they are saved.
-/
namespace PowerScreen.InputShaper
open Library Library.Binary64 Library.FixedPoint

def shapers : List (List Char) :=
  ["zv".toList, "mzv".toList, "ei".toList, "2hump_ei".toList, "3hump_ei".toList]

def findShaperIndex (shaper : List Char) : ℕ := shapers.idxOf shaper

inductive Axis where
  | x
  | y
deriving DecidableEq

namespace Axis

def name : Axis → List Char
  | .x => ['x']
  | .y => ['y']

def upper : Axis → List Char
  | .x => ['X']
  | .y => ['Y']

/-- `X_DATA` and `Y_DATA` -/
def data (a : Axis) : List Char :=
  "/tmp/resonances_".toList ++ a.name ++ '_' :: a.name ++ ".csv".toList

/-- `X_PNG` and `Y_PNG` -/
def png (a : Axis) : List Char := "resonances_".toList ++ a.name ++ ".png".toList

def test (a : Axis) : List Char :=
  "TEST_RESONANCES AXIS=".toList ++ a.upper ++ " NAME=".toList ++ a.name ++ "\nM400".toList

/-- The axis a file has the data of. -/
def ofData (fn : List Char) : Option Axis :=
  if fn = data .x then some .x else if fn = data .y then some .y else none

theorem data_ne : data .x ≠ data .y := by decide

theorem ofData_data (a : Axis) : ofData a.data = some a := by cases a <;> decide

theorem ofData_eq_some {fn : List Char} {a : Axis} (h : ofData fn = some a) : fn = a.data := by
  unfold ofData at h
  split_ifs at h with hx hy
  · cases h
    exact hx
  · cases h
    exact hy

end Axis

/-- The widgets of an axis. -/
structure Card where
  checked : Bool := true
  slider : ℕ := 0
  value : List Char := "0 Hz".toList
  shaper : ℕ := 0
  output : List Char := []
  graph : Option (List Char) := none
  graphHidden : Bool := true
  spinnerHidden : Bool := true
  fullsized : Bool := false
deriving DecidableEq

namespace Card

/-- `lv_slider_set_value` in a range up to 1400: the double is cut to a whole number. -/
def slide (c : Card) (v : ℚ) : Card := { c with slider := min ⌊v⌋₊ 1400 }

/-- `lv_dropdown_set_selected`: an index past the options is the last one. -/
def select (c : Card) (i : ℕ) : Card := { c with shaper := min i (shapers.length - 1) }

/-- `lv_dropdown_get_selected_str` into ten bytes. -/
def selectedStr (c : Card) : List Char := (shapers.getD c.shaper []).take 9

/-- The position of the slider in hertz. -/
def hz (c : Card) : ℚ := roundDouble (c.slider / 10)

end Card

/-- `" NAME={}"` in the format of a command. -/
def param (name : String) (value : List Char) : List Char := ' ' :: (name.toList ++ '=' :: value)

structure Panel where
  card : Axis → Card := fun _ => {}
  /-- The switch for the graphs. -/
  graphs : Bool := false

namespace Panel

def setCard (p : Panel) (a : Axis) (c : Card) : Panel :=
  { p with card := Function.update p.card a c }

@[simp] theorem card_setCard (p : Panel) (a : Axis) (c : Card) : (p.setCard a c).card a = c :=
  Function.update_self ..

theorem card_setCard_of_ne (p : Panel) {a b : Axis} (h : b ≠ a) (c : Card) :
    (p.setCard a c).card b = p.card b := Function.update_of_ne h ..

@[simp] theorem graphs_setCard (p : Panel) (a : Axis) (c : Card) :
    (p.setCard a c).graphs = p.graphs := rfl

/-- The axes whose switches are on. -/
def requested (p : Panel) : List Axis := [Axis.x, .y].filter fun a => (p.card a).checked

/-- `handle_callback`, the Calibrate button -/
def calibrate (p : Panel) (homed : Bool) : Panel × List (List Char) :=
  ({ p with card := fun a => if (p.card a).checked then
      { p.card a with graph := none, output := [], graphHidden := true, spinnerHidden := false }
      else p.card a },
    (if p.requested ≠ [] ∧ homed = false then ["G28".toList] else []) ++ p.requested.map Axis.test)

/-- `handle_callback`, the Save button -/
def save (p : Panel) : List Char :=
  "PS_SAVE_INPUT_SHAPER".toList ++ (param "SHAPER_FREQ_X" (writeShortest (p.card .x).hz) ++
    (param "SHAPER_TYPE_X" (p.card .x).selectedStr ++
    (param "SHAPER_FREQ_Y" (writeShortest (p.card .y).hz) ++
    (param "SHAPER_TYPE_Y" (p.card .y).selectedStr ++ '\n' :: "SAVE_CONFIG".toList))))

/-- `handle_update_slider` -/
def handleUpdateSlider (p : Panel) (a : Axis) (v : ℕ) : Panel :=
  let c := (p.card a).slide v
  p.setCard a { c with value := writeShortest c.hz ++ " hz".toList }

/-- `toggle_graph` -/
def toggleGraph (p : Panel) (a : Axis) : Panel :=
  p.setCard a { p.card a with fullsized := !(p.card a).fullsized }

end Panel

/-- `std::stod` of a plain decimal fraction. -/
def stod (t : List Char) : Option ℚ := (readFraction t).map fun r => roundDouble r.1

/-- A stored frequency. -/
def Card.showFreq (c : Card) : Json → Option Card
  | .null => some c
  | v => do
    let hz ← stod (← v.str?).toList
    some { c.slide (roundDouble (hz * 10)) with value := writeShortest hz ++ " Hz".toList }

/-- A stored shaper type. -/
def Card.showType (c : Card) : Json → Option Card
  | .null => some c
  | v => do some (c.select (findShaperIndex (← v.str?).toList))

/-- What `foreground` takes from the stored configuration for one axis. -/
def Card.foreground (c : Card) (inputshaper : Json) (a : Axis) : Option Card :=
  (c.showFreq (inputshaper.get (String.ofList ("shaper_freq_".toList ++ a.name)))).bind fun c =>
    c.showType (inputshaper.get (String.ofList ("shaper_type_".toList ++ a.name)))

/-- `foreground`, for `/printer_state/configfile/config/input_shaper` -/
def Panel.foreground (p : Panel) (inputshaper : Json) : Option Panel :=
  if inputshaper = .null then some p
  else ((p.card .x).foreground inputshaper .x).bind fun cx =>
    ((p.card .y).foreground inputshaper .y).map fun cy => (p.setCard .x cx).setCard .y cy

/-- `fmt::format("{:<8}", s)` -/
def padded (n : ℕ) (s : List Char) : List Char := s ++ List.replicate (n - s.length) ' '

def field (el : Json) (k : String) : Option ℚ := (el.get k).num?.map Num.toRat

/-- A line of the table of results. -/
def row (key : String) (el : Json) : Option (List Char) := do
  let freq ← field el "freq"
  let vib ← field el "vib"
  let smooth ← field el "smooth"
  let accel ← field el "max_acel"
  some (padded 8 key.toList ++ '\t' :: writeFixed 1 freq ++ '\t' :: writeFixed 1 vib ++
    "%\t".toList ++ writeFixed 3 smooth ++ '\t' :: writeShortest accel)

def header : List Char := " Shaper \t Hz \tVibr \t Smt \tMaxAcl".toList

/-- The shaper that the script prefers, and the line that names it. -/
def showBest (shapersResp : Json) (c : Card) : Json → Option (List (List Char) × Card)
  | .null => some ([], c)
  | best => do
    let bsName ← best.str?
    let f ← field (shapersResp.get bsName) "freq"
    some (["Best shaper is ".toList ++ bsName.toList ++ " @ ".toList ++ writeFixed 2 f ++
        " Hz\n".toList],
      { (c.select (findShaperIndex bsName.toList)).slide (roundDouble (f * 10)) with
        value := writeFixed 1 f ++ " Hz".toList })

/-- `set_shaper_detail`; without a label there is no table. -/
def setShaperDetail (res : Json) (label : Bool) (c : Card) : Option Card :=
  match res.get "shapers" with
  | .null => some c
  | shapersResp => (showBest shapersResp c (res.get "best")).bind fun r =>
    if label then (shapersResp.members.mapM fun el => row el.1 el.2).map fun rows =>
      { r.2 with output := ['\n'].intercalate (r.1 ++ header :: rows) }
    else some r.2

/-- Where the panel finds the files of the printer. -/
structure Paths where
  /-- `get_root_path("config")`, empty where no root is known. -/
  configRoot : List Char
  /-- `is_running_local` -/
  runningLocal : Bool
  thumbnails : List Char
  /-- The size of an overlay. -/
  width : ℕ
  height : ℕ

namespace Paths

/-- Where the script writes the graph. -/
def png (e : Paths) (a : Axis) : List Char :=
  (if e.configRoot.length > 0 then e.configRoot else "/tmp".toList) ++ '/' :: a.png

/-- The image that is shown, downloaded from another host first. -/
def source (e : Paths) (a : Axis) : List Char :=
  "A:".toList ++ if e.runningLocal then e.png a else e.thumbnails ++ '/' :: a.png

/-- The parameters of the script. -/
def arg (e : Paths) (graphs : Bool) (a : Axis) : List Char :=
  if graphs then a.data ++ " -o ".toList ++ e.png a ++
    " -w ".toList ++ writeShortest (roundDouble (e.width / 100)) ++
    " -l ".toList ++ writeShortest (roundDouble (e.height / 100))
  else a.data

end Paths

/-- A character in a debug format. -/
def escaped (c : Char) : List Char :=
  if c = '"' ∨ c = '\\' then ['\\', c]
  else if c = '\n' then ['\\', 'n']
  else if c = '\r' then ['\\', 'r']
  else if c = '\t' then ['\\', 't']
  else [c]

/-- `{:?}` of a text of printable characters and line breaks. -/
def debugQuoted (t : List Char) : List Char := '"' :: (t.flatMap escaped ++ ['"'])

def runScript (e : Paths) (graphs : Bool) (a : Axis) : List Char :=
  "RUN_SHELL_COMMAND CMD=ps_input_shaper PARAMS=".toList ++ debugQuoted (e.arg graphs a)

/-- What Klipper says once the data of an axis is there. -/
def dataWritten (a : Axis) : List Char :=
  "// Resonances data written to ".toList ++ a.data ++ " file".toList

/-- A response of Klipper: an object behind the comment sign whose text starts with the member
`shapers`, or any other text. -/
inductive Response where
  | shapers (res : Json)
  | text (t : List Char)

/-- The card that a result for its axis leaves, before the spinner is hidden. -/
def Panel.showResult (p : Panel) (e : Paths) (res : Json) (a : Axis) : Option Card :=
  if p.graphs = true ∧ res.get "png" ≠ .null then
    setShaperDetail res false
      { p.card a with output := [], graph := some (e.source a), graphHidden := false }
  else setShaperDetail res true (p.card a)

/-- `handle_macro_response`, a result of the script -/
def Panel.receiveResult (p : Panel) (e : Paths) (res : Json) : Option Panel :=
  match res.get "logfile" with
  | .null => some p
  | axisLog => axisLog.str?.bind fun fn =>
    match Axis.ofData fn.toList with
    | none => some p
    | some a => (p.showResult e res a).map fun c => p.setCard a { c with spinnerHidden := true }

/-- `handle_macro_response`, other lines -/
def Panel.receiveText (p : Panel) (e : Paths) (t : List Char) : List (List Char) :=
  if t = dataWritten .y then [runScript e p.graphs .y]
  else if t = dataWritten .x then [runScript e p.graphs .x]
  else []

def Panel.handleMacroResponse (p : Panel) (e : Paths) : Response → Option (Panel × List (List Char))
  | .shapers res => (p.receiveResult e res).map (·, [])
  | .text t => some (p, p.receiveText e t)

/-- What a user does, and what Klipper answers. -/
inductive Event where
  | opened (inputshaper : Json)
  | switched (a : Axis)
  | graphsSwitched
  | slid (a : Axis) (v : ℕ)
  | chosen (a : Axis) (i : ℕ)
  | clicked (a : Axis)
  | calibrated (homed : Bool)
  | responded (e : Paths) (r : Response)

namespace Panel

/-- `none` is an exception that no handler catches. -/
def step (p : Panel) : Event → Option Panel
  | .opened inputshaper => p.foreground inputshaper
  | .switched a => some (p.setCard a { p.card a with checked := !(p.card a).checked })
  | .graphsSwitched => some { p with graphs := !p.graphs }
  | .slid a v => some (p.handleUpdateSlider a v)
  | .chosen a i => some (p.setCard a ((p.card a).select i))
  | .clicked a => some (p.toggleGraph a)
  | .calibrated homed => some (p.calibrate homed).1
  | .responded e r => (p.handleMacroResponse e r).map Prod.fst

def run (p : Panel) (es : List Event) : Option Panel := es.foldlM step p

end Panel

/-- The slider and the selection are in their ranges. -/
structure Card.InRange (c : Card) : Prop where
  slider : c.slider ≤ 1400
  shaper : c.shaper < shapers.length

theorem Card.inRange_default : ({} : Card).InRange := ⟨by decide, by decide⟩

namespace Card.InRange

variable {c : Card}

theorem slide (h : c.InRange) (v : ℚ) : (c.slide v).InRange := ⟨min_le_right _ _, h.shaper⟩

theorem select (h : c.InRange) (i : ℕ) : (c.select i).InRange :=
  ⟨h.slider, (min_le_right _ _).trans_lt (by decide)⟩

theorem foreground (h : c.InRange) {inputshaper : Json} {a : Axis} {c' : Card}
    (hc : c.foreground inputshaper a = some c') : c'.InRange := by
  obtain ⟨c₁, hfreq, htype⟩ := Option.bind_eq_some_iff.mp hc
  have h₁ : c₁.InRange := by
    unfold Card.showFreq at hfreq
    split at hfreq
    · cases hfreq
      exact h
    · obtain ⟨t, -, hfreq⟩ := Option.bind_eq_some_iff.mp hfreq
      obtain ⟨hz, -, hfreq⟩ := Option.bind_eq_some_iff.mp hfreq
      cases hfreq
      exact ⟨(h.slide _).slider, h.shaper⟩
  unfold Card.showType at htype
  split at htype
  · cases htype
    exact h₁
  · obtain ⟨t, -, htype⟩ := Option.bind_eq_some_iff.mp htype
    cases htype
    exact h₁.select _

theorem showBest (h : c.InRange) {shapersResp best : Json} {r : List (List Char) × Card}
    (hr : showBest shapersResp c best = some r) : r.2.InRange := by
  unfold InputShaper.showBest at hr
  split at hr
  · cases hr
    exact h
  · obtain ⟨bsName, -, hr⟩ := Option.bind_eq_some_iff.mp hr
    obtain ⟨f, -, hr⟩ := Option.bind_eq_some_iff.mp hr
    cases hr
    have hselect := h.select (findShaperIndex bsName.toList)
    exact ⟨(hselect.slide (roundDouble (f * 10))).slider, hselect.shaper⟩

theorem setShaperDetail (h : c.InRange) {res : Json} {label : Bool} {c' : Card}
    (hc : setShaperDetail res label c = some c') : c'.InRange := by
  unfold InputShaper.setShaperDetail at hc
  split at hc
  · cases hc
    exact h
  · obtain ⟨r, hr, hc⟩ := Option.bind_eq_some_iff.mp hc
    have h₁ := h.showBest hr
    split_ifs at hc
    · obtain ⟨rows, -, rfl⟩ := Option.map_eq_some_iff.mp hc
      exact ⟨h₁.slider, h₁.shaper⟩
    · cases hc
      exact h₁

theorem showResult {p : Panel} {a : Axis} (h : (p.card a).InRange) {e : Paths} {res : Json}
    {c' : Card} (hc : p.showResult e res a = some c') : c'.InRange := by
  unfold Panel.showResult at hc
  split_ifs at hc
  · exact setShaperDetail (c := { p.card a with
      output := [], graph := some (e.source a), graphHidden := false }) ⟨h.slider, h.shaper⟩ hc
  · exact h.setShaperDetail hc

end Card.InRange

def Panel.InRange (p : Panel) : Prop := ∀ a, (p.card a).InRange

namespace Panel

variable {p p' : Panel}

theorem InRange.setCard (h : p.InRange) (a : Axis) {c : Card} (hc : c.InRange) :
    (p.setCard a c).InRange := by
  intro b
  by_cases hb : b = a
  · subst hb
    rwa [card_setCard]
  · rw [card_setCard_of_ne _ hb]
    exact h b

/-- A result is for the axis of its file, and leaves the other axis as it is. -/
theorem receiveResult_cases {e : Paths} {res : Json} (h : p.receiveResult e res = some p') :
    p' = p ∨ ∃ a c, res.get "logfile" = .str (String.ofList a.data) ∧
      p.showResult e res a = some c ∧ p' = p.setCard a { c with spinnerHidden := true } := by
  unfold receiveResult at h
  split at h
  · cases h
    exact Or.inl rfl
  · obtain ⟨fn, hfn, h⟩ := Option.bind_eq_some_iff.mp h
    split at h
    · cases h
      exact Or.inl rfl
    · rename_i a ha
      obtain ⟨c, hc, rfl⟩ := Option.map_eq_some_iff.mp h
      refine Or.inr ⟨a, c, ?_, hc, rfl⟩
      rw [← Axis.ofData_eq_some ha, String.ofList_toList]
      cases hj : res.get "logfile" with
      | str s =>
        rw [hj] at hfn
        exact congrArg Json.str (Option.some.inj hfn)
      | _ => rw [hj] at hfn; cases hfn

theorem InRange.step (h : p.InRange) {e : Event} (hp : p.step e = some p') : p'.InRange := by
  cases e with
  | opened inputshaper =>
    simp only [Panel.step, foreground] at hp
    split_ifs at hp with hnull
    · cases hp
      exact h
    · obtain ⟨cx, hx, hp⟩ := Option.bind_eq_some_iff.mp hp
      obtain ⟨cy, hy, rfl⟩ := Option.map_eq_some_iff.mp hp
      exact (h.setCard .x ((h .x).foreground hx)).setCard .y ((h .y).foreground hy)
  | switched a =>
    cases hp
    exact h.setCard a ⟨(h a).slider, (h a).shaper⟩
  | graphsSwitched =>
    cases hp
    exact h
  | slid a v =>
    cases hp
    exact h.setCard a ⟨((h a).slide v).slider, (h a).shaper⟩
  | chosen a i =>
    cases hp
    exact h.setCard a ((h a).select i)
  | clicked a =>
    cases hp
    exact h.setCard a ⟨(h a).slider, (h a).shaper⟩
  | calibrated homed =>
    cases hp
    intro a
    simp only [calibrate]
    split_ifs
    · exact ⟨(h a).slider, (h a).shaper⟩
    · exact h a
  | responded e r =>
    cases r with
    | text t =>
      cases hp
      exact h
    | shapers res =>
      have hres : p.receiveResult e res = some p' := by
        simpa [Panel.step, handleMacroResponse] using hp
      rcases receiveResult_cases hres with rfl | ⟨a, c, -, hc, rfl⟩
      · exact h
      · have hcard := (h a).showResult hc
        exact h.setCard a ⟨hcard.slider, hcard.shaper⟩

theorem inRange_of_run {es : List Event} (h : run {} es = some p) : p.InRange := by
  have hkeep : ∀ (es : List Event) (q : Panel), q.InRange → run q es = some p → p.InRange := by
    intro es
    induction es with
    | nil =>
      intro q hq hrun
      cases hrun
      exact hq
    | cons e es ih =>
      intro q hq hrun
      obtain ⟨q', hq', hrun⟩ := Option.bind_eq_some_iff.mp hrun
      exact ih q' (hq.step hq') hrun
  exact hkeep es {} (fun _ => Card.inRange_default) h

end Panel

end PowerScreen.InputShaper
