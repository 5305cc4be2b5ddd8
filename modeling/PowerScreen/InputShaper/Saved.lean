import PowerScreen.InputShaper.Panel
import PowerScreen.Library.Assoc
import PowerScreen.Library.Gcode
import PowerScreen.Macros.Item

/-! # Saving the input shaper

The panel sends its two frequencies and shapers in a command of a module of its own, which
notes them for the configuration file; a second command writes the file and restarts Klipper,
and what the file says then is what the panel is opened with.
-/
namespace PowerScreen.InputShaper
open Library Library.Binary64 Library.FixedPoint Macros

/-- `CalibrateShaperConfig` -/
structure CalibrateShaperConfig where
  shaperFreqX : ℚ := 0
  shaperTypeX : List Char := "mzv".toList
  shaperFreqY : ℚ := 0
  shaperTypeY : List Char := "mzv".toList

/-- The section `input_shaper` of the configuration as it was last loaded, and what is noted
for the file since. -/
structure Klipper where
  shaperConfig : CalibrateShaperConfig := {}
  config : List (String × Json) := []
  pending : List (String × Json) := []

/-- `gcmd.get` -/
def getParam (params : List (List Char × List Char)) (name : String) (default : List Char) :
    List Char := (params.lookup name.toList).getD default

/-- `gcmd.get_float` with a minimum of zero, which no plain decimal fraction is below. -/
def getFloat (params : List (List Char × List Char)) (name : String) (default : ℚ) : Option ℚ :=
  match params.lookup name.toList with
  | none => some default
  | some t => (readFraction t).bind fun r => if r.2 = [] then some (roundDouble r.1) else none

namespace Klipper

/-- `configfile.set('input_shaper', …)` -/
def set (k : Klipper) (option : String) (value : List Char) : Klipper :=
  { k with pending := k.pending ++ [(option, .str (String.ofList value))] }

/-- `cmd_save_input_shaper` -/
def cmdSaveInputShaper (k : Klipper) (params : List (List Char × List Char)) : Option Klipper := do
  let shaperFreqX ← getFloat params "SHAPER_FREQ_X" k.shaperConfig.shaperFreqX
  let shaperTypeX := getParam params "SHAPER_TYPE_X" k.shaperConfig.shaperTypeX
  let shaperFreqY ← getFloat params "SHAPER_FREQ_Y" k.shaperConfig.shaperFreqY
  let shaperTypeY := getParam params "SHAPER_TYPE_Y" k.shaperConfig.shaperTypeY
  let k := { k with shaperConfig := ⟨shaperFreqX, shaperTypeX, shaperFreqY, shaperTypeY⟩ }
  some ((((k.set "shaper_type_x" shaperTypeX).set "shaper_freq_x" (writeFixed 1 shaperFreqX)).set
    "shaper_type_y" shaperTypeY).set "shaper_freq_y" (writeFixed 1 shaperFreqY))

/-- `SAVE_CONFIG`: the module starts anew from a section without options. -/
def saveConfig (k : Klipper) : Klipper :=
  { shaperConfig := {}, config := Assoc.insertAll k.pending k.config, pending := [] }

def runLine (k : Klipper) (line : List Char) : Option Klipper :=
  let cmd := Gcode.command line
  if cmd = "PS_SAVE_INPUT_SHAPER".toList then
    (klipperParams (line.drop cmd.length)).bind k.cmdSaveInputShaper
  else if cmd = "SAVE_CONFIG".toList then some k.saveConfig
  else some k

/-- A script is given up at the first command that fails. -/
def runScript (k : Klipper) (script : List Char) : Option Klipper :=
  (fields '\n' script).foldlM runLine k

end Klipper

/-- The characters of a number or a name: none has a meaning of its own for a parser. -/
def Plain (t : List Char) : Prop :=
  t ≠ [] ∧ ∀ c ∈ t, WordReader.isSpace c = false ∧ c ≠ '\'' ∧ c ≠ '"' ∧ c ≠ '\\'

instance (t : List Char) : Decidable (Plain t) :=
  @instDecidableAnd _ _ _ (List.decidableBAll _ t)

namespace Plain

theorem append {t u : List Char} (ht : Plain t) (hu : Plain u) : Plain (t ++ u) :=
  ⟨by simp [ht.1], fun c hc => (List.mem_append.mp hc).elim (ht.2 c) (hu.2 c)⟩

theorem not_mem {t : List Char} (ht : Plain t) {d : Char} (hd : WordReader.isSpace d) : d ∉ t := by
  intro h
  rw [(ht.2 d h).1] at hd
  cases hd

theorem writeUnits (k n : ℕ) : Plain (writeUnits k n) := by
  have hdigit : ∀ c : Char, c.isDigit → WordReader.isSpace c = false ∧ c ≠ '\'' ∧ c ≠ '"' ∧ c ≠ '\\' := by
    intro c hc
    have hne {d : Char} (hd : d.isDigit = false) : c ≠ d := Decimal.ne_of_isDigit hc hd
    exact ⟨by simp [WordReader.isSpace, hne (d := ' ') (by decide), hne (d := '\t') (by decide),
      hne (d := '\r') (by decide), hne (d := '\n') (by decide)],
      hne (by decide), hne (by decide), hne (by decide)⟩
  refine ⟨fun h => Nat.toDigits_ne_nil (List.append_eq_nil_iff.mp h).1, fun c hc => ?_⟩
  rcases List.mem_append.mp hc with hc | hc
  · exact hdigit c (Decimal.isDigit_of_mem_toDigits hc)
  · split_ifs at hc
    · cases hc
    · rcases List.mem_cons.mp hc with rfl | hc
      · decide
      · exact hdigit c (isDigit_of_mem_lastDigits hc)

/-- A parameter with such a value is read as it is written. -/
theorem klipperParams {X v : List Char} (hX : Plain X) (heq : '=' ∉ X) (hv : Plain v) :
    klipperParams (X ++ '=' :: v) = some [(X, v)] := by
  refine klipperParams_eq_singleton.mpr ⟨shellWords_plain (by simp) ?_, heq⟩
  have hplain : Plain (X ++ ['='] ++ v) := (hX.append (by decide)).append hv
  simpa using hplain.2

end Plain

namespace Card

variable {c : Card}

theorem plain_selectedStr (h : c.InRange) : Plain c.selectedStr := by
  have hall : ∀ i < shapers.length, Plain ((shapers.getD i []).take 9) := by decide
  exact hall c.shaper h.shaper

/-- The name of the selected shaper is found at its index. -/
theorem findShaperIndex_selectedStr (h : c.InRange) : findShaperIndex c.selectedStr = c.shaper := by
  have hall : ∀ i < shapers.length, shapers.idxOf ((shapers.getD i []).take 9) = i := by decide
  exact hall c.shaper h.shaper

theorem slider_lt (h : c.InRange) : c.slider < 2 ^ 48 := lt_of_le_of_lt h.slider (by decide)

/-- A frequency is read from the file as the double it was before. -/
theorem showFreq_saved (h : c.InRange) (d : Card) :
    d.showFreq (.str (String.ofList (writeFixed 1 c.hz))) =
      some { d with slider := c.slider, value := writeShortest c.hz ++ " Hz".toList } := by
  have hstod : stod (writeFixed 1 c.hz) = some c.hz := by
    rw [stod, hz, writeFixed_tenth (slider_lt h), readFraction_writeUnits, pow_one]
    rfl
  have hslide : min ⌊roundDouble (c.hz * 10)⌋₊ 1400 = c.slider := by
    rw [hz, mul_comm, roundDouble_mul_ten (slider_lt h), Nat.floor_natCast, min_eq_left h.slider]
  have hread : (Json.str (String.ofList (writeFixed 1 c.hz))).str? =
      some (String.ofList (writeFixed 1 c.hz)) := rfl
  simp only [showFreq, hread, bind, Option.bind_some, String.toList_ofList, hstod]
  rw [slide, hslide]

theorem showType_saved (h : c.InRange) (d : Card) :
    d.showType (.str (String.ofList c.selectedStr)) = some { d with shaper := c.shaper } := by
  have hread : (Json.str (String.ofList c.selectedStr)).str? =
      some (String.ofList c.selectedStr) := rfl
  have hlast : c.shaper ≤ shapers.length - 1 := Nat.le_sub_one_of_lt h.shaper
  simp only [showType, hread, bind, Option.bind_some, String.toList_ofList, select]
  rw [findShaperIndex_selectedStr h, min_eq_left hlast]

end Card

theorem not_mem_intercalate {d e : Char} (hne : d ≠ e) {ws : List (List Char)}
    (h : ∀ w ∈ ws, d ∉ w) : d ∉ [e].intercalate ws := by
  induction ws with
  | nil => simp [List.intercalate]
  | cons w ws ih =>
    have hw := h w List.mem_cons_self
    have hws := ih fun v hv => h v (List.mem_cons_of_mem w hv)
    cases ws with
    | nil => simpa [List.intercalate] using hw
    | cons v ws =>
      simp only [List.intercalate, List.intersperse, List.flatten_cons] at hws ⊢
      simp [hw, hne, hws]

/-- The parameters that are sent. -/
def Panel.savedParams (p : Panel) : List (List Char × List Char) :=
  [("SHAPER_FREQ_X".toList, writeShortest (p.card .x).hz),
    ("SHAPER_TYPE_X".toList, (p.card .x).selectedStr),
    ("SHAPER_FREQ_Y".toList, writeShortest (p.card .y).hz),
    ("SHAPER_TYPE_Y".toList, (p.card .y).selectedStr)]

/-- The script is two lines. -/
theorem Panel.save_eq (p : Panel) : p.save = ("PS_SAVE_INPUT_SHAPER".toList ++
    ' ' :: [' '].intercalate (p.savedParams.map fun e => e.1 ++ '=' :: e.2)) ++
      '\n' :: "SAVE_CONFIG".toList := by
  have hjoin : ∀ a b c d : List Char, [' '].intercalate [a, b, c, d] =
      a ++ ' ' :: (b ++ ' ' :: (c ++ ' ' :: d)) := fun a b c d => by
    simp [List.intercalate, List.intersperse]
  unfold save
  simp only [param, savedParams, List.map_cons, List.map_nil, hjoin, List.append_assoc,
    List.cons_append]

theorem Panel.InRange.plain_savedParams {p : Panel} (h : p.InRange) :
    ∀ e ∈ p.savedParams, Plain e.1 ∧ '=' ∉ e.1 ∧ Plain e.2 := by
  simp only [savedParams, List.forall_mem_cons, List.not_mem_nil, false_imp_iff, implies_true,
    and_true]
  exact ⟨⟨by decide, by decide, Plain.writeUnits _ _⟩,
    ⟨by decide, by decide, (p.card .x).plain_selectedStr (h .x)⟩,
    ⟨by decide, by decide, Plain.writeUnits _ _⟩,
    ⟨by decide, by decide, (p.card .y).plain_selectedStr (h .y)⟩⟩

theorem Panel.InRange.klipperParams_saved {p : Panel} (h : p.InRange) :
    klipperParams ([' '].intercalate (p.savedParams.map fun e => e.1 ++ '=' :: e.2)) =
      some p.savedParams := by
  refine klipperParams_intercalate ?_
  rw [List.forall₂_map_left_iff, List.forall₂_same]
  intro e he
  obtain ⟨hX, heq, hv⟩ := h.plain_savedParams e he
  exact hX.klipperParams heq hv

/-- What a save leaves: the module starts anew, and the file has the four values. -/
def Klipper.afterSave (k : Klipper) (p : Panel) : Klipper where
  config := Assoc.insert "shaper_freq_y" (.str (String.ofList (writeFixed 1 (p.card .y).hz)))
    (Assoc.insert "shaper_type_y" (.str (String.ofList (p.card .y).selectedStr))
    (Assoc.insert "shaper_freq_x" (.str (String.ofList (writeFixed 1 (p.card .x).hz)))
    (Assoc.insert "shaper_type_x" (.str (String.ofList (p.card .x).selectedStr))
    (Assoc.insertAll k.pending k.config))))

section Save

variable {p : Panel} (h : p.InRange)
include h

theorem Panel.InRange.cmdSaveInputShaper (k : Klipper) :
    (k.cmdSaveInputShaper p.savedParams).map Klipper.saveConfig = some (k.afterSave p) := by
  have hread : ∀ a, (readFraction (writeShortest (p.card a).hz)).bind (fun r =>
      if r.2 = [] then some (roundDouble r.1) else none) = some (p.card a).hz := fun a => by
    rw [Card.hz, readFraction_writeShortest_tenth (Card.slider_lt (h a)), Option.bind_some,
      if_pos rfl]
  have hx : getFloat p.savedParams "SHAPER_FREQ_X" k.shaperConfig.shaperFreqX =
      some (p.card .x).hz := hread .x
  have hy : getFloat p.savedParams "SHAPER_FREQ_Y" k.shaperConfig.shaperFreqY =
      some (p.card .y).hz := hread .y
  have htx : getParam p.savedParams "SHAPER_TYPE_X" k.shaperConfig.shaperTypeX =
      (p.card .x).selectedStr := rfl
  have hty : getParam p.savedParams "SHAPER_TYPE_Y" k.shaperConfig.shaperTypeY =
      (p.card .y).selectedStr := rfl
  simp only [Klipper.cmdSaveInputShaper, hx, hy, htx, hty, bind, Option.bind_some, Option.map_some,
    Klipper.saveConfig, Klipper.set, Klipper.afterSave, Assoc.insertAll, List.foldl_append,
    List.foldl_cons, List.foldl_nil]

/-- Klipper reads the script and writes what the panel shows. -/
theorem Panel.InRange.runScript_save (k : Klipper) : k.runScript p.save = some (k.afterSave p) := by
  have hname : "PS_SAVE_INPUT_SHAPER".toList ≠ "SAVE_CONFIG".toList := by decide
  have hword : ∀ w ∈ p.savedParams.map fun e => e.1 ++ '=' :: e.2, '\n' ∉ w := by
    intro w hw
    obtain ⟨e, he, rfl⟩ := List.mem_map.mp hw
    obtain ⟨hX, -, hv⟩ := h.plain_savedParams e he
    simp [hX.not_mem (d := '\n') (by decide), hv.not_mem (d := '\n') (by decide)]
  have hline : '\n' ∉ "PS_SAVE_INPUT_SHAPER".toList ++
      ' ' :: [' '].intercalate (p.savedParams.map fun e => e.1 ++ '=' :: e.2) := by
    rw [List.mem_append, List.mem_cons, not_or, not_or]
    exact ⟨by decide, by decide, not_mem_intercalate (by decide) hword⟩
  have hcmd : Gcode.command ("PS_SAVE_INPUT_SHAPER".toList ++
      ' ' :: [' '].intercalate (p.savedParams.map fun e => e.1 ++ '=' :: e.2)) =
        "PS_SAVE_INPUT_SHAPER".toList := Gcode.command_append_space (by decide) _
  have hcmd' : Gcode.command "SAVE_CONFIG".toList = "SAVE_CONFIG".toList := by decide
  have hfirst : k.runLine ("PS_SAVE_INPUT_SHAPER".toList ++
      ' ' :: [' '].intercalate (p.savedParams.map fun e => e.1 ++ '=' :: e.2)) =
        k.cmdSaveInputShaper p.savedParams := by
    rw [Klipper.runLine, hcmd, if_pos rfl, List.drop_left, klipperParams_blank,
      h.klipperParams_saved, Option.bind_some]
  have hsecond : ∀ k : Klipper, k.runLine "SAVE_CONFIG".toList = some k.saveConfig := fun k => by
    rw [Klipper.runLine, hcmd', if_neg hname.symm, if_pos rfl]
  obtain ⟨k', hk', hsaved⟩ := Option.map_eq_some_iff.mp (h.cmdSaveInputShaper k)
  rw [Klipper.runScript, p.save_eq, fields_append_cons hline,
    fields_of_not_mem (by decide) (by decide), List.foldlM_cons, hfirst, hk']
  simp only [bind, Option.bind_some, List.foldlM_cons, List.foldlM_nil, hsecond, hsaved, pure]

end Save

/-- The configuration file says of an axis what the panel showed. -/
theorem Klipper.get_afterSave (k : Klipper) (p : Panel) (a : Axis) :
    (Json.obj (k.afterSave p).config).get (String.ofList ("shaper_freq_".toList ++ a.name)) =
        .str (String.ofList (writeFixed 1 (p.card a).hz)) ∧
      (Json.obj (k.afterSave p).config).get (String.ofList ("shaper_type_".toList ++ a.name)) =
        .str (String.ofList (p.card a).selectedStr) := by
  have hfx : String.ofList ("shaper_freq_".toList ++ Axis.x.name) = "shaper_freq_x" := by decide
  have htx : String.ofList ("shaper_type_".toList ++ Axis.x.name) = "shaper_type_x" := by decide
  have hfy : String.ofList ("shaper_freq_".toList ++ Axis.y.name) = "shaper_freq_y" := by decide
  have hty : String.ofList ("shaper_type_".toList ++ Axis.y.name) = "shaper_type_y" := by decide
  cases a with
  | x =>
    rw [hfx, htx]
    simp [Json.get, Json.get?, Json.members, afterSave, Assoc.lookup_insert]
  | y =>
    rw [hfy, hty]
    simp [Json.get, Json.get?, Json.members, afterSave, Assoc.lookup_insert]

theorem Card.foreground_afterSave {p : Panel} {a : Axis} (h : (p.card a).InRange) (k : Klipper)
    (d : Card) : d.foreground (.obj (k.afterSave p).config) a = some { d with
      slider := (p.card a).slider, value := writeShortest (p.card a).hz ++ " Hz".toList,
      shaper := (p.card a).shaper } := by
  obtain ⟨hfreq, htype⟩ := k.get_afterSave p a
  rw [foreground, hfreq, htype, showFreq_saved h, Option.bind_some, showType_saved h]

end PowerScreen.InputShaper
