import PowerScreen.Library.ShellWords
import PowerScreen.Macros.Parse

/-! # The items of the macros panel

An item shows the parameters of a macro in text areas, with the defaults that were found, and
sends those that are not empty.
-/
namespace PowerScreen.Macros
open Library

/-- What a widget is given as a C string. -/
def cString (s : String) : String := String.ofList (s.toList.takeWhile (· ≠ '\x00'))

structure MacroItem where
  macroLabel : String
  /-- The labels and the text areas. -/
  params : List (String × String)
  hidden : Bool

def MacroItem.create (macroName : String) (mParams : Params) (hide : Bool) : MacroItem where
  macroLabel := cString macroName
  params := mParams.map fun p => (cString p.1, cString p.2)
  hidden := hide

def keyValue (p : String × String) : List Char := p.1.toList ++ '=' :: p.2.toList

/-- The parameters that are sent. -/
def MacroItem.sent (i : MacroItem) : List (String × String) := i.params.filter fun p => p.2 ≠ ""

/-- The command that a tap on the button sends. -/
def MacroItem.handleSendMacro (i : MacroItem) : List Char :=
  [' '].intercalate (i.macroLabel.toList :: i.sent.map keyValue)

/-- The setting of a macro, false where it is null, and the settings as the access leaves them. -/
def hiddenSetting (settings : Json) (k : String) : Option (Bool × Json) :=
  (Json.parsePointer ("/" ++ k ++ "/hidden")).bind fun ts =>
    (Json.getAt ts settings).bind fun hidden => (Json.modifyAt id ts settings).bind fun left =>
      (if hidden = .null then some false else hidden.bool?).map fun hide => (hide, left)

def createItems : List (String × Params) → Json → Option (List MacroItem × Json)
  | [], settings => some ([], settings)
  | (k, v) :: macros, settings => (hiddenSetting settings k).bind fun r =>
    (createItems macros r.2).map fun r' => (MacroItem.create k v r.1 :: r'.1, r'.2)

/-- The items for the configuration and the settings in the state, and both as they are left. -/
def populate (config settings : Json) : Option (List MacroItem × Json × Json) :=
  if config = .null then some ([], config, settings)
  else (parseMacros config).bind fun r =>
    (createItems r.1 settings).map fun r' => (r'.1, r.2, r'.2)

/-- Klipper's view of a word of a command. -/
def splitParam (w : List Char) : Option (List Char × List Char) :=
  if '=' ∈ w then some (w.takeWhile (· ≠ '='), (w.dropWhile (· ≠ '=')).tail) else none

/-- Klipper's parser for the parameters behind the name of a command. -/
def klipperParams (args : List Char) : Option (List (List Char × List Char)) :=
  (shellWords args).bind fun ws => ws.mapM splitParam

/-- There is one item for each macro, in their order. -/
theorem createItems_eq {macros : List (String × Params)} {settings left : Json}
    {items : List MacroItem} (h : createItems macros settings = some (items, left)) :
    List.Forall₂ (fun m i => ∃ hide, i = MacroItem.create m.1 m.2 hide) macros items := by
  induction macros generalizing settings items with
  | nil =>
    cases h
    exact .nil
  | cons m macros ih =>
    obtain ⟨⟨hide, settings'⟩, -, h⟩ := Option.bind_eq_some_iff.mp h
    obtain ⟨⟨items', left'⟩, hrest, heq⟩ := Option.map_eq_some_iff.mp h
    cases heq
    exact .cons ⟨hide, rfl⟩ (ih hrest)

theorem splitParam_word {X v : List Char} (hX : '=' ∉ X) :
    splitParam (X ++ '=' :: v) = some (X, v) := by
  have h := takeWhile_eq_of_boundary (p := fun c => decide (c ≠ '=')) (a := X) (b := '=' :: v)
    (fun c hc => decide_eq_true fun heq => hX (heq ▸ hc)) (by simp)
  rw [splitParam, if_pos (by simp), h.1, h.2, List.tail_cons]

theorem splitParam_eq_some {w X v : List Char} (h : splitParam w = some (X, v)) :
    w = X ++ '=' :: v ∧ '=' ∉ X := by
  by_cases hmem : '=' ∈ w
  · obtain ⟨a, b, rfl, ha⟩ := List.eq_append_cons_of_mem hmem
    rw [splitParam_word ha] at h
    cases h
    exact ⟨rfl, ha⟩
  · rw [splitParam, if_neg hmem] at h
    cases h

/-- A text is read as one parameter where it is one word with an equals sign. -/
theorem klipperParams_eq_singleton {t X v : List Char} : klipperParams t = some [(X, v)] ↔
    shellWords t = some [X ++ '=' :: v] ∧ '=' ∉ X := by
  unfold klipperParams
  constructor
  · intro h
    obtain ⟨ws, hws, hparams⟩ := Option.bind_eq_some_iff.mp h
    cases ws with
    | nil => cases hparams
    | cons w ws =>
      rw [List.mapM_cons] at hparams
      obtain ⟨p, hp, hparams⟩ := Option.bind_eq_some_iff.mp hparams
      obtain ⟨ps, hps, heq⟩ := Option.bind_eq_some_iff.mp hparams
      cases heq
      obtain ⟨rfl, hX⟩ := splitParam_eq_some hp
      cases ws with
      | nil => exact ⟨hws, hX⟩
      | cons w' ws =>
        rw [List.mapM_cons] at hps
        obtain ⟨p', -, hps⟩ := Option.bind_eq_some_iff.mp hps
        obtain ⟨ps', -, hps⟩ := Option.bind_eq_some_iff.mp hps
        cases hps
  · rintro ⟨h, hX⟩
    rw [h, Option.bind_some, List.mapM_cons, splitParam_word hX]
    rfl

/-- Parameters that are read one by one are read so in the whole command. -/
theorem klipperParams_intercalate {ts : List (List Char)} {ps : List (List Char × List Char)}
    (h : List.Forall₂ (fun t p => klipperParams t = some [p]) ts ps) :
    klipperParams ([' '].intercalate ts) = some ps := by
  have hwords : List.Forall₂ (fun t w => shellWords t = some [w]) ts
      (ps.map fun p => p.1 ++ '=' :: p.2) := by
    rw [List.forall₂_map_right_iff]
    exact h.imp fun t p ht => (klipperParams_eq_singleton.mp ht).1
  have hread : (ps.map fun p => p.1 ++ '=' :: p.2).mapM splitParam = some ps := by
    clear hwords
    induction h with
    | nil => rfl
    | cons ht _ ih =>
      rw [List.map_cons, List.mapM_cons, splitParam_word (klipperParams_eq_singleton.mp ht).2, ih]
      rfl
  rw [klipperParams, shellWords_intercalate hwords, Option.bind_some, hread]

/-- A blank in front is skipped. -/
theorem klipperParams_blank (t : List Char) : klipperParams (' ' :: t) = klipperParams t := by
  have hnil : shellWords [] = some [] := rfl
  have h : shellWords (' ' :: t) = shellWords t := by
    have hskip := shellWords_append_space hnil (b := t)
    simpa using hskip
  rw [klipperParams, h, klipperParams]

/-- The command is its name with the parameters behind it. -/
theorem handleSendMacro_eq (i : MacroItem) : ∃ args,
    i.handleSendMacro = i.macroLabel.toList ++ args ∧
      klipperParams args = klipperParams ([' '].intercalate (i.sent.map keyValue)) := by
  unfold MacroItem.handleSendMacro
  cases i.sent.map keyValue with
  | nil => exact ⟨[], by simp [List.intercalate], rfl⟩
  | cons kv kvs =>
    refine ⟨' ' :: [' '].intercalate (kv :: kvs), ?_, klipperParams_blank _⟩
    simp [List.intercalate, List.intersperse]

end PowerScreen.Macros
