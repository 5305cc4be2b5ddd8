import Mathlib.Data.List.Basic

/-! # Words in shell-style quoting

Blanks separate words. Single quotes keep everything up to the next one; in double quotes a
backslash keeps a quote or a backslash and stands for itself elsewhere; outside of quotes it
keeps any character. A reader goes through the text character by character.
-/
namespace PowerScreen.Library

inductive Quoting where
  | plain
  | escaped
  | single
  | double
  | doubleEscaped
deriving DecidableEq

structure WordReader where
  words : List (List Char) := []
  /-- The word that is being read; `none` between two words. -/
  word : Option (List Char) := none
  quoting : Quoting := .plain

namespace WordReader

def isSpace (c : Char) : Bool := c = ' ' || c = '\t' || c = '\r' || c = '\n'

def push (s : WordReader) (cs : List Char) : WordReader :=
  { s with word := some (s.word.getD [] ++ cs) }

def step (s : WordReader) (c : Char) : WordReader :=
  match s.quoting with
  | .plain =>
    if isSpace c then { s with words := s.words ++ s.word.toList, word := none }
    else if c = '\'' then { s.push [] with quoting := .single }
    else if c = '"' then { s.push [] with quoting := .double }
    else if c = '\\' then { s.push [] with quoting := .escaped }
    else s.push [c]
  | .escaped => { s.push [c] with quoting := .plain }
  | .single => if c = '\'' then { s with quoting := .plain } else s.push [c]
  | .double =>
    if c = '"' then { s with quoting := .plain }
    else if c = '\\' then { s with quoting := .doubleEscaped }
    else s.push [c]
  | .doubleEscaped =>
    { s.push (if c = '"' ∨ c = '\\' then [c] else ['\\', c]) with quoting := .double }

def read (s : WordReader) (t : List Char) : WordReader := t.foldl step s

/-- The words; none where a quote is left open or nothing follows a backslash. -/
def finish (s : WordReader) : Option (List (List Char)) :=
  if s.quoting = .plain then some (s.words ++ s.word.toList) else none

end WordReader

/-- A text between quotes: in it that quote and the backslash are escaped. -/
inductive Enclosed (q : Char) : List Char → Prop
  | nil : Enclosed q []
  | char {c : Char} {t : List Char} : c ≠ q → c ≠ '\\' → Enclosed q t → Enclosed q (c :: t)
  | escape {t : List Char} (d : Char) : Enclosed q t → Enclosed q ('\\' :: d :: t)

/-- The text whose escapes of certain characters are resolved, and no others. -/
def resolve (p : Char → Bool) : List Char → List Char
  | [] => []
  | '\\' :: d :: t => if p d then d :: resolve p t else '\\' :: d :: resolve p t
  | c :: t => c :: resolve p t

/-- What a backslash keeps in double quotes. -/
def isDoubleEscape (d : Char) : Bool := d = '"' || d = '\\'

theorem resolve_char (p : Char → Bool) {c : Char} (hc : c ≠ '\\') (t : List Char) :
    resolve p (c :: t) = c :: resolve p t := by
  rw [resolve]
  intro d u heq
  exact absurd heq hc

theorem resolve_append (p : Char → Bool) {a : List Char} (ha : '\\' ∉ a) (t : List Char) :
    resolve p (a ++ t) = a ++ resolve p t := by
  induction a with
  | nil => rfl
  | cons c a ih =>
    rw [List.mem_cons, not_or] at ha
    rw [List.cons_append, resolve_char p (Ne.symm ha.1), ih ha.2, List.cons_append]

theorem resolve_none {q : Char} {t : List Char} (h : Enclosed q t) :
    resolve (fun _ => false) t = t := by
  induction h with
  | nil => rfl
  | char hq hc _ ih => rw [resolve_char _ hc, ih]
  | escape d _ ih => rw [resolve, if_neg Bool.false_ne_true, ih]

def shellWords (t : List Char) : Option (List (List Char)) := (WordReader.read {} t).finish

namespace WordReader

variable (s : WordReader)

@[simp] theorem read_nil : s.read [] = s := rfl

@[simp] theorem read_cons (c : Char) (t : List Char) : s.read (c :: t) = (s.step c).read t := rfl

theorem read_append (a b : List Char) : s.read (a ++ b) = (s.read a).read b := List.foldl_append

/-- The reader with other words in front. -/
def behind (ws : List (List Char)) : WordReader := { s with words := ws ++ s.words }

theorem step_behind (ws : List (List Char)) (c : Char) :
    (s.behind ws).step c = (s.step c).behind ws := by
  obtain ⟨words, word, quoting⟩ := s
  cases quoting <;> simp only [step, behind, push] <;> split_ifs <;>
    simp only [List.append_assoc]

theorem read_behind (ws : List (List Char)) (t : List Char) :
    (s.behind ws).read t = (s.read t).behind ws := by
  induction t generalizing s with
  | nil => rfl
  | cons c t ih => rw [read_cons, read_cons, step_behind, ih]

theorem finish_behind (ws : List (List Char)) :
    (s.behind ws).finish = s.finish.map (ws ++ ·) := by
  unfold finish behind
  dsimp only
  split_ifs <;> simp

/-- All words so far, with the one that is being read. -/
def sofar : List (List Char) := s.words ++ s.word.toList

/-- The first word begins so. -/
def Begins (pre : List Char) : Prop := ∃ u ws, s.sofar = (pre ++ u) :: ws

variable {s} {pre : List Char}

theorem Begins.push (h : s.Begins pre) (cs : List Char) : (s.push cs).Begins pre := by
  obtain ⟨words, word, quoting⟩ := s
  obtain ⟨u, ws, h⟩ := h
  unfold WordReader.push Begins sofar
  cases words with
  | nil =>
    cases word with
    | none => cases h
    | some w =>
      cases h
      exact ⟨u ++ cs, [], by simp⟩
  | cons w words =>
    obtain ⟨hw, -⟩ := List.cons.inj h
    exact ⟨u, words ++ [word.getD [] ++ cs], by simp [hw]⟩

/-- What is read of the first word stays. -/
theorem Begins.step (h : s.Begins pre) (c : Char) : (s.step c).Begins pre := by
  unfold WordReader.step
  split
  · split_ifs
    · obtain ⟨u, ws, h⟩ := h
      exact ⟨u, ws, by rw [← h]; simp [sofar]⟩
    all_goals exact h.push _
  · exact h.push _
  · split_ifs
    · exact h
    · exact h.push _
  · split_ifs
    · exact h
    · exact h
    · exact h.push _
  · exact h.push _

theorem Begins.finish_read (h : s.Begins pre) {t : List Char} {w : List Char}
    (hw : (s.read t).finish = some [w]) : pre <+: w := by
  have hread : (s.read t).Begins pre := by
    clear hw
    induction t generalizing s with
    | nil => exact h
    | cons c t ih => exact ih (h.step c)
  obtain ⟨u, ws, hws⟩ := hread
  unfold finish at hw
  split_ifs at hw
  have hw' := Option.some.inj hw
  rw [← sofar, hws] at hw'
  exact ⟨u, (List.cons.inj hw').1⟩

section Body

variable {words : List (List Char)} {w : List Char}

/-- Characters without a meaning of their own. -/
theorem read_plain {t : List Char}
    (ht : ∀ c ∈ t, isSpace c = false ∧ c ≠ '\'' ∧ c ≠ '"' ∧ c ≠ '\\') :
    read ⟨words, some w, .plain⟩ t = ⟨words, some (w ++ t), .plain⟩ := by
  induction t generalizing w with
  | nil => rw [read_nil, List.append_nil]
  | cons c t ih =>
    obtain ⟨hspace, hsingle, hdouble, hslash⟩ := ht c List.mem_cons_self
    have hstep : step ⟨words, some w, .plain⟩ c = ⟨words, some (w ++ [c]), .plain⟩ := by
      simp [step, push, hspace, hsingle, hdouble, hslash]
    rw [read_cons, hstep, ih fun d hd => ht d (List.mem_cons_of_mem c hd), List.append_assoc,
      List.singleton_append]

theorem read_single {t : List Char} (ht : '\'' ∉ t) :
    read ⟨words, some w, .single⟩ t = ⟨words, some (w ++ t), .single⟩ := by
  induction t generalizing w with
  | nil => rw [read_nil, List.append_nil]
  | cons c t ih =>
    rw [List.mem_cons, not_or] at ht
    have hstep : step ⟨words, some w, .single⟩ c = ⟨words, some (w ++ [c]), .single⟩ := by
      simp [step, push, Ne.symm ht.1]
    rw [read_cons, hstep, ih ht.2, List.append_assoc, List.singleton_append]

theorem read_double {t : List Char} (ht : Enclosed '"' t) :
    read ⟨words, some w, .double⟩ t = ⟨words, some (w ++ resolve isDoubleEscape t), .double⟩ := by
  induction ht generalizing w with
  | nil => rw [read_nil, resolve, List.append_nil]
  | @char c t hq hc _ ih =>
    have hstep : step ⟨words, some w, .double⟩ c = ⟨words, some (w ++ [c]), .double⟩ := by
      simp [step, push, hq, hc]
    rw [read_cons, hstep, ih, resolve_char _ hc, List.append_assoc, List.singleton_append]
  | escape d _ ih =>
    have hslash : step ⟨words, some w, .double⟩ '\\' = ⟨words, some w, .doubleEscaped⟩ := rfl
    have hstep : step ⟨words, some w, .doubleEscaped⟩ d =
        ⟨words, some (w ++ if isDoubleEscape d then [d] else ['\\', d]), .double⟩ := by
      simp [step, push, isDoubleEscape]
    rw [read_cons, read_cons, hslash, hstep, ih, resolve]
    split_ifs <;> rw [List.append_assoc] <;> rfl

end Body

end WordReader

open WordReader

theorem shellWords_append_space {a b : List Char} {ws : List (List Char)}
    (ha : shellWords a = some ws) :
    shellWords (a ++ ' ' :: b) = (shellWords b).map (ws ++ ·) := by
  unfold shellWords finish at ha
  split_ifs at ha with hquoting
  have hstep : (read {} a).step ' ' = WordReader.behind {} ws := by
    rw [← Option.some.inj ha]
    unfold step
    rw [hquoting]
    simp [isSpace, behind]
  rw [shellWords, read_append, read_cons, hstep, read_behind, finish_behind]
  rfl

/-- A word that is not empty and has no character with a meaning of its own. -/
theorem shellWords_plain {t : List Char} (hne : t ≠ [])
    (ht : ∀ c ∈ t, isSpace c = false ∧ c ≠ '\'' ∧ c ≠ '"' ∧ c ≠ '\\') :
    shellWords t = some [t] := by
  obtain ⟨c, t, rfl⟩ := List.exists_cons_of_ne_nil hne
  obtain ⟨hspace, hsingle, hdouble, hslash⟩ := ht c List.mem_cons_self
  have hstep : step {} c = ⟨[], some [c], .plain⟩ := by
    simp [step, push, hspace, hsingle, hdouble, hslash]
  rw [shellWords, read_cons, hstep, read_plain fun d hd => ht d (List.mem_cons_of_mem c hd)]
  rfl

/-- Texts that are one word each are read so one after the other. -/
theorem shellWords_intercalate {ts ws : List (List Char)}
    (h : List.Forall₂ (fun t w => shellWords t = some [w]) ts ws) :
    shellWords ([' '].intercalate ts) = some ws := by
  induction h with
  | nil => rfl
  | @cons t w ts ws ht hts ih =>
    cases hts with
    | nil => simpa [List.intercalate] using ht
    | cons ht' hts =>
      have hjoin : ∀ t' ts', [' '].intercalate (t :: t' :: ts') =
          t ++ ' ' :: [' '].intercalate (t' :: ts') := fun t' ts' => by
        simp [List.intercalate, List.intersperse]
      rw [hjoin, shellWords_append_space ht, ih, Option.map_some, List.singleton_append]

end PowerScreen.Library
