import PowerScreen.Library.ShellWords
import PowerScreen.Macros.Patterns

/-! # Literals of a template and what the shell reader makes of them

A macro is a template. Its text literals have escapes of their own, of which the reader of
Klipper's parameters knows only few.
-/
namespace PowerScreen.Macros
open Library

/-- How the template engine reads an escape by letters and digits, such as a tab or the code of
a character: the character, and the text that is left. -/
structure Escapes where
  read : List Char → Option (Char × List Char)
  consumes : ∀ {t e r}, read t = some (e, r) →
    ∃ code, code ≠ [] ∧ (∀ d ∈ code, d ≠ '\\' ∧ isQuote d = false) ∧ t = code ++ r

variable (E : Escapes)

theorem Escapes.length_lt {E : Escapes} {t r : List Char} {e : Char}
    (h : E.read t = some (e, r)) : r.length < t.length := by
  obtain ⟨code, hne, -, rfl⟩ := E.consumes h
  have hpos := List.length_pos_iff.mpr hne
  rw [List.length_append]
  omega

/-- The value of what is between the quotes of a literal. -/
def unescape (E : Escapes) : List Char → List Char
  | [] => []
  | '\\' :: d :: t =>
    if isQuote d || d = '\\' then d :: unescape E t
    else if d = '\n' then unescape E t
    else match _h : E.read (d :: t) with
      | some (e, r) => e :: unescape E r
      | none => '\\' :: d :: unescape E t
  | c :: t => c :: unescape E t
termination_by t => t.length
decreasing_by
  all_goals simp
  exact Nat.le_of_lt (Escapes.length_lt ‹_›)

theorem unescape_char {c : Char} (hc : c ≠ '\\') (t : List Char) :
    unescape E (c :: t) = c :: unescape E t := by
  rw [unescape]
  intro d u heq
  exact absurd heq hc

theorem unescape_escape (d : Char) (t : List Char) : unescape E ('\\' :: d :: t) =
    if isQuote d || d = '\\' then d :: unescape E t
    else if d = '\n' then unescape E t
    else match E.read (d :: t) with
      | some (e, r) => e :: unescape E r
      | none => '\\' :: d :: unescape E t := by
  rw [unescape]
  split_ifs
  · rfl
  · rfl
  · split <;> split <;> simp_all

theorem length_resolve_le {E : Escapes} (p : Char → Bool) {d e : Char} {t r : List Char}
    (h : E.read (d :: t) = some (e, r)) : (resolve p r).length ≤ (resolve p t).length := by
  obtain ⟨code, hne, hplain, hcode⟩ := E.consumes h
  cases code with
  | nil => exact absurd rfl hne
  | cons c code =>
    obtain ⟨-, rfl⟩ := List.cons.inj hcode
    have hslash : '\\' ∉ code := fun h => (hplain _ (List.mem_cons_of_mem c h)).1 rfl
    rw [List.append_eq, resolve_append p hslash, List.length_append]
    omega

section Resolved

variable {p : Char → Bool} (hp : ∀ d, p d → isQuote d || d = '\\')
include hp

/-- An escape never stands for more than what the shell reader keeps of it. -/
theorem length_unescape_le (t : List Char) :
    (unescape E t).length ≤ (resolve p t).length := by
  fun_induction unescape E t with
  | case1 => exact Nat.zero_le _
  | case2 d t hquote ih =>
    rw [resolve]
    split_ifs <;> simp only [List.length_cons] <;> omega
  | case3 t hquote ih =>
    rw [resolve]
    split_ifs <;> simp only [List.length_cons] <;> omega
  | case4 d t hquote hline e r hread ih =>
    have hlen := length_resolve_le p hread
    rw [resolve]
    split_ifs <;> simp only [List.length_cons] <;> omega
  | case5 d t hquote hline hread ih =>
    rw [resolve, if_neg fun h => hquote (hp d h)]
    simp only [List.length_cons]
    omega
  | case6 c t hc ih =>
    have hres : resolve p (c :: t) = c :: resolve p t := by rw [resolve]; exact hc
    rw [hres, List.length_cons, List.length_cons]
    omega

/-- Template engine and shell reader, which resolves the escapes of certain characters, read every
escape alike. -/
inductive Agrees (p : Char → Bool) : List Char → Prop
  | nil : Agrees p []
  | char {c : Char} {t : List Char} : c ≠ '\\' → Agrees p t → Agrees p (c :: t)
  | resolved {d : Char} {t : List Char} : p d → Agrees p t → Agrees p ('\\' :: d :: t)
  | kept {d : Char} {t : List Char} : (isQuote d || d = '\\') = false → d ≠ '\n' →
      E.read (d :: t) = none → Agrees p t → Agrees p ('\\' :: d :: t)

theorem unescape_eq_resolve_iff {q : Char} {t : List Char} (h : Enclosed q t) :
    unescape E t = resolve p t ↔ Agrees E p t := by
  induction h with
  | nil => simp [unescape, resolve, Agrees.nil]
  | @char c t hq hc _ ih =>
    rw [unescape_char E hc, resolve_char p hc, List.cons_inj_right, ih]
    constructor
    · exact Agrees.char hc
    · intro h
      cases h with
      | char _ h => exact h
      | resolved => exact absurd rfl hc
      | kept => exact absurd rfl hc
  | @escape t d _ ih =>
    have hlen := length_unescape_le E hp t
    rw [unescape_escape, resolve]
    constructor
    · intro h
      split_ifs at h with hquote hpd hline hpd hpd
      · exact .resolved hpd (ih.mp (List.cons.inj h).2)
      · -- only the template engine resolves it: what follows is too short
        have hcut := congrArg List.length (List.cons.inj h).2
        rw [List.length_cons] at hcut
        omega
      · exact absurd (hp d hpd) hquote
      · have hcut := congrArg List.length h
        simp only [List.length_cons] at hcut
        omega
      · exact absurd (hp d hpd) hquote
      · cases hread : E.read (d :: t) with
        | none =>
          rw [hread] at h
          exact .kept (Bool.not_eq_true _ ▸ hquote) hline hread
            (ih.mp (List.cons.inj (List.cons.inj h).2).2)
        | some er =>
          obtain ⟨e, r⟩ := er
          rw [hread] at h
          have hcut := congrArg List.length h
          have hr := length_unescape_le E hp r
          have hrt := length_resolve_le p hread
          simp only [List.length_cons] at hcut
          omega
    · intro h
      cases h with
      | char hc => exact absurd rfl hc
      | resolved hpd h => rw [if_pos (hp d hpd), if_pos hpd, ih.mpr h]
      | kept hquote hline hread h =>
        have hpd : ¬ p d := fun hpd => by
          rw [hp d hpd] at hquote
          cases hquote
        rw [if_neg (by rw [hquote]; exact Bool.false_ne_true), if_neg hline, hread, if_neg hpd,
          ih.mpr h]

end Resolved

theorem exists_behind_escape {d : Char} {t a b : List Char}
    (hab : '\\' :: d :: t = a ++ '\'' :: b) : (a = ['\\'] ∧ d = '\'') ∨
      ∃ a', a = '\\' :: d :: a' ∧ t = a' ++ '\'' :: b := by
  match a, hab with
  | [], hab => cases hab
  | [_], hab =>
    obtain ⟨hc, hd⟩ := List.cons.inj hab
    exact Or.inl ⟨by rw [← hc], (List.cons.inj hd).1⟩
  | _ :: _ :: a, hab =>
    obtain ⟨rfl, hd⟩ := List.cons.inj hab
    obtain ⟨rfl, ht⟩ := List.cons.inj hd
    exact Or.inr ⟨a, rfl, ht⟩

theorem enclosed_of_append {q : Char} {a b : List Char} (ha : '\\' ∉ a)
    (h : Enclosed q (a ++ b)) : Enclosed q b := by
  induction a with
  | nil => exact h
  | cons c a ih =>
    rw [List.mem_cons, not_or] at ha
    rw [List.cons_append] at h
    generalize a ++ b = u at h ih
    cases h with
    | char _ _ h => exact ih ha.2 h
    | escape => exact absurd rfl ha.1

/-- In single quotes an escaped quote stands in the value further left than in the text. -/
theorem quote_mem_take_unescape {t : List Char} (h : Enclosed '\'' t) {a b : List Char}
    (hab : t = a ++ '\'' :: b) : '\'' ∈ (unescape E t).take a.length := by
  have hmono {u : List Char} {m n : ℕ} (hmn : m ≤ n) (hu : '\'' ∈ u.take m) : '\'' ∈ u.take n :=
    List.take_subset_take_left u hmn hu
  fun_induction unescape E t generalizing a b with
  | case1 => simp at hab
  | case2 d t hquote ih =>
    cases h with
    | char _ hc => exact absurd rfl hc
    | escape _ h =>
      rcases exists_behind_escape hab with ⟨rfl, rfl⟩ | ⟨a', rfl, ht⟩
      · exact List.mem_cons_self
      · exact List.mem_cons_of_mem d (hmono (Nat.le_succ _) (ih h ht))
  | case3 t hquote ih =>
    cases h with
    | char _ hc => exact absurd rfl hc
    | escape _ h =>
      rcases exists_behind_escape hab with ⟨rfl, hd⟩ | ⟨a', rfl, ht⟩
      · cases hd
      · exact hmono (Nat.le_add_right _ 2) (ih h ht)
  | case4 d t hquote hline e r hread ih =>
    cases h with
    | char _ hc => exact absurd rfl hc
    | escape _ h =>
      obtain ⟨code, hne, hplain, hcode⟩ := E.consumes hread
      have hnot : ∀ d ∈ code, d ≠ '\'' := fun d hd => by
        rintro rfl
        exact absurd (hplain _ hd).2 (by decide)
      rcases exists_behind_escape hab with ⟨-, rfl⟩ | ⟨a', rfl, rfl⟩
      · exact absurd rfl hquote
      · cases code with
        | nil => exact absurd rfl hne
        | cons c code =>
          obtain ⟨rfl, ht⟩ := List.cons.inj hcode
          have hslash : '\\' ∉ code := fun h => (hplain _ (List.mem_cons_of_mem _ h)).1 rfl
          have hr : Enclosed '\'' r := by
            rw [ht] at h
            exact enclosed_of_append hslash h
          rcases List.append_eq_append_iff.mp ht with ⟨u, hu, hsplit⟩ | ⟨u, rfl, rfl⟩
          · cases u with
            | nil => cases ih hr (a := []) hsplit.symm
            | cons c' u =>
              obtain ⟨rfl, -⟩ := List.cons.inj hsplit
              have hmem : '\'' ∈ code := hu ▸ List.mem_append_right a' List.mem_cons_self
              exact absurd rfl (hnot _ (List.mem_cons_of_mem _ hmem))
          · have hlen : u.length ≤ (code ++ u).length + 1 := by
              rw [List.length_append]
              omega
            exact List.mem_cons_of_mem e (hmono hlen (ih hr rfl))
  | case5 d t hquote hline hread ih =>
    cases h with
    | char _ hc => exact absurd rfl hc
    | escape _ h =>
      rcases exists_behind_escape hab with ⟨-, rfl⟩ | ⟨a', rfl, ht⟩
      · exact absurd rfl hquote
      · exact List.mem_cons_of_mem _ (List.mem_cons_of_mem _ (ih h ht))
  | case6 c t hc ih =>
    cases h with
    | escape d _ => exact absurd rfl (hc d _ rfl)
    | char hq _ h =>
      cases a with
      | nil => exact absurd (List.cons.inj hab).1 hq
      | cons _ a => exact List.mem_cons_of_mem c (ih h (List.cons.inj hab).2)

def IsDigits (ds : List Char) : Prop := ds ≠ [] ∧ ∀ c ∈ ds, c.isDigit

/-- A decimal number: a sign, digits, a fraction, an exponent. -/
def IsNumber (n : List Char) : Prop := ∃ sign whole fraction exponent,
  n = sign ++ (whole ++ (fraction ++ exponent)) ∧ (sign = [] ∨ sign = ['-']) ∧ IsDigits whole ∧
  (fraction = [] ∨ ∃ ds, fraction = '.' :: ds ∧ IsDigits ds) ∧
  (exponent = [] ∨ ∃ e s ds, exponent = e :: (s ++ ds) ∧ (e = 'e' ∨ e = 'E') ∧
    (s = [] ∨ s = ['+'] ∨ s = ['-']) ∧ IsDigits ds)

/-- A number, or a text in quotes. -/
inductive Literal where
  | number (n : List Char) (h : IsNumber n)
  | quoted (q : Char) (body : List Char) (hq : isQuote q) (h : Enclosed q body)

def Literal.text : Literal → List Char
  | .number n _ => n
  | .quoted q body _ _ => q :: (body ++ [q])

/-- What the template has for it. -/
def Literal.value : Literal → List Char
  | .number n _ => n
  | .quoted _ body _ _ => unescape E body

def isNumberChar (c : Char) : Bool := c.isDigit || "-+.eE".toList.contains c

theorem IsNumber.chars {n : List Char} (h : IsNumber n) : ∀ c ∈ n, isNumberChar c := by
  obtain ⟨sign, whole, fraction, exponent, rfl, hsign, hwhole, hfraction, hexponent⟩ := h
  have hdigits {ds : List Char} (hds : IsDigits ds) : ∀ c ∈ ds, isNumberChar c := fun c hc => by
    rw [isNumberChar, hds.2 c hc, Bool.true_or]
  intro c hc
  rw [List.mem_append, List.mem_append, List.mem_append] at hc
  rcases hc with hc | hc | hc | hc
  · rcases hsign with rfl | rfl
    · cases hc
    · rw [List.mem_singleton.mp hc]
      decide
  · exact hdigits hwhole c hc
  · rcases hfraction with rfl | ⟨ds, rfl, hds⟩
    · cases hc
    · rcases List.mem_cons.mp hc with rfl | hc
      · decide
      · exact hdigits hds c hc
  · rcases hexponent with rfl | ⟨e, s, ds, rfl, he, hs, hds⟩
    · cases hc
    · rcases List.mem_cons.mp hc with rfl | hc
      · rcases he with rfl | rfl <;> decide
      · rcases List.mem_append.mp hc with hc | hc
        · rcases hs with rfl | rfl | rfl
          · cases hc
          all_goals
            rw [List.mem_singleton.mp hc]
            decide
        · exact hdigits hds c hc

/-- It begins as the pattern wants it. -/
theorem IsNumber.begins {n : List Char} (h : IsNumber n) :
    ∃ c t, n = c :: t ∧ (c.isDigit ∨ (c = '-' ∧ t.head?.any Char.isDigit)) := by
  obtain ⟨sign, whole, fraction, exponent, rfl, hsign, ⟨hne, hdigits⟩, -, -⟩ := h
  cases whole with
  | nil => exact absurd rfl hne
  | cons d ds =>
    have hd := hdigits d List.mem_cons_self
    rcases hsign with rfl | rfl
    · exact ⟨d, _, rfl, Or.inl hd⟩
    · exact ⟨'-', _, rfl, Or.inr ⟨rfl, hd⟩⟩

/-- None of its characters means anything to the patterns and to the shell reader. -/
theorem not_special_of_isNumberChar {c : Char} (hc : isNumberChar c) :
    inNumber c ∧ WordReader.isSpace c = false ∧ c ≠ '\'' ∧ c ≠ '"' ∧ c ≠ '\\' ∧ c ≠ '\x00' := by
  have hne {d : Char} (hd : isNumberChar d = false) : c ≠ d := by
    rintro rfl
    rw [hc] at hd
    cases hd
  refine ⟨?_, ?_, hne (by decide), hne (by decide), hne (by decide), hne (by decide)⟩
  · have h1 : c ≠ ',' := hne (by decide)
    have h2 : c ≠ ')' := hne (by decide)
    simp [inNumber, h1, h2]
  · have h1 : c ≠ ' ' := hne (by decide)
    have h2 : c ≠ '\t' := hne (by decide)
    have h3 : c ≠ '\r' := hne (by decide)
    have h4 : c ≠ '\n' := hne (by decide)
    simp [WordReader.isSpace, h1, h2, h3, h4]

end PowerScreen.Macros
