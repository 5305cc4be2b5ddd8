import PowerScreen.Macros.Item
import PowerScreen.Macros.Literals

/-! # The default that is found for a parameter

The search takes the first filter on the rest of the line that has a number or a closed text;
a text goes on to the last quote of its kind. What the panel then sends reads as the value of
the literal only where no such quote follows and both readers agree on its escapes.
-/
namespace PowerScreen.Macros
open Library WordReader

/-- The text behind a parameter whose default is the literal. -/
def direct (L : Literal) (b : List Char) : List Char := "|default(".toList ++ (L.text ++ ')' :: b)

/-- The first filter that has a number or a closed text as default, and that. -/
def FirstDefault (r a : List Char) : Prop := ∃ u v, u <:+ r ∧ defaultValueRegex.FirstAt r u ∧
  defaultOpening u = some v ∧ defaultArgument v = some a

/-- Which escapes the shell reader resolves between these quotes. -/
def quoteEscapes (q : Char) : Char → Bool := if q = '"' then isDoubleEscape else fun _ => false

/-- Nothing that follows is taken for a part of the literal, and both readers agree on it. -/
def Clean (E : Escapes) : Literal → List Char → Prop
  | .number _ _, _ => True
  | .quoted q body _ _, b => closing q (')' :: b) = none ∧ Agrees E (quoteEscapes q) body

/-- The literal has none of the characters that end a match or a C string. -/
def Printable (L : Literal) : Prop := ∀ c ∈ L.text, c ≠ '\x00' ∧ c ≠ '\x02'

/-- What a text area keeps. -/
def cut (t : List Char) : List Char := t.takeWhile (· ≠ '\x00')

theorem defaultValueRegex_eq_some {u a : List Char} :
    (∃ n, defaultValueRegex u = some (a, n)) ↔
      ∃ v, defaultOpening u = some v ∧ defaultArgument v = some a := by
  unfold defaultValueRegex
  constructor
  · rintro ⟨n, h⟩
    obtain ⟨v, hv, h⟩ := Option.bind_eq_some_iff.mp h
    obtain ⟨a', ha, heq⟩ := Option.map_eq_some_iff.mp h
    cases heq
    exact ⟨v, hv, ha⟩
  · rintro ⟨v, hv, ha⟩
    exact ⟨_, by rw [hv, Option.bind_some, ha, Option.map_some]⟩

theorem firstDefault_iff {r a : List Char} :
    FirstDefault r a ↔ (defaultValueRegex.search r).map Prod.fst = some a := by
  constructor
  · rintro ⟨u, v, hu, hfirst, hv, ha⟩
    obtain ⟨n, hn⟩ := defaultValueRegex_eq_some.mpr ⟨v, hv, ha⟩
    rw [Matcher.search_eq_some.mpr ⟨u, hu, hfirst, hn⟩, Option.map_some]
  · intro h
    obtain ⟨⟨a', n⟩, hsearch, heq⟩ := Option.map_eq_some_iff.mp h
    cases heq
    obtain ⟨u, hu, hfirst, hn⟩ := Matcher.search_eq_some.mp hsearch
    obtain ⟨v, hv, ha⟩ := defaultValueRegex_eq_some.mp ⟨n, hn⟩
    exact ⟨u, v, hu, hfirst, hv, ha⟩

theorem firstDefault_unique {r a a' : List Char} (h : FirstDefault r a) (h' : FirstDefault r a') :
    a = a' := by
  rw [firstDefault_iff] at h h'
  exact Option.some.inj (h.symm.trans h')

/-- A default is never empty, and it does not begin with the end of a C string. -/
theorem cut_ne_nil {r a : List Char} (h : FirstDefault r a) : cut a ≠ [] := by
  obtain ⟨-, v, -, -, -, ha⟩ := h
  cases v with
  | nil => cases ha
  | cons c t =>
    have hhead {u : List Char} (hc : c ≠ '\x00') : cut (c :: u) ≠ [] := by
      simp [cut, hc]
    have hnul {p : Char → Bool} (hp : p '\x00' = false) (hc : p c) : c ≠ '\x00' := by
      rintro rfl
      rw [hp] at hc
      cases hc
    rw [defaultArgument] at ha
    split_ifs at ha with hquote hdigit hminus
    · obtain ⟨u, -, rfl⟩ := Option.map_eq_some_iff.mp ha
      exact hhead (hnul (p := isQuote) (by decide) hquote)
    · cases ha
      exact hhead (hnul (p := Char.isDigit) (by decide) hdigit)
    · cases ha
      exact hhead (by rw [hminus.1]; decide)

section Closing

variable {q : Char}

theorem closing_cons {c : Char} {t u : List Char} (h : closing q (c :: t) = some u) :
    ∃ u', u = c :: u' := by
  rw [closing.eq_def] at h
  rcases Option.or_eq_some_iff.mp h with h | ⟨-, h⟩
  · rcases Option.or_eq_some_iff.mp h with h | ⟨-, h⟩
    · split at h
      · split_ifs at h
        obtain ⟨u', -, rfl⟩ := Option.map_eq_some_iff.mp h
        exact ⟨_, rfl⟩
      · cases h
    · split_ifs at h
      obtain ⟨u', -, rfl⟩ := Option.map_eq_some_iff.mp h
      exact ⟨_, rfl⟩
  · split_ifs at h with hc
    cases h
    exact ⟨[], by rw [hc]⟩

theorem closing_char {c : Char} (hc : c ≠ '\\') (hc2 : c ≠ '\x02') (t : List Char) :
    closing q (c :: t) = ((closing q t).map (c :: ·)).or (if c = q then some [q] else none) := by
  rw [closing.eq_def]
  dsimp only
  rw [if_neg hc2]
  cases t with
  | nil => rw [Option.none_or]
  | cons d t =>
    dsimp only
    rw [if_neg fun h => hc h.1, Option.none_or]

/-- The text goes on to the last quote that can be reached. -/
theorem closing_enclosed {body : List Char} (h : Enclosed q body) (hq : q ≠ '\\')
    (hq2 : q ≠ '\x02') (hctrl : ∀ c ∈ body, c ≠ '\x02' ∧ isLineEnd c = false)
    (b : List Char) :
    closing q (body ++ q :: b) = some (body ++ q :: (closing q b).getD []) := by
  induction h with
  | nil =>
    rw [List.nil_append, closing_char hq hq2, if_pos rfl, List.nil_append]
    cases closing q b <;> rfl
  | @char c t hcq hc _ ih =>
    rw [List.cons_append, closing_char hc (hctrl c List.mem_cons_self).1,
      ih fun d hd => hctrl d (List.mem_cons_of_mem c hd)]
    rfl
  | @escape t d _ ih =>
    have hd : isLineEnd d = false := (hctrl d (by simp)).2
    rw [List.cons_append, List.cons_append, closing.eq_def]
    dsimp only
    rw [if_pos ⟨rfl, by rw [hd]; rfl⟩, ih fun c hc => hctrl c (by simp [hc])]
    rfl

end Closing

/-- What is taken along behind the literal. -/
def extra : Literal → List Char → List Char
  | .number _ _, _ => []
  | .quoted q _ _ _, b => (closing q (')' :: b)).getD []

theorem isQuote_iff {q : Char} : isQuote q ↔ q = '"' ∨ q = '\'' := by simp [isQuote]

theorem defaultArgument_number {n : List Char} (h : IsNumber n) (b : List Char) :
    defaultArgument (n ++ ')' :: b) = some n := by
  obtain ⟨c, t, rfl, hc⟩ := h.begins
  have hsafe := not_special_of_isNumberChar (h.chars c List.mem_cons_self)
  have hquote : ¬ isQuote c := fun hq => by
    rcases isQuote_iff.mp hq with rfl | rfl
    · exact hsafe.2.2.2.1 rfl
    · exact hsafe.2.2.1 rfl
  have hrun : (t ++ ')' :: b).takeWhile inNumber = t := by
    refine (takeWhile_eq_of_boundary (fun d hd => ?_) (by simp [inNumber])).1
    exact (not_special_of_isNumberChar (h.chars d (List.mem_cons_of_mem c hd))).1
  rw [List.cons_append, defaultArgument, if_neg hquote, hrun]
  rcases hc with hdigit | ⟨rfl, hdigit⟩
  · rw [if_pos hdigit]
  · have hhead : (t ++ ')' :: b).head?.any Char.isDigit := by
      cases t with
      | nil => cases hdigit
      | cons d t => exact hdigit
    rw [if_neg (by decide), if_pos ⟨rfl, hhead⟩]

theorem defaultArgument_literal {L : Literal} (hL : Printable L)
    (hline : ∀ c ∈ L.text, isLineEnd c = false) (b : List Char) :
    defaultArgument (L.text ++ ')' :: b) = some (L.text ++ extra L b) := by
  cases L with
  | number n h =>
    rw [Literal.text, defaultArgument_number h, extra, List.append_nil]
  | quoted q body hq h =>
    have hq1 : q ≠ '\\' := by rcases isQuote_iff.mp hq with rfl | rfl <;> decide
    have hq2 : q ≠ '\x02' := by rcases isQuote_iff.mp hq with rfl | rfl <;> decide
    have hbody : ∀ c ∈ body, c ≠ '\x02' ∧ isLineEnd c = false := fun c hc => by
      have hmem : c ∈ (Literal.quoted q body hq h).text := by simp [Literal.text, hc]
      exact ⟨(hL c hmem).2, hline c hmem⟩
    rw [Literal.text, List.cons_append, defaultArgument, if_pos hq, List.append_assoc,
      List.singleton_append, closing_enclosed h hq1 hq2 hbody, Option.map_some, extra,
      List.cons_append, List.append_assoc, List.singleton_append]

theorem Literal.text_head (L : Literal) : ∃ c t, L.text = c :: t ∧ isBlank c = false := by
  cases L with
  | number n h =>
    obtain ⟨c, t, rfl, hc⟩ := h.begins
    refine ⟨c, t, rfl, ?_⟩
    rcases hc with hdigit | ⟨rfl, -⟩
    · have hne {d : Char} (hd : d.isDigit = false) : c ≠ d := by
        rintro rfl
        rw [hdigit] at hd
        cases hd
      simp [isBlank, hne (d := ' ') (by decide), hne (d := '\t') (by decide),
        hne (d := '\n') (by decide), hne (d := '\x0b') (by decide), hne (d := '\x0c') (by decide),
        hne (d := '\r') (by decide)]
    · decide
  | quoted q body hq h =>
    refine ⟨q, _, rfl, ?_⟩
    rcases isQuote_iff.mp hq with rfl | rfl <;> decide

theorem defaultOpening_direct (L : Literal) (b : List Char) :
    defaultOpening (direct L b) = some (L.text ++ ')' :: b) := by
  obtain ⟨c, t, htext, hc⟩ := L.text_head
  have hword : dropWord "default" ("default".toList ++ '(' :: (L.text ++ ')' :: b)) =
      some ('(' :: (L.text ++ ')' :: b)) :=
    dropWord_eq_some.mpr ⟨"default".toList, by decide, rfl⟩
  have hblank : (L.text ++ ')' :: b).dropWhile isBlank = L.text ++ ')' :: b := by
    rw [htext, List.cons_append, List.dropWhile_cons_of_neg (by rw [hc]; exact Bool.false_ne_true)]
  have hskip : ("default".toList ++ '(' :: (L.text ++ ')' :: b)).dropWhile isBlank =
      "default".toList ++ '(' :: (L.text ++ ')' :: b) := rfl
  have htext' : direct L b = '|' :: ("default".toList ++ '(' :: (L.text ++ ')' :: b)) := rfl
  rw [htext', defaultOpening, hskip, hword, Option.bind_some]
  have hparen : ('(' :: (L.text ++ ')' :: b)).dropWhile isBlank = '(' :: (L.text ++ ')' :: b) := rfl
  rw [hparen]
  exact congrArg some hblank

/-- Directly behind a parameter a literal is found, with what is taken along. -/
theorem firstDefault_direct {L : Literal} (hL : Printable L)
    (hline : ∀ c ∈ L.text, isLineEnd c = false) (b : List Char) :
    FirstDefault (direct L b) (L.text ++ extra L b) :=
  ⟨direct L b, _, List.suffix_rfl,
    fun _ hv hlt => absurd hv.length_le (Nat.not_le_of_lt hlt),
    defaultOpening_direct L b, defaultArgument_literal hL hline b⟩

theorem cut_literal {L : Literal} (hL : Printable L) (t : List Char) :
    cut (L.text ++ t) = L.text ++ cut t :=
  List.takeWhile_append_of_pos fun c hc => decide_eq_true (hL c hc).1

section Reading

variable {X : List Char} (hX : ∀ c ∈ X, isWord c)

theorem plain_of_isWord {c : Char} (hc : isWord c) :
    isSpace c = false ∧ c ≠ '\'' ∧ c ≠ '"' ∧ c ≠ '\\' := by
  have hne {d : Char} (hd : isWord d = false) : c ≠ d := by
    rintro rfl
    rw [hc] at hd
    cases hd
  exact ⟨by simp [isSpace, hne (d := ' ') (by decide), hne (d := '\t') (by decide),
    hne (d := '\r') (by decide), hne (d := '\n') (by decide)],
    hne (by decide), hne (by decide), hne (by decide)⟩

theorem equals_not_mem (hX : ∀ c ∈ X, isWord c) : '=' ∉ X := fun h =>
  absurd (hX _ h) (by decide)

include hX

/-- The reader behind the name and the equals sign. -/
theorem read_name (t : List Char) :
    read {} (X ++ '=' :: t) = read ⟨[], some (X ++ ['=']), .plain⟩ t := by
  have hplain : ∀ c ∈ X ++ ['='], isSpace c = false ∧ c ≠ '\'' ∧ c ≠ '"' ∧ c ≠ '\\' := fun c hc => by
    rcases List.mem_append.mp hc with hc | hc
    · exact plain_of_isWord (hX c hc)
    · rw [List.mem_singleton.mp hc]
      decide
  have hstart : read {} (X ++ ['=']) = ⟨[], some (X ++ ['=']), .plain⟩ := by
    cases hXe : X ++ ['='] with
    | nil => simp at hXe
    | cons c u =>
      rw [hXe] at hplain
      obtain ⟨hspace, hsingle, hdouble, hslash⟩ := hplain c List.mem_cons_self
      have hstep : step {} c = ⟨[], some [c], .plain⟩ := by
        simp [step, push, hspace, hsingle, hdouble, hslash]
      rw [read_cons, hstep, read_plain fun d hd => hplain d (List.mem_cons_of_mem c hd)]
      rfl
  rw [← List.singleton_append (l := t), ← List.append_assoc, read_append, hstart]

theorem klipperParams_iff {t v : List Char} : klipperParams (X ++ '=' :: t) = some [(X, v)] ↔
    (read ⟨[], some (X ++ ['=']), .plain⟩ t).finish = some [X ++ ['='] ++ v] := by
  rw [klipperParams_eq_singleton, shellWords, read_name hX, List.append_assoc,
    List.singleton_append]
  exact and_iff_left (equals_not_mem hX)

end Reading

/-- A text in quotes is read to its end, its escapes resolved. -/
theorem read_quoted {q : Char} {body w : List Char} (hq : isQuote q) (h : Enclosed q body)
    (hsingle : q = '\'' → '\'' ∉ body) :
    read ⟨[], some w, .plain⟩ (q :: (body ++ [q])) =
      ⟨[], some (w ++ resolve (quoteEscapes q) body), .plain⟩ := by
  rcases isQuote_iff.mp hq with rfl | rfl
  · have hopen : step ⟨[], some w, .plain⟩ '"' = ⟨[], some w, .double⟩ := by
      simp [step, push, isSpace]
    rw [read_cons, hopen, read_append, read_double h]
    rfl
  · have hopen : step ⟨[], some w, .plain⟩ '\'' = ⟨[], some w, .single⟩ := by
      simp [step, push, isSpace]
    have hres : resolve (quoteEscapes '\'') body = body := resolve_none h
    rw [read_cons, hopen, read_append, read_single (hsingle rfl), hres]
    rfl

theorem quoteEscapes_isEscape (q : Char) : ∀ d, quoteEscapes q d → isQuote d || d = '\\' := by
  intro d hd
  unfold quoteEscapes at hd
  split_ifs at hd
  rw [isDoubleEscape, Bool.or_eq_true] at hd
  rcases hd with hd | hd
  · rw [of_decide_eq_true hd]
    decide
  · rw [hd, Bool.or_true]

/-- Readers that agree on a text in single quotes find no quote in it. -/
theorem not_mem_of_agrees {E : Escapes} {body : List Char} (h : Enclosed '\'' body)
    (hagrees : Agrees E (quoteEscapes '\'') body) : '\'' ∉ body := by
  induction hagrees with
  | nil => simp
  | char hc _ ih =>
    cases h with
    | char hq _ h => exact fun hmem => (List.mem_cons.mp hmem).elim (hq ·.symm) (ih h)
    | escape => exact absurd rfl hc
  | resolved hd => cases hd
  | @kept d t hd _ _ _ ih =>
    cases h with
    | char _ hc => exact absurd rfl hc
    | escape _ h =>
      intro hmem
      rcases List.mem_cons.mp hmem with hmem | hmem
      · exact absurd hmem (by decide)
      · rcases List.mem_cons.mp hmem with rfl | hmem
        · exact absurd hd (by decide)
        · exact ih h hmem

section Sent

variable {E : Escapes} {X : List Char} (hX : ∀ c ∈ X, isWord c)

theorem finish_plain (w : List Char) : finish ⟨[], some w, .plain⟩ = some [w] := rfl

/-- A number is read as it stands. -/
theorem klipperParams_number (hX : ∀ c ∈ X, isWord c) {n : List Char} (h : IsNumber n) :
    klipperParams (X ++ '=' :: n) = some [(X, n)] := by
  rw [klipperParams_iff hX, read_plain fun c hc => ?_, finish_plain]
  obtain ⟨-, hspace, hsingle, hdouble, hslash, -⟩ := not_special_of_isNumberChar (h.chars c hc)
  exact ⟨hspace, hsingle, hdouble, hslash⟩

/-- A single quote ends at an escaped one: what is read so far is not how the value begins. -/
theorem klipperParams_single_ne (hX : ∀ c ∈ X, isWord c) {body : List Char}
    (h : Enclosed '\'' body) (hmem : '\'' ∈ body) (t : List Char) :
    klipperParams (X ++ '=' :: '\'' :: (body ++ t)) ≠ some [(X, unescape E body)] := by
  obtain ⟨a, b, rfl, ha⟩ := List.eq_append_cons_of_mem hmem
  rw [Ne, klipperParams_iff hX]
  intro hread
  have hopen : step ⟨[], some (X ++ ['=']), .plain⟩ '\'' = ⟨[], some (X ++ ['=']), .single⟩ := by
    simp [step, push, isSpace]
  rw [read_cons, hopen, List.append_assoc, read_append, read_single ha] at hread
  have hbegins : Begins ⟨[], some (X ++ ['='] ++ a), .single⟩ (X ++ ['='] ++ a) :=
    ⟨[], [], by simp [sofar]⟩
  have hpre := (List.prefix_append_right_inj _).mp (hbegins.finish_read hread)
  have hquote := quote_mem_take_unescape E h rfl
  rw [← List.prefix_iff_eq_take.mp hpre] at hquote
  exact ha hquote

variable {q : Char} {body : List Char} (hq : isQuote q) (h : Enclosed q body)
include hX hq h

/-- A text that is closed behind the literal has its value where the readers agree. -/
theorem klipperParams_quoted_iff :
    klipperParams (X ++ '=' :: q :: (body ++ [q])) = some [(X, unescape E body)] ↔
      Agrees E (quoteEscapes q) body := by
  by_cases hsingle : q = '\'' → '\'' ∉ body
  · rw [klipperParams_iff hX, read_quoted hq h hsingle, finish_plain, Option.some_inj,
      List.cons_eq_cons, and_iff_left rfl, List.append_cancel_left_eq, eq_comm,
      unescape_eq_resolve_iff E (quoteEscapes_isEscape q) h]
  · push Not at hsingle
    obtain ⟨rfl, hmem⟩ := hsingle
    exact ⟨fun hread => absurd hread (klipperParams_single_ne hX h hmem _),
      fun hagrees => absurd hmem (not_mem_of_agrees h hagrees)⟩

/-- A text that goes on behind the literal has another value. -/
theorem klipperParams_longer (t : List Char) :
    klipperParams (X ++ '=' :: q :: (body ++ q :: ')' :: t)) ≠ some [(X, unescape E body)] := by
  by_cases hsingle : q = '\'' → '\'' ∉ body
  · rw [Ne, klipperParams_iff hX]
    intro hread
    have htext : q :: (body ++ q :: ')' :: t) = (q :: (body ++ [q])) ++ ')' :: t := by simp
    have hstep (w : List Char) : step ⟨[], some w, .plain⟩ ')' = ⟨[], some (w ++ [')']), .plain⟩ := by
      simp [step, push, isSpace]
    rw [htext, read_append, read_quoted hq h hsingle, read_cons, hstep, List.append_assoc] at hread
    have hbegins (w : List Char) : Begins ⟨[], some w, .plain⟩ w := ⟨[], [], by simp [sofar]⟩
    have hpre := (List.prefix_append_right_inj _).mp ((hbegins _).finish_read hread)
    have hlen := hpre.length_le
    have hle := length_unescape_le E (quoteEscapes_isEscape q) body
    rw [List.length_append, List.length_singleton] at hlen
    omega
  · push Not at hsingle
    obtain ⟨rfl, hmem⟩ := hsingle
    exact klipperParams_single_ne hX h hmem _

end Sent

/-- What is sent for a literal directly behind a parameter has its value where nothing more is
taken along and the readers agree on it. -/
theorem klipperParams_literal_iff (E : Escapes) {X : List Char} (hX : ∀ c ∈ X, isWord c)
    {L : Literal} (hL : Printable L) (b : List Char) :
    klipperParams (X ++ '=' :: cut (L.text ++ extra L b)) = some [(X, L.value E)] ↔
      Clean E L b := by
  rw [cut_literal hL]
  cases L with
  | number n h =>
    rw [extra, cut, List.takeWhile_nil, List.append_nil]
    exact iff_of_true (klipperParams_number hX h) trivial
  | quoted q body hq h =>
    rw [Clean, extra]
    cases hclose : closing q (')' :: b) with
    | none =>
      rw [Option.getD_none, cut, List.takeWhile_nil, List.append_nil, and_iff_right rfl]
      exact klipperParams_quoted_iff hX hq h
    | some u =>
      obtain ⟨u', rfl⟩ := closing_cons hclose
      have htext : (Literal.quoted q body hq h).text ++ cut (')' :: u') =
          q :: (body ++ q :: ')' :: cut u') := by
        simp [Literal.text, cut]
      rw [Option.getD_some, htext]
      exact iff_of_false (klipperParams_longer hX hq h _) fun hc => by cases hc.1

end PowerScreen.Macros
