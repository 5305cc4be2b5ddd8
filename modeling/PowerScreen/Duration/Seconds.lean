import PowerScreen.Duration.Eta

/-! # Durations without their seconds -/
namespace PowerScreen.Duration
open Library.Decimal

/-- What stands before the last blank of a text. -/
def beforeLastBlank (text : List Char) : Option (List Char) :=
  match text.reverse.dropWhile (· ≠ ' ') with
  | [] => none
  | _ :: front => some front.reverse

/-- The rule of the print status. -/
def withoutSeconds (text : List Char) : List Char :=
  match beforeLastBlank text with
  | none => text
  | some front =>
    if text.getLast? = some 's' ∧ ('h' ∈ text ∨ 'm' ∈ text) then front else text

/-- The rule of `update_file_card`. -/
def withoutSecondsOnCard (text : List Char) : List Char :=
  match beforeLastBlank text with
  | none => text
  | some front => if text.getLast? = some 's' ∧ 'm' ∈ text then front else text

/-- The two rules give the same text, and it has no seconds from one minute on. -/
def RulesAgree (d : ℕ) : Prop :=
  withoutSeconds (etaString d) = withoutSecondsOnCard (etaString d) ∧
    ('s' ∉ withoutSeconds (etaString d) ↔ 60 ≤ d)

theorem beforeLastBlank_append (front : List Char) {last : List Char} (hlast : ' ' ∉ last) :
    beforeLastBlank (front ++ ' ' :: last) = some front := by
  have hdrop : (front ++ ' ' :: last).reverse.dropWhile (· ≠ ' ') = ' ' :: front.reverse := by
    rw [List.reverse_append, List.reverse_cons, List.append_assoc,
      List.dropWhile_append_of_pos (fun c hc => by
        have hne : c ≠ ' ' := fun h => hlast (h ▸ List.mem_reverse.mp hc)
        exact decide_eq_true hne)]
    rfl
  rw [beforeLastBlank, hdrop]
  exact congrArg some (List.reverse_reverse front)

/-- A text without the letters of hours and minutes stays. -/
theorem withoutSeconds_of_notMem {text : List Char} (hh : 'h' ∉ text) (hm : 'm' ∉ text) :
    withoutSeconds text = text ∧ withoutSecondsOnCard text = text := by
  rw [withoutSeconds, withoutSecondsOnCard]
  cases beforeLastBlank text with
  | none => exact ⟨rfl, rfl⟩
  | some front => exact ⟨if_neg fun h => h.2.elim hh hm, if_neg fun h => hm h.2⟩

theorem mem_part {n : ℕ} {letter c : Char} (h : c ∈ part n letter) :
    c.isDigit ∨ c = letter ∨ c = ' ' := by
  rw [part] at h
  split_ifs at h with hn
  · rcases List.mem_append.mp h with hdigit | hunit
    · exact .inl (isDigit_of_mem_toDigits hdigit)
    · exact .inr (by simpa using hunit)
  · exact absurd h List.not_mem_nil

/-- The seconds of a duration, with their letter. -/
def secondsPart (d : ℕ) : List Char := Nat.toDigits 10 (gmtime d).sec ++ ['s']

theorem mem_secondsPart {d : ℕ} {c : Char} (h : c ∈ secondsPart d) : c.isDigit ∨ c = 's' := by
  rcases List.mem_append.mp h with hdigit | hunit
  · exact .inl (isDigit_of_mem_toDigits hdigit)
  · exact .inr (List.mem_singleton.mp hunit)

theorem blank_notMem_secondsPart (d : ℕ) : ' ' ∉ secondsPart d := fun h => by
  rcases mem_secondsPart h with hdigit | hs
  · exact absurd hdigit (by decide)
  · exact absurd hs (by decide)

theorem getLast?_blank_secondsPart (d : ℕ) : (' ' :: secondsPart d).getLast? = some 's' := by
  rw [secondsPart, ← List.cons_append, List.getLast?_concat]

/-- What the two rules make of a text that ends in seconds. -/
theorem rules_append (front : List Char) (d : ℕ) :
    withoutSeconds (front ++ ' ' :: secondsPart d) =
        (if 'h' ∈ front ++ ' ' :: secondsPart d ∨ 'm' ∈ front ++ ' ' :: secondsPart d then front
        else front ++ ' ' :: secondsPart d) ∧
      withoutSecondsOnCard (front ++ ' ' :: secondsPart d) =
        if 'm' ∈ front ++ ' ' :: secondsPart d then front else front ++ ' ' :: secondsPart d := by
  have hend : (front ++ ' ' :: secondsPart d).getLast? = some 's' := by
    rw [List.getLast?_append, getLast?_blank_secondsPart, Option.some_or]
  have hfront := beforeLastBlank_append front (blank_notMem_secondsPart d)
  constructor
  · simp only [withoutSeconds, hfront, hend, true_and]
  · simp only [withoutSecondsOnCard, hfront, hend, true_and]

/-- With minutes both rules cut the seconds off. -/
theorem rules_of_minutes {d : ℕ} (hmin : (gmtime d).min ≠ 0) :
    withoutSeconds (etaString d) = part (gmtime d).yday 'd' ++ (part (gmtime d).hour 'h' ++
      (Nat.toDigits 10 (gmtime d).min ++ ['m'])) ∧
    withoutSecondsOnCard (etaString d) = withoutSeconds (etaString d) := by
  let front := part (gmtime d).yday 'd' ++ (part (gmtime d).hour 'h' ++
    (Nat.toDigits 10 (gmtime d).min ++ ['m']))
  have heta : etaString d = front ++ ' ' :: secondsPart d := by
    have hpart : part (gmtime d).min 'm' = Nat.toDigits 10 (gmtime d).min ++ ['m', ' '] :=
      if_pos (Nat.pos_of_ne_zero hmin)
    simp [front, etaString, hpart, secondsPart]
  have hm : 'm' ∈ front ++ ' ' :: secondsPart d := by simp [front]
  obtain ⟨hwithout, hcard⟩ := rules_append front d
  rw [if_pos (.inr hm)] at hwithout
  rw [if_pos hm] at hcard
  rw [heta, hwithout, hcard]
  exact ⟨rfl, rfl⟩

/-- With hours and no minutes only the rule of the print status cuts them off. -/
theorem rules_of_hours {d : ℕ} (hmin : (gmtime d).min = 0) (hhour : (gmtime d).hour ≠ 0) :
    withoutSeconds (etaString d) =
      part (gmtime d).yday 'd' ++ (Nat.toDigits 10 (gmtime d).hour ++ ['h']) ∧
    withoutSecondsOnCard (etaString d) = withoutSeconds (etaString d) ++ ' ' :: secondsPart d := by
  let front := part (gmtime d).yday 'd' ++ (Nat.toDigits 10 (gmtime d).hour ++ ['h'])
  have heta : etaString d = front ++ ' ' :: secondsPart d := by
    have hpart : part (gmtime d).hour 'h' = Nat.toDigits 10 (gmtime d).hour ++ ['h', ' '] :=
      if_pos (Nat.pos_of_ne_zero hhour)
    have hnone : part (gmtime d).min 'm' = [] := if_neg (by omega)
    simp [front, etaString, hpart, hnone, secondsPart]
  have hh : 'h' ∈ front ++ ' ' :: secondsPart d := by simp [front]
  have hm : 'm' ∉ front ++ ' ' :: secondsPart d := by
    simp only [front, List.mem_append, List.mem_cons, not_or]
    exact ⟨⟨fun h => absurd (mem_part h) (by decide),
      fun h => absurd (isDigit_of_mem_toDigits h) (by decide), by decide⟩, by decide,
      fun h => absurd (mem_secondsPart h) (by decide)⟩
  obtain ⟨hwithout, hcard⟩ := rules_append front d
  rw [if_pos (.inl hh)] at hwithout
  rw [if_neg hm] at hcard
  rw [heta, hwithout, hcard]
  exact ⟨rfl, rfl⟩

/-- Without hours and minutes both keep them. -/
theorem rules_of_none {d : ℕ} (hmin : (gmtime d).min = 0) (hhour : (gmtime d).hour = 0) :
    withoutSeconds (etaString d) = etaString d ∧ withoutSecondsOnCard (etaString d) = etaString d := by
  have heta : etaString d = part (gmtime d).yday 'd' ++ secondsPart d := by
    have hnone (letter : Char) : part 0 letter = [] := rfl
    simp [etaString, hmin, hhour, hnone, secondsPart]
  have hletter {c : Char} (hdigit : ¬ c.isDigit) (hd : c ≠ 'd') (hblank : c ≠ ' ') (hs : c ≠ 's') :
      c ∉ etaString d := by
    rw [heta, List.mem_append, not_or]
    exact ⟨fun h => (mem_part h).elim hdigit fun h => h.elim hd hblank,
      fun h => (mem_secondsPart h).elim hdigit hs⟩
  exact withoutSeconds_of_notMem
    (hletter (c := 'h') (by decide) (by decide) (by decide) (by decide))
    (hletter (c := 'm') (by decide) (by decide) (by decide) (by decide))

theorem rulesAgree_of_minutes {d : ℕ} (hmin : (gmtime d).min ≠ 0) : RulesAgree d := by
  obtain ⟨hwithout, hcard⟩ := rules_of_minutes hmin
  have hs : 's' ∉ withoutSeconds (etaString d) := by
    simp only [hwithout, List.mem_append, not_or]
    exact ⟨fun h => absurd (mem_part h) (by decide), fun h => absurd (mem_part h) (by decide),
      fun h => absurd (isDigit_of_mem_toDigits h) (by decide), by decide⟩
  have hlong : 60 ≤ d := by
    simp only [gmtime] at hmin
    omega
  exact ⟨hcard.symm, iff_of_true hs hlong⟩

theorem not_rulesAgree_of_hours {d : ℕ} (hmin : (gmtime d).min = 0) (hhour : (gmtime d).hour ≠ 0) :
    ¬ RulesAgree d := by
  rintro ⟨hsame, -⟩
  rw [(rules_of_hours hmin hhour).2, List.self_eq_append_right] at hsame
  exact absurd hsame (List.cons_ne_nil _ _)

theorem rulesAgree_iff_of_none {d : ℕ} (hmin : (gmtime d).min = 0) (hhour : (gmtime d).hour = 0) :
    RulesAgree d ↔ d < 60 := by
  obtain ⟨hwithout, hcard⟩ := rules_of_none hmin hhour
  have hs : 's' ∈ etaString d := by simp [etaString]
  rw [RulesAgree, hwithout, hcard]
  constructor
  · rintro ⟨-, homits⟩
    exact Nat.lt_of_not_le fun hlong => homits.mpr hlong hs
  · intro hshort
    exact ⟨rfl, iff_of_false (not_not_intro hs) (by omega)⟩

theorem rulesAgree_iff (d : ℕ) : RulesAgree d ↔ d < 60 ∨ d % 3600 / 60 ≠ 0 := by
  have hmin : (gmtime d).min = d % 3600 / 60 := rfl
  have hhour : (gmtime d).hour = d % 86400 / 3600 := rfl
  by_cases hminutes : (gmtime d).min = 0
  · by_cases hhours : (gmtime d).hour = 0
    · rw [rulesAgree_iff_of_none hminutes hhours]
      omega
    · exact iff_of_false (not_rulesAgree_of_hours hminutes hhours) (by omega)
  · exact iff_of_true (rulesAgree_of_minutes hminutes) (.inr (hmin ▸ hminutes))

/-- An hour and five seconds: `1h` in the one place, `1h 5s` in the other. -/
theorem full_hour_differs : ¬ RulesAgree 3605 := by
  have heta : etaString 3605 = ['1', 'h', ' ', '5', 's'] := by
    have hday : dayOfYear 0 1970 = 0 := by rw [dayOfYear, if_pos (by decide)]
    have hone : Nat.toDigits 10 1 = ['1'] := rfl
    have hfive : Nat.toDigits 10 5 = ['5'] := rfl
    simp [etaString, gmtime, hday, part, hone, hfive]
  rintro ⟨hsame, -⟩
  rw [heta] at hsame
  exact absurd hsame (by decide)

end PowerScreen.Duration
