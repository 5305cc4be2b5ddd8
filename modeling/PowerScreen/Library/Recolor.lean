import Mathlib.Data.List.Infix

/-! # Recolouring text

The commands of a label whose text may change its colour: `#` begins a parameter that ends at a
blank, the text behind it has the parameter's colour until the next `#`, and a `#` inside a
parameter prints itself instead.
-/
namespace PowerScreen.Library.Recolor

def hexDigit (c : Char) : ℕ :=
  if '0' ≤ c ∧ c ≤ '9' then c.toNat - '0'.toNat
  else if 'a' ≤ c ∧ c ≤ 'f' then c.toNat - 'a'.toNat + 10
  else if 'A' ≤ c ∧ c ≤ 'F' then c.toNat - 'A'.toNat + 10
  else 0

def hexColour (cs : List Char) : ℕ := cs.foldl (fun n c => 16 * n + hexDigit c) 0

/-- A parameter of six letters is a colour, any other one stands for the label's own. -/
def paramColour (base : ℕ) (param : List Char) : ℕ :=
  if param.length = 6 then hexColour param else base

inductive Mode where
  | wait
  | par (param : List Char)
  | run (colour : ℕ)

/-- What is shown, each letter with its colour. -/
def display (base : ℕ) : Mode → List Char → List (Char × ℕ)
  | _, [] => []
  | .wait, c :: cs =>
    if c = '#' then display base (.par []) cs else (c, base) :: display base .wait cs
  | .par param, c :: cs =>
    if c = '#' then (c, base) :: display base .wait cs
    else if c = ' ' then display base (.run (paramColour base param)) cs
    else display base (.par (param ++ [c])) cs
  | .run colour, c :: cs =>
    if c = '#' then display base .wait cs else (c, colour) :: display base (.run colour) cs

/-- `#` twice. -/
def escape (cs : List Char) : List Char := cs.flatMap fun c => if c = '#' then ['#', '#'] else [c]

/-- What is shown of an escaped text inside a coloured run, up to the `#` that closes it. -/
def shown (base : ℕ) : Mode → List Char → List (Char × ℕ)
  | .par _, [] => [('#', base)]
  | _, [] => []
  | .par param, c :: cs =>
    if c = '#' then (c, base) :: shown base (.par []) cs
    else if c = ' ' then shown base (.run (paramColour base param)) cs
    else shown base (.par (param ++ [c])) cs
  | .run colour, c :: cs =>
    if c = '#' then shown base (.par []) cs else (c, colour) :: shown base (.run colour) cs
  | .wait, _ :: _ => []

variable {base : ℕ}

theorem display_wait_cons (c : Char) (cs : List Char) : display base .wait (c :: cs) =
    if c = '#' then display base (.par []) cs else (c, base) :: display base .wait cs := rfl

theorem display_par_cons (param : List Char) (c : Char) (cs : List Char) :
    display base (.par param) (c :: cs) =
      if c = '#' then (c, base) :: display base .wait cs
      else if c = ' ' then display base (.run (paramColour base param)) cs
      else display base (.par (param ++ [c])) cs := rfl

theorem display_run_cons (colour : ℕ) (c : Char) (cs : List Char) :
    display base (.run colour) (c :: cs) =
      if c = '#' then display base .wait cs else (c, colour) :: display base (.run colour) cs :=
  rfl

theorem shown_par_cons (param : List Char) (c : Char) (cs : List Char) :
    shown base (.par param) (c :: cs) =
      if c = '#' then (c, base) :: shown base (.par []) cs
      else if c = ' ' then shown base (.run (paramColour base param)) cs
      else shown base (.par (param ++ [c])) cs := rfl

theorem shown_run_cons (colour : ℕ) (c : Char) (cs : List Char) :
    shown base (.run colour) (c :: cs) =
      if c = '#' then shown base (.par []) cs else (c, colour) :: shown base (.run colour) cs :=
  rfl

theorem escape_cons (c : Char) (cs : List Char) :
    escape (c :: cs) = (if c = '#' then ['#', '#'] else [c]) ++ escape cs := rfl

/-- Whatever the text, behind the closing `#` no command is open. -/
theorem display_escape (cs rest : List Char) : ∀ m : Mode, m ≠ .wait →
    display base m (escape cs ++ '#' :: rest) = shown base m cs ++ display base .wait rest := by
  induction cs with
  | nil =>
    intro m hm
    cases m with
    | wait => exact absurd rfl hm
    | par param => rfl
    | run colour => rfl
  | cons c cs ih =>
    intro m hm
    rw [escape_cons]
    cases m with
    | wait => exact absurd rfl hm
    | par param =>
      by_cases hc : c = '#'
      · subst hc
        exact congrArg (('#', base) :: ·) (ih (.par []) Mode.noConfusion)
      · rw [if_neg hc, List.cons_append, List.nil_append, List.cons_append, display_par_cons,
          if_neg hc, shown_par_cons, if_neg hc]
        split_ifs
        · exact ih _ Mode.noConfusion
        · exact ih _ Mode.noConfusion
    | run colour =>
      by_cases hc : c = '#'
      · subst hc
        exact ih (.par []) Mode.noConfusion
      · rw [if_neg hc, List.cons_append, List.nil_append, List.cons_append, display_run_cons,
          if_neg hc, shown_run_cons, if_neg hc, ih _ Mode.noConfusion]
        rfl

theorem display_param {param : List Char} (hmark : '#' ∉ param) (hblank : ' ' ∉ param)
    (read rest : List Char) : display base (.par read) (param ++ ' ' :: rest) =
      display base (.run (paramColour base (read ++ param))) rest := by
  induction param generalizing read with
  | nil => rw [List.append_nil]; rfl
  | cons c cs ih =>
    rw [List.mem_cons, not_or] at hmark hblank
    rw [List.cons_append, display_par_cons, if_neg (Ne.symm hmark.1),
      if_neg (Ne.symm hblank.1), ih hmark.2 hblank.2, List.append_assoc, List.singleton_append]

variable (base) in
/-- A coloured line. -/
theorem display_line {param : List Char} (hmark : '#' ∉ param) (hblank : ' ' ∉ param)
    (cs rest : List Char) :
    display base .wait ('#' :: (param ++ ' ' :: (escape cs ++ '#' :: '\n' :: rest))) =
      shown base (.run (paramColour base param)) cs ++
        ('\n', base) :: display base .wait rest := by
  rw [display_wait_cons, if_pos rfl, display_param hmark hblank, List.nil_append,
    display_escape _ _ _ Mode.noConfusion]
  rfl

theorem mem_of_mem_display {m : Mode} {cs : List Char} {x : Char × ℕ}
    (h : x ∈ display base m cs) : x.1 ∈ cs := by
  induction cs generalizing m with
  | nil => cases m <;> cases h
  | cons c cs ih =>
    cases m with
    | wait =>
      rw [display_wait_cons] at h
      split_ifs at h
      · exact List.mem_cons_of_mem _ (ih h)
      · rcases List.mem_cons.mp h with rfl | h
        · exact List.mem_cons_self
        · exact List.mem_cons_of_mem _ (ih h)
    | par param =>
      rw [display_par_cons] at h
      split_ifs at h
      · rcases List.mem_cons.mp h with rfl | h
        · exact List.mem_cons_self
        · exact List.mem_cons_of_mem _ (ih h)
      · exact List.mem_cons_of_mem _ (ih h)
      · exact List.mem_cons_of_mem _ (ih h)
    | run colour =>
      rw [display_run_cons] at h
      split_ifs at h
      · exact List.mem_cons_of_mem _ (ih h)
      · rcases List.mem_cons.mp h with rfl | h
        · exact List.mem_cons_self
        · exact List.mem_cons_of_mem _ (ih h)

/-- Nothing is shown twice: letters can only be lost, in a parameter the pending `#` aside. -/
theorem length_shown_le (cs : List Char) : (∀ k, (shown base (.run k) cs).length ≤ cs.length) ∧
    ∀ param, (shown base (.par param) cs).length ≤ cs.length + 1 := by
  induction cs with
  | nil => exact ⟨fun _ => le_rfl, fun _ => le_rfl⟩
  | cons c cs ih =>
    obtain ⟨hrun, hpar⟩ := ih
    constructor
    · intro k
      rw [shown_run_cons, List.length_cons]
      split_ifs
      · exact hpar []
      · exact Nat.succ_le_succ (hrun k)
    · intro param
      rw [shown_par_cons, List.length_cons]
      split_ifs
      · exact Nat.succ_le_succ (hpar [])
      · exact (hrun _).trans (Nat.le_add_right _ 2)
      · exact (hpar _).trans (Nat.le_succ _)

theorem eq_replicate_of_par {param cs : List Char}
    (h : (shown base (.par param) cs).length = cs.length + 1) :
    cs = List.replicate cs.length '#' := by
  induction cs generalizing param with
  | nil => rfl
  | cons c cs ih =>
    rw [shown_par_cons, List.length_cons] at h
    split_ifs at h with hc
    · rw [List.length_cons, List.replicate_succ, ← ih (Nat.succ_injective h), hc]
    · have hle : (shown base (.run (paramColour base param)) cs).length ≤ cs.length :=
        (length_shown_le cs).1 _
      omega
    · have hle : (shown base (.par (param ++ [c])) cs).length ≤ cs.length + 1 :=
        (length_shown_le cs).2 _
      omega

/-- Nothing is lost only if each `#` stands at the end. -/
theorem exists_of_length_shown {k : ℕ} {cs : List Char}
    (h : (shown base (.run k) cs).length = cs.length) :
    ∃ w n, cs = w ++ List.replicate n '#' ∧ '#' ∉ w := by
  induction cs with
  | nil => exact ⟨[], 0, rfl, List.not_mem_nil⟩
  | cons c cs ih =>
    rw [shown_run_cons, List.length_cons] at h
    split_ifs at h with hc
    · refine ⟨[], cs.length + 1, ?_, List.not_mem_nil⟩
      rw [List.nil_append, List.replicate_succ, ← eq_replicate_of_par h, hc]
    · obtain ⟨w, n, hcs, hw⟩ := ih (Nat.succ_injective h)
      exact ⟨c :: w, n, by rw [hcs]; rfl, List.not_mem_cons_of_ne_of_not_mem (Ne.symm hc) hw⟩

theorem shown_replicate (k n : ℕ) : shown base (.run k) (List.replicate n '#') =
    List.replicate n ('#', base) := by
  have hpar (n : ℕ) : shown base (.par []) (List.replicate n '#') =
      List.replicate (n + 1) ('#', base) := by
    induction n with
    | zero => rfl
    | succ n ih => exact congrArg (('#', base) :: ·) ih
  cases n with
  | zero => rfl
  | succ n => exact hpar n

theorem shown_append {w : List Char} (hw : '#' ∉ w) (k n : ℕ) :
    shown base (.run k) (w ++ List.replicate n '#') =
      w.map (·, k) ++ List.replicate n ('#', base) := by
  induction w with
  | nil => exact shown_replicate k n
  | cons c w ih =>
    rw [List.mem_cons, not_or] at hw
    rw [List.cons_append, shown_run_cons, if_neg (Ne.symm hw.1), ih hw.2]
    rfl

/-- A text is shown as it is and in one colour iff each `#` stands at the end, where it has the
label's own colour. -/
theorem shown_eq_iff (k : ℕ) (cs : List Char) : shown base (.run k) cs = cs.map (·, k) ↔
    ∃ w n, cs = w ++ List.replicate n '#' ∧ '#' ∉ w ∧ (n = 0 ∨ k = base) := by
  constructor
  · intro h
    have hlen : (shown base (.run k) cs).length = cs.length := by rw [h, List.length_map]
    obtain ⟨w, n, rfl, hw⟩ := exists_of_length_shown hlen
    rw [shown_append hw, List.map_append, List.append_cancel_left_eq, List.map_replicate] at h
    refine ⟨w, n, rfl, hw, ?_⟩
    cases n with
    | zero => exact Or.inl rfl
    | succ n =>
      rw [List.replicate_succ, List.replicate_succ, List.cons.injEq, Prod.mk.injEq] at h
      exact Or.inr h.1.2.symm
  · rintro ⟨w, n, rfl, hw, h⟩
    rw [shown_append hw, List.map_append, List.map_replicate]
    rcases h with rfl | rfl
    · rfl
    · rfl

/-- Pieces that are never longer than others make up the same list only one by one. -/
theorem flatMap_eq_iff {α β : Type*} {f g : α → List β} (h : ∀ x, (f x).length ≤ (g x).length)
    (xs : List α) : xs.flatMap f = xs.flatMap g ↔ ∀ x ∈ xs, f x = g x := by
  refine ⟨fun heq => ?_, List.flatMap_congr⟩
  have hlen (xs : List α) : (xs.flatMap f).length ≤ (xs.flatMap g).length := by
    induction xs with
    | nil => exact le_rfl
    | cons x xs ih =>
      rw [List.flatMap_cons, List.flatMap_cons, List.length_append, List.length_append]
      exact Nat.add_le_add (h x) ih
  induction xs with
  | nil => simp
  | cons x xs ih =>
    rw [List.flatMap_cons, List.flatMap_cons] at heq
    have hsum := congrArg List.length heq
    rw [List.length_append, List.length_append] at hsum
    have hx := h x
    have hxs := hlen xs
    obtain ⟨hhead, htail⟩ := List.append_inj heq (by omega)
    intro y hy
    rcases List.mem_cons.mp hy with rfl | hy
    · exact hhead
    · exact ih htail y hy

end PowerScreen.Library.Recolor
