import PowerScreen.Console.Panel
import PowerScreen.Library.Run

/-! # The command history

A command that is sent is recorded in front of the one before it, one entry makes way for it, and
the list goes to the database. Nothing is recorded as long as the history is empty, and one entry
less is not enough for a list that came too long.
-/
namespace PowerScreen.Console
open Library Library.Run

inductive Event where
  | send (cmd : String)
  | reload (history : Option (List String))

/-- The panel, the list that was last loaded, how many entries at the front were recorded since,
and the list that was last posted. -/
structure Session where
  panel : Panel
  loaded : List String
  recorded : ℕ
  posted : Option (List String)

def Session.new : Session := ⟨Panel.new, [], 0, none⟩

def Request.posted : Request → Option (List String)
  | .script _ => none
  | .postItem history => some history

/-- What the state holds as the history of the database. -/
def stored : Option (List String) → Json
  | none => .null
  | some history => .arr (history.map .str)

def Session.step (s : Session) : Event → Session
  | .send cmd =>
    let sent := s.panel.ready cmd
    { s with
      panel := sent.1
      recorded := min (s.recorded + (sent.2.filterMap Request.posted).length)
        sent.1.history.length
      posted := (sent.2.filterMap Request.posted).getLast?.or s.posted }
  | .reload history =>
    { s with
      panel := (s.panel.handleMacros (stored history) .null).getD s.panel
      loaded := history.getD s.loaded
      recorded := if history.isSome then 0 else s.recorded }

/-- After a command is sent. -/
structure Recorded (s s' : Session) (cmd : String) : Prop where
  front : s'.panel.history.head? = some cmd
  distinct : (s'.panel.history.take s'.recorded).IsChain (· ≠ ·)
  short : s'.panel.history.length ≤ 20
  saved : s'.panel.history ≠ s.panel.history → s'.posted = some s'.panel.history

def KeepsHistory (s : Session) : Event → Prop
  | .send cmd => cmd ≠ "" → Recorded s (s.step (.send cmd)) cmd
  | .reload _ => True

/-- The list that was last loaded is neither empty nor longer than twenty entries. -/
def LoadedFits (s : Session) : Event → Prop
  | .send cmd => cmd ≠ "" → s.loaded ≠ [] ∧ s.loaded.length ≤ 20
  | .reload _ => True

theorem readStrings_stored (history : List String) :
    readStrings (stored (some history)) = some history := by
  rw [stored, readStrings]
  induction history with
  | nil => rfl
  | cons h hs ih =>
    rw [List.map_cons, List.mapM_cons, ih]
    rfl

theorem history_reload (s : Session) (history : Option (List String)) :
    (s.step (.reload history)).panel.history = history.getD s.panel.history := by
  cases history with
  | none => rfl
  | some history =>
    rw [Session.step, Panel.handleMacros, if_neg Json.noConfusion, readStrings_stored]
    rfl

/-- What stays of a history that gets a new entry. -/
def kept (history : List String) : List String :=
  if 20 ≤ history.length then history.dropLast else history

theorem length_kept (history : List String) : (kept history).length =
    if 20 ≤ history.length then history.length - 1 else history.length := by
  rw [kept]
  split_ifs
  · rw [List.length_dropLast]
  · rfl

theorem kept_eq_take (history : List String) : kept history = history.take (kept history).length := by
  rw [kept]
  split_ifs
  · rw [List.length_dropLast, List.dropLast_eq_take]
  · rw [List.take_length]

/-- What a command that is sent does to the history, and what it posts. -/
theorem ready_cases {cmd : String} (hcmd : cmd ≠ "") (p : Panel) :
    (p.history = [] ∧ (p.ready cmd).1.history = [] ∧
      (p.ready cmd).2.filterMap Request.posted = []) ∨
    (p.history.head? = some cmd ∧ (p.ready cmd).1.history = p.history ∧
      (p.ready cmd).2.filterMap Request.posted = []) ∨
    ∃ front, p.history.head? = some front ∧ front ≠ cmd ∧
      (p.ready cmd).1.history = cmd :: kept p.history ∧
      (p.ready cmd).2.filterMap Request.posted = [cmd :: kept p.history] := by
  obtain ⟨history, macros, lines⟩ := p
  rw [Panel.ready, if_neg hcmd]
  cases history with
  | nil => exact Or.inl ⟨rfl, rfl, rfl⟩
  | cons front rest =>
    right
    rw [Panel.record, Panel.appendLog]
    dsimp only
    by_cases hfront : front = cmd
    · rw [if_neg (not_not.mpr hfront)]
      exact Or.inl ⟨congrArg some hfront, rfl, rfl⟩
    · rw [if_pos hfront]
      exact Or.inr ⟨front, rfl, hfront, rfl, rfl⟩

theorem distinct_push {history : List String} {front cmd : String} {r : ℕ}
    (hfront : history.head? = some front) (hne : front ≠ cmd)
    (hchain : (history.take r).IsChain (· ≠ ·)) (m : ℕ) :
    ((cmd :: kept history).take (min (r + 1) m)).IsChain (· ≠ ·) := by
  rw [kept_eq_take]
  cases m with
  | zero => exact List.isChain_nil
  | succ m =>
    have hmin : min (min r m) (kept history).length = min (min m (kept history).length) r := by
      omega
    rw [Nat.add_min_add_right, List.take_succ_cons, List.take_take, hmin, ← List.take_take]
    refine List.isChain_cons.mpr ⟨fun y hy => ?_, hchain.take _⟩
    rw [List.head?_take, List.head?_take] at hy
    split_ifs at hy
    · cases hy
    · cases hy
    · rw [hfront] at hy
      cases hy
      exact Ne.symm hne

/-- The history is empty, or too long, exactly if the one last loaded was. -/
structure Inv (s : Session) : Prop where
  empty : s.panel.history = [] ↔ s.loaded = []
  long : 20 < s.panel.history.length ↔ 20 < s.loaded.length
  distinct : (s.panel.history.take s.recorded).IsChain (· ≠ ·)

theorem inv_send {s : Session} (hs : Inv s) {cmd : String} (hcmd : cmd ≠ "") :
    Inv (s.step (.send cmd)) := by
  rcases ready_cases hcmd s.panel with ⟨hnil, hnil', hposts⟩ | ⟨-, hsame, hposts⟩ |
    ⟨front, hfront, hne, hpush, hposts⟩
  · refine ⟨?_, ?_, ?_⟩
    · rw [Session.step, hnil', ← hs.empty, hnil]
    · rw [Session.step, hnil', ← hs.long, hnil]
    · rw [Session.step, hnil', List.take_nil]
      exact List.isChain_nil
  · refine ⟨?_, ?_, ?_⟩
    · rw [Session.step, hsame]
      exact hs.empty
    · rw [Session.step, hsame]
      exact hs.long
    · rw [Session.step, hsame, hposts, List.length_nil, Nat.add_zero, min_comm, ← List.take_take]
      exact hs.distinct.take _
  · have hfull : s.panel.history ≠ [] := by
      intro hnil
      rw [hnil] at hfront
      cases hfront
    have hpos := List.length_pos_of_ne_nil hfull
    refine ⟨?_, ?_, ?_⟩
    · rw [Session.step, hpush]
      exact iff_of_false (List.cons_ne_nil _ _) fun h => hfull (hs.empty.mpr h)
    · rw [Session.step, hpush, List.length_cons, length_kept, ← hs.long]
      split_ifs <;> omega
    · rw [Session.step, hpush, hposts]
      exact distinct_push hfront hne hs.distinct _

theorem inv_step {s : Session} (hs : Inv s) (e : Event) : Inv (s.step e) := by
  cases e with
  | send cmd =>
    by_cases hcmd : cmd = ""
    · subst hcmd
      have hsame : (s.step (.send "")).panel.history = s.panel.history := rfl
      refine ⟨hs.empty, hs.long, ?_⟩
      rw [hsame, Session.step, Panel.ready, if_pos rfl, List.filterMap_nil, List.length_nil,
        Nat.add_zero, min_comm, ← List.take_take]
      exact hs.distinct.take _
    · exact inv_send hs hcmd
  | reload history =>
    have hhistory := history_reload s history
    cases history with
    | none =>
      refine ⟨?_, ?_, ?_⟩
      · rw [hhistory]
        exact hs.empty
      · rw [hhistory]
        exact hs.long
      · rw [hhistory]
        exact hs.distinct
    | some history =>
      refine ⟨?_, ?_, ?_⟩
      · rw [hhistory]
        exact Iff.rfl
      · rw [hhistory]
        exact Iff.rfl
      · exact List.isChain_nil

theorem keepsHistory_iff {s : Session} (hs : Inv s) (e : Event) :
    KeepsHistory s e ↔ LoadedFits s e := by
  cases e with
  | reload history => exact Iff.rfl
  | send cmd =>
    refine imp_congr_right fun hcmd => ?_
    have hinv := inv_send hs hcmd
    constructor
    · intro h
      refine ⟨fun hloaded => ?_, ?_⟩
      · have hnil := hinv.empty.mpr hloaded
        have hfront := h.front
        rw [hnil] at hfront
        cases hfront
      · exact not_lt.mp fun hlong => absurd h.short (not_le.mpr (hinv.long.mpr hlong))
    · rintro ⟨hloaded, hshort⟩
      have hshort' : (s.step (.send cmd)).panel.history.length ≤ 20 :=
        not_lt.mp fun hlong => absurd hshort (not_le.mpr (hinv.long.mp hlong))
      rcases ready_cases hcmd s.panel with ⟨hnil, -, -⟩ | ⟨hfront, hsame, -⟩ |
        ⟨front, -, -, hpush, hposts⟩
      · exact absurd (hs.empty.mp hnil) hloaded
      · exact ⟨(congrArg List.head? hsame).trans hfront, hinv.distinct, hshort',
          fun hne => absurd hsame hne⟩
      · have hhead : (s.step (.send cmd)).panel.history.head? = some cmd :=
          congrArg List.head? hpush
        refine ⟨hhead, hinv.distinct, hshort', fun _ => ?_⟩
        rw [Session.step, hposts, hpush]
        rfl

/-- From an empty panel, for every run of commands and of histories that are loaded. -/
theorem history_kept_iff (es : List Event) :
    EachStep Session.step KeepsHistory Session.new es ↔
      EachStep Session.step LoadedFits Session.new es :=
  eachStep_iff_of_invariant (I := Inv) (fun _ e hs => keepsHistory_iff hs e)
    (fun _ e hs _ => inv_step hs e) ⟨Iff.rfl, Iff.rfl, List.isChain_nil⟩ es

/-- On an empty history the first command is not recorded. -/
theorem first_command_not_recorded :
    ¬ EachStep Session.step KeepsHistory Session.new [.reload (some []), .send "G28"] := by
  rintro ⟨-, hsend, -⟩
  exact absurd (hsend (by decide)).front (by decide)

end PowerScreen.Console
