import PowerScreen.PrintPanel.StartFlow

/-! # What becomes of a prepared print

Every attempt to print keeps a log of the requests it has made and of the reply to
its prepare script. The reply goes on to the start whatever it says, so the log is
as it should be as long as no script is answered with an error.
-/
namespace PowerScreen.PrintPanel
open Library Library.Run

inductive Happening where
  | sent (call : WebSocket.Call String)
  | replied (j : Json)

structure Attempt where
  file : String
  log : List Happening

/-- The panel and the attempts so far; `tags` numbers the scripts that wait. -/
structure Trace where
  panel : Panel
  attempts : List Attempt := []
  tags : List ℕ := []

def isError (j : Json) : Bool := j.contains "error"

/-- The file chosen when an event makes an attempt. -/
def Panel.chosen (p : Panel) : Event → Option String
  | .print => p.curFile
  | .printAgain file => some file
  | .start => p.dialog.map StartDialog.path
  | _ => none

/-- The requests an event makes. -/
def Panel.made (p : Panel) (e : Event) : List Happening :=
  ((p.step e).sent.drop p.sent.length).map fun m => .sent m.call

namespace Trace

/-- A request belongs to the attempt whose script is replied to, or to a new one. -/
def step (t : Trace) (e : Event) : Trace :=
  match e with
  | .reply i j => match t.tags[i]? with
    | some n => if t.panel.running then
        { panel := t.panel.step e
          attempts := t.attempts.modify n fun a =>
            { a with log := a.log ++ .replied j :: t.panel.made e }
          tags := t.tags.eraseIdx i }
      else t
    | none => { t with panel := t.panel.step e }
  | _ => match t.panel.chosen e, t.panel.made e with
    | some file, h :: hs =>
      { panel := t.panel.step e
        attempts := t.attempts ++ [⟨file, h :: hs⟩]
        tags := if t.panel.waiting.length < (t.panel.step e).waiting.length then
          t.tags ++ [t.attempts.length] else t.tags }
    | _, _ => { t with panel := t.panel.step e }

end Trace

namespace Trace

/-- The trace follows the panel. -/
theorem step_panel (t : Trace) (e : Event) : (t.step e).panel = t.panel.step e := by
  unfold step
  cases e with
  | reply i j =>
    dsimp only
    split
    · split_ifs with hrun
      · rfl
      · exact (if_neg hrun).symm
    · rfl
  | _ =>
    dsimp only
    split <;> rfl

theorem run_panel (t : Trace) (es : List Event) :
    (run step t es).panel = run Panel.step t.panel es :=
  run_map (f := panel) step_panel t es

end Trace

/-- Without a script the print is started; with one it is started once, after a reply
that is no error. -/
def Attempt.Proper (a : Attempt) : Prop :=
  a.log = [.sent (startRequest a.file)] ∨ ∃ script,
    a.log = [.sent (scriptRequest a.file script)] ∨ ∃ j,
      a.log = .sent (scriptRequest a.file script) :: .replied j ::
        if isError j then [] else [.sent (startRequest a.file)]

namespace Panel

/-- The event makes no request. -/
structure Quiet (p q : Panel) : Prop where
  sent : q.sent = p.sent
  waiting : q.waiting = p.waiting

/-- The print of a file is started, or its script is sent and waits for the reply. -/
def Attempts (p q : Panel) (path : String) : Prop :=
  (∃ st, q.sent = p.sent ++ [⟨startRequest path, st⟩]) ∧ q.waiting = p.waiting ∨
    ∃ script, (∃ st, q.sent = p.sent ++ [⟨scriptRequest path script, st⟩]) ∧
      q.waiting = p.waiting ++ [path]

theorem attempts_startPrintNow (p : Panel) (path script : String) :
    p.Attempts (p.startPrintNow path script) path := by
  unfold startPrintNow
  split_ifs
  · exact Or.inl ⟨⟨_, rfl⟩, rfl⟩
  · exact Or.inr ⟨script, ⟨_, rfl⟩, rfl⟩

theorem quiet_or_attempts_beginPrintFlow (p : Panel) (path : String) :
    p.Quiet (p.beginPrintFlow path) ∨ p.Attempts (p.beginPrintFlow path) path := by
  unfold beginPrintFlow
  dsimp only
  split_ifs
  · exact Or.inr (p.attempts_startPrintNow path "")
  all_goals exact Or.inl ⟨rfl, rfl⟩

/-- What an event other than a reply can do. -/
theorem step_cases (p : Panel) (e : Event) (h : ∀ i j, e ≠ .reply i j) :
    p.Quiet (p.step e) ∨ ∃ path, p.chosen e = some path ∧ p.Attempts (p.step e) path := by
  have hsame : p.Quiet p := ⟨rfl, rfl⟩
  unfold step
  by_cases hrun : p.running
  · rw [if_pos hrun]
    cases e with
    | reply i j => exact absurd rfl (h i j)
    | print =>
      dsimp only
      split_ifs
      · unfold handlePrintCallback
        cases hfile : p.curFile with
        | none => exact Or.inl hsame
        | some path =>
          cases hst : p.state.printState with
          | str st =>
            dsimp only
            split_ifs
            · exact (p.quiet_or_attempts_beginPrintFlow path).imp_right
                fun ha => ⟨path, hfile, ha⟩
            · exact Or.inl ⟨rfl, rfl⟩
          | _ => exact Or.inl ⟨rfl, rfl⟩
      · exact Or.inl hsame
    | printAgain file =>
      dsimp only
      split_ifs
      · unfold handleAction
        split_ifs
        · exact Or.inl hsame
        · exact (p.quiet_or_attempts_beginPrintFlow file).imp_right fun ha => ⟨file, rfl, ha⟩
      · exact Or.inl hsame
    | closePrompt =>
      dsimp only [closePrompt]
      split_ifs <;> exact Or.inl ⟨rfl, rfl⟩
    | start =>
      dsimp only [startDialogEvent]
      cases hd : p.dialog with
      | none => exact Or.inl hsame
      | some d =>
        exact Or.inr ⟨d.path, by rw [chosen, hd]; rfl,
          attempts_startPrintNow { p with dialog := none } d.path d.script⟩
    | _ => exact Or.inl ⟨rfl, rfl⟩
  · rw [if_neg hrun]
    exact Or.inl hsame

theorem Quiet.made {p : Panel} {e : Event} (h : p.Quiet (p.step e)) : p.made e = [] := by
  rw [Panel.made, h.sent, List.drop_length, List.map_nil]

theorem made_eq {p : Panel} {e : Event} {ms : List Sent} (h : (p.step e).sent = p.sent ++ ms) :
    p.made e = ms.map fun m => .sent m.call := by
  rw [made, h, List.drop_left]

theorem step_reply {p : Panel} {i : ℕ} {path : String} (hrun : p.running = true)
    (hw : p.waiting[i]? = some path) (j : Json) :
    (∃ st, (p.step (.reply i j)).sent = p.sent ++ [⟨startRequest path, st⟩]) ∧
      (p.step (.reply i j)).waiting = p.waiting.eraseIdx i := by
  rw [step, if_pos hrun]
  dsimp only [scriptReply]
  rw [hw]
  exact ⟨⟨_, rfl⟩, rfl⟩

theorem step_reply_none {p : Panel} {i : ℕ} (hw : p.waiting[i]? = none) (j : Json) :
    p.step (.reply i j) = p := by
  unfold step
  dsimp only [scriptReply]
  rw [hw]
  exact ite_self p

end Panel

namespace Trace

/-- The scripts that wait are those of attempts that have done nothing else. -/
structure Linked (t : Trace) : Prop where
  length : t.tags.length = t.panel.waiting.length
  nodup : t.tags.Nodup
  waits : ∀ i n : ℕ, t.tags[i]? = some n → ∃ path script, t.panel.waiting[i]? = some path ∧
    t.attempts[n]? = some (Attempt.mk path [.sent (scriptRequest path script)])

/-- Every attempt has done what it should. -/
def Prepared (t : Trace) : Prop := ∀ a ∈ t.attempts, a.Proper

/-- A prepare script is not answered with an error. -/
def Answered (t : Trace) : Event → Prop
  | .reply i j => t.panel.running → i < t.panel.waiting.length → isError j = false
  | _ => True

theorem answered_of_ne {t : Trace} {e : Event} (h : ∀ i j, e ≠ .reply i j) : t.Answered e := by
  cases e with
  | reply i j => exact absurd rfl (h i j)
  | _ => trivial

theorem step_quiet {t : Trace} {e : Event} (h : ∀ i j, e ≠ .reply i j)
    (hm : t.panel.made e = []) : t.step e = { t with panel := t.panel.step e } := by
  unfold step
  cases e with
  | reply i j => exact absurd rfl (h i j)
  | _ =>
    dsimp only
    rw [hm]
    split <;> first | rfl | contradiction

theorem step_attempt {t : Trace} {e : Event} {path : String} {x : Happening}
    (h : ∀ i j, e ≠ .reply i j) (hc : t.panel.chosen e = some path)
    (hm : t.panel.made e = [x]) : t.step e =
      { panel := t.panel.step e
        attempts := t.attempts ++ [⟨path, [x]⟩]
        tags := if t.panel.waiting.length < (t.panel.step e).waiting.length then
          t.tags ++ [t.attempts.length] else t.tags } := by
  unfold step
  cases e with
  | reply i j => exact absurd rfl (h i j)
  | _ =>
    dsimp only
    rw [hc, hm]

theorem step_reply {t : Trace} {i n : ℕ} {path : String} (hrun : t.panel.running = true)
    (ht : t.tags[i]? = some n) (hw : t.panel.waiting[i]? = some path) (j : Json) :
    t.step (.reply i j) =
      { panel := t.panel.step (.reply i j)
        attempts := t.attempts.modify n fun a =>
          { a with log := a.log ++ [.replied j, .sent (startRequest path)] }
        tags := t.tags.eraseIdx i } := by
  obtain ⟨⟨st, hsent⟩, -⟩ := Panel.step_reply hrun hw j
  unfold step
  dsimp only
  rw [ht]
  dsimp only
  rw [if_pos hrun, Panel.made_eq hsent]
  rfl

theorem proper_started (path : String) : (Attempt.mk path [.sent (startRequest path)]).Proper :=
  Or.inl rfl

theorem proper_waiting (path script : String) :
    (Attempt.mk path [.sent (scriptRequest path script)]).Proper :=
  Or.inr ⟨script, Or.inl rfl⟩

/-- A script that was replied to and went on to the start. -/
theorem proper_replied_iff (path script : String) (j : Json) :
    (Attempt.mk path [.sent (scriptRequest path script), .replied j,
      .sent (startRequest path)]).Proper ↔ isError j = false := by
  constructor
  · rintro (h | ⟨script', h | ⟨j', h⟩⟩)
    · simp at h
    · simp at h
    · simp only [List.cons.injEq, Happening.replied.injEq] at h
      obtain ⟨-, hj, hrest⟩ := h
      rw [hj]
      by_contra he
      rw [if_pos (Bool.not_eq_false _ ▸ he)] at hrest
      cases hrest
  · intro he
    exact Or.inr ⟨script, Or.inr ⟨j, by simp [he]⟩⟩

theorem Linked.lt_attempts {t : Trace} (h : t.Linked) {i n : ℕ} (ht : t.tags[i]? = some n) :
    n < t.attempts.length := by
  obtain ⟨path, script, -, ha⟩ := h.waits i n ht
  exact (List.getElem?_eq_some_iff.mp ha).1

/-- The panel moves without a request. -/
theorem Linked.quiet {t : Trace} (h : t.Linked) {p : Panel} (hp : p.waiting = t.panel.waiting) :
    Linked { t with panel := p } where
  length := by rw [hp]; exact h.length
  nodup := h.nodup
  waits i n ht := by rw [hp]; exact h.waits i n ht

/-- A new attempt that is started at once. -/
theorem Linked.started {t : Trace} (h : t.Linked) {p : Panel} (hp : p.waiting = t.panel.waiting)
    (a : Attempt) : Linked ⟨p, t.attempts ++ [a], t.tags⟩ where
  length := by rw [hp]; exact h.length
  nodup := h.nodup
  waits i n ht := by
    rw [hp, List.getElem?_append_left (h.lt_attempts ht)]
    exact h.waits i n ht

/-- A new attempt whose script waits. -/
theorem Linked.scripted {t : Trace} (h : t.Linked) {p : Panel} {path : String}
    (hp : p.waiting = t.panel.waiting ++ [path]) (script : String) :
    Linked ⟨p, t.attempts ++ [⟨path, [.sent (scriptRequest path script)]⟩],
      t.tags ++ [t.attempts.length]⟩ where
  length := by rw [hp, List.length_append, List.length_append, h.length]; rfl
  nodup := by
    refine List.nodup_append.mpr ⟨h.nodup, List.nodup_singleton _, fun n hn m hm hnm => ?_⟩
    obtain ⟨i, hi⟩ := List.mem_iff_getElem?.mp hn
    rw [List.mem_singleton.mp hm] at hnm
    exact (h.lt_attempts hi).ne hnm
  waits i n ht := by
    rw [List.getElem?_append] at ht
    split_ifs at ht with hi
    · obtain ⟨path', script', hw, ha⟩ := h.waits i n ht
      refine ⟨path', script', ?_, ?_⟩
      · rw [hp, List.getElem?_append_left (h.length ▸ hi), hw]
      · rw [List.getElem?_append_left (h.lt_attempts ht), ha]
    · rw [List.getElem?_singleton] at ht
      split_ifs at ht with hzero
      have hi' : i = t.panel.waiting.length := by rw [← h.length]; omega
      refine ⟨path, script, ?_, ?_⟩
      · rw [hp, hi', List.getElem?_concat_length]
      · rw [← Option.some.inj ht, List.getElem?_concat_length]

/-- The script of attempt `n` is replied to. -/
theorem Linked.replied {t : Trace} (h : t.Linked) {p : Panel} {i n : ℕ} (hn : t.tags[i]? = some n)
    (hp : p.waiting = t.panel.waiting.eraseIdx i) (f : Attempt → Attempt) :
    Linked ⟨p, t.attempts.modify n f, t.tags.eraseIdx i⟩ where
  length := by rw [hp, List.length_eraseIdx, List.length_eraseIdx, h.length]
  nodup := h.nodup.sublist (List.eraseIdx_sublist _ _)
  waits k m hm := by
    have hshift : ∃ k', k' ≠ i ∧ t.tags[k']? = some m ∧
        (t.panel.waiting.eraseIdx i)[k]? = t.panel.waiting[k']? := by
      rw [List.getElem?_eraseIdx] at hm ⊢
      split_ifs at hm ⊢ with hk
      · exact ⟨k, hk.ne, hm, rfl⟩
      · exact ⟨k + 1, by omega, hm, rfl⟩
    obtain ⟨k', hne, hm', hw'⟩ := hshift
    have hnm : n ≠ m := fun heq => hne
      ((List.getElem?_inj (List.getElem?_eq_some_iff.mp hm').1 h.nodup).mp (by rw [hm', hn, heq]))
    obtain ⟨path, script, hw, ha⟩ := h.waits k' m hm'
    exact ⟨path, script, by rw [hp, hw', hw], by rw [List.getElem?_modify_ne _ _ hnm, ha]⟩

/-- What an event other than a reply does to the attempts. -/
theorem step_cases (t : Trace) (e : Event) (h : ∀ i j, e ≠ .reply i j) :
    ∃ p : Panel,
      (p.waiting = t.panel.waiting ∧ t.step e = { t with panel := p }) ∨
      (∃ path, p.waiting = t.panel.waiting ∧
        t.step e = ⟨p, t.attempts ++ [⟨path, [.sent (startRequest path)]⟩], t.tags⟩) ∨
      ∃ path script, p.waiting = t.panel.waiting ++ [path] ∧
        t.step e = ⟨p, t.attempts ++ [⟨path, [.sent (scriptRequest path script)]⟩],
          t.tags ++ [t.attempts.length]⟩ := by
  refine ⟨t.panel.step e, ?_⟩
  rcases t.panel.step_cases e h with hq | ⟨path, hc, ha⟩
  · exact Or.inl ⟨hq.waiting, step_quiet h hq.made⟩
  · rcases ha with ⟨⟨st, hsent⟩, hw⟩ | ⟨script, ⟨st, hsent⟩, hw⟩
    · refine Or.inr (Or.inl ⟨path, hw, ?_⟩)
      rw [step_attempt h hc (Panel.made_eq hsent), hw, if_neg (lt_irrefl _)]
    · refine Or.inr (Or.inr ⟨path, script, hw, ?_⟩)
      rw [step_attempt h hc (Panel.made_eq hsent), hw, if_pos (by simp)]

/-- A reply does nothing, or goes on to the start for the attempt it is for. -/
theorem step_reply_cases {t : Trace} (h : t.Linked) (i : ℕ) (j : Json) :
    t.step (.reply i j) = t ∧ (t.panel.running → t.panel.waiting.length ≤ i) ∨
      t.panel.running = true ∧ ∃ n path script, t.tags[i]? = some n ∧
        t.panel.waiting[i]? = some path ∧
        t.attempts[n]? = some (Attempt.mk path [.sent (scriptRequest path script)]) := by
  cases ht : t.tags[i]? with
  | none =>
    have hlen : t.panel.waiting.length ≤ i := h.length ▸ List.getElem?_eq_none_iff.mp ht
    refine Or.inl ⟨?_, fun _ => hlen⟩
    unfold step
    dsimp only
    rw [ht]
    dsimp only
    rw [Panel.step_reply_none (List.getElem?_eq_none hlen)]
  | some n =>
    by_cases hrun : t.panel.running
    · obtain ⟨path, script, hw, ha⟩ := h.waits i n ht
      exact Or.inr ⟨hrun, n, path, script, rfl, hw, ha⟩
    · refine Or.inl ⟨?_, fun hr => absurd hr hrun⟩
      unfold step
      dsimp only
      rw [ht]
      exact if_neg hrun

theorem linked_step (t : Trace) (e : Event) (h : t.Linked) : (t.step e).Linked := by
  by_cases he : ∀ i j, e ≠ .reply i j
  · obtain ⟨p, ⟨hw, heq⟩ | ⟨path, hw, heq⟩ | ⟨path, script, hw, heq⟩⟩ := t.step_cases e he
    · rw [heq]
      exact h.quiet hw
    · rw [heq]
      exact h.started hw _
    · rw [heq]
      exact h.scripted hw script
  · push Not at he
    obtain ⟨i, j, rfl⟩ := he
    rcases step_reply_cases h i j with ⟨heq, -⟩ | ⟨hrun, n, path, script, hn, hw, -⟩
    · rw [heq]
      exact h
    · rw [step_reply hrun hn hw]
      exact h.replied hn (Panel.step_reply hrun hw j).2 _

theorem Prepared.append {t : Trace} (h : t.Prepared) {a : Attempt} (ha : a.Proper) (p : Panel)
    (tags : List ℕ) : Prepared ⟨p, t.attempts ++ [a], tags⟩ := by
  intro b hb
  rcases List.mem_append.mp hb with hb | hb
  · exact h b hb
  · rw [List.mem_singleton.mp hb]
    exact ha

/-- Only the attempt that changes has to be looked at. -/
theorem prepared_modify_iff {t : Trace} (h : t.Prepared) {n : ℕ} {a : Attempt}
    (ha : t.attempts[n]? = some a) (f : Attempt → Attempt) (p : Panel) (tags : List ℕ) :
    Prepared ⟨p, t.attempts.modify n f, tags⟩ ↔ (f a).Proper := by
  constructor
  · intro hp
    refine hp (f a) (List.mem_of_getElem? (i := n) ?_)
    rw [List.getElem?_modify_eq, ha]
    rfl
  · intro hf b hb
    obtain ⟨k, hk⟩ := List.mem_iff_getElem?.mp hb
    by_cases hkn : n = k
    · rw [← hkn, List.getElem?_modify_eq, ha] at hk
      rw [← Option.some.inj hk]
      exact hf
    · rw [List.getElem?_modify_ne _ _ hkn] at hk
      exact h b (List.mem_of_getElem? hk)

/-- One step keeps every attempt as it should be exactly when no error is replied. -/
theorem prepared_step_iff {t : Trace} (e : Event) (hl : t.Linked) (h : t.Prepared) :
    (t.step e).Prepared ↔ t.Answered e := by
  by_cases he : ∀ i j, e ≠ .reply i j
  · refine iff_of_true ?_ (answered_of_ne he)
    obtain ⟨p, ⟨-, heq⟩ | ⟨path, -, heq⟩ | ⟨path, script, -, heq⟩⟩ := t.step_cases e he
    · rw [heq]
      exact h
    · rw [heq]
      exact h.append (proper_started path) p _
    · rw [heq]
      exact h.append (proper_waiting path script) p _
  · push Not at he
    obtain ⟨i, j, rfl⟩ := he
    rcases step_reply_cases hl i j with ⟨heq, hlate⟩ | ⟨hrun, n, path, script, hn, hw, ha⟩
    · rw [heq]
      exact iff_of_true h fun hr hi => absurd hi (not_lt.mpr (hlate hr))
    · rw [step_reply hrun hn hw, prepared_modify_iff h ha]
      refine (proper_replied_iff path script j).trans ⟨fun hj _ _ => hj, fun hc => ?_⟩
      exact hc hrun (List.getElem?_eq_some_iff.mp hw).1

/-- In every run of the panel every attempt starts its print as it should, exactly when
no prepare script is answered with an error. -/
theorem prepared_throughout_iff (s : State) (es : List Event) :
    Throughout step Prepared ⟨{ state := s }, [], []⟩ es ↔
      EachStep step Answered ⟨{ state := s }, [], []⟩ es := by
  have hlinked : Linked ⟨{ state := s }, [], []⟩ := ⟨rfl, List.nodup_nil, by simp⟩
  have hprepared : Prepared ⟨{ state := s }, [], []⟩ := fun a ha => by cases ha
  exact throughout_iff_eachStep_of (B := fun t _ => t.Linked)
    (fun _ e hl hp => prepared_step_iff e hl hp) hprepared
    (eachStep_of_invariant linked_step hlinked es)

/-- Klipper rejects the script that switches the mesh on, and the print starts. -/
theorem failed_script_starts :
    ¬ Throughout step Prepared ⟨{ state := ⟨[], by decide⟩ }, [], []⟩
      [.report (.update Panel.readyWithPins 0), .select (some "a.gcode"), .print,
        .chooseMesh .adaptive, .start,
        .reply 0 (.obj [("error", .obj [("message", .str "Unknown command")])])] := by
  intro h
  have hlinked : Linked _ := run_of_step linked_step
    (s := ⟨{ state := ⟨[], by decide⟩ }, [], []⟩) ⟨rfl, List.nodup_nil, by simp⟩
    [.report (.update Panel.readyWithPins 0), .select (some "a.gcode"), .print,
      .chooseMesh .adaptive, .start]
  have hanswered := (prepared_step_iff _ hlinked h.2.2.2.2.2.1).mp h.2.2.2.2.2.2
  exact absurd (hanswered (by decide +kernel) (by decide +kernel)) (by decide +kernel)

end Trace
end PowerScreen.PrintPanel
