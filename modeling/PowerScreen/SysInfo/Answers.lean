import PowerScreen.SysInfo.Checker

/-! # Answers of the update check

A change of the channel begins a check of its own, unless one is under way. If that one has
read the channel before the change, its answer is for the old channel, and it is the last.
While no such answer is due, what is there or to come is for the configured channel.
-/
namespace PowerScreen.SysInfo.Checker
open Library Library.Run Update

/-- No check is running and no result waits to be shown. -/
def Settled (c : Checker) : Prop :=
  c.checkRunning = false ∧ c.threads.length = 0 ∧ c.checkDone = false

instance (c : Checker) : Decidable c.Settled := inferInstanceAs (Decidable (_ ∧ _))

/-- A shown answer is for the configured channel. -/
def Shown (c : Checker) : Prop :=
  c.status = CheckResult.updateAvailable.text ∨ c.status = CheckResult.upToDate.text →
    c.shownFor = some c.channel

instance (c : Checker) : Decidable c.Shown := inferInstanceAs (Decidable (_ → _))

/-- What the display promises: the answer that is shown at rest is for the configured channel. -/
def Current (c : Checker) : Prop := c.Settled → c.Shown

instance (c : Checker) : Decidable c.Current := inferInstanceAs (Decidable (_ → _))

/-- Threads go on and the timer shows what they leave. -/
def Onward : CheckEvent → Prop
  | .check | .choose _ => False
  | _ => True

/-- However the check goes on, what is shown at rest is for the configured channel. -/
def SafeOn (c : Checker) : Prop := ∀ es, (∀ e ∈ es, Onward e) → (run step c es).Current

/-- The thread has read the channel, and an answer for it is still to be shown. -/
def Due (c : Checker) : CheckThread → Prop
  | .created => False
  | .asking _ => True
  | .answered _ r => r.isAnswer
  | .stored => c.result.isAnswer
  | .announced => c.checkDone ∧ c.result.isAnswer

/-- The channel is changed only while no answer for the old one is due. -/
def InTurn (c : Checker) : CheckEvent → Prop
  | .choose selected => selectedChannel selected ≠ c.channel → ∀ t ∈ c.threads, ¬ Due c t
  | _ => True

/-- What holds in every run: the flag stands for the one thread. -/
def Linked (c : Checker) : Prop := c.threads.length = if c.checkRunning then 1 else 0

/-- The stored result, if it is an answer, is for the configured channel. -/
def Stored (c : Checker) : Prop := c.result.isAnswer → c.resultFor = some c.channel

/-- What is shown once the timer has run. -/
def Last (c : Checker) : Prop := if c.checkDone then Stored c else Shown c

def Fits (c : Checker) : CheckThread → Prop
  | .created => True
  | .asking channel => channel = c.channel
  | .answered channel r => r.isAnswer → channel = some c.channel
  | .stored => Stored c
  | .announced => Last c

/-- The answer to come, or the one that is there, is for the configured channel. -/
structure Tracked (c : Checker) : Prop where
  fits : ∀ t ∈ c.threads, Fits c t
  last : c.threads = [] → Last c

theorem advance_cases (c : Checker) (i : ℕ) (f : CheckThread → Option (Checker × CheckThread)) :
    c.advance i f = c ∨ ∃ t d t', c.threads[i]? = some t ∧ f t = some (d, t') ∧
      c.advance i f = { d with threads := c.threads.set i t' } := by
  unfold advance
  cases hi : c.threads[i]? with
  | none => exact Or.inl rfl
  | some t =>
    cases hf : f t with
    | none => exact Or.inl (by simp [hf])
    | some p => exact Or.inr ⟨t, p.1, p.2, rfl, hf, by simp [hf]⟩

theorem isAnswer_of_text {r : CheckResult}
    (h : r.text = CheckResult.updateAvailable.text ∨ r.text = CheckResult.upToDate.text) :
    r.isAnswer := by
  cases r with
  | updateAvailable => rfl
  | upToDate => rfl
  | noData => exact absurd h (by decide)
  | error => exact absurd h (by decide)

theorem text_of_isAnswer {r : CheckResult} (h : r.isAnswer) :
    r.text = CheckResult.updateAvailable.text ∨ r.text = CheckResult.upToDate.text := by
  cases r with
  | updateAvailable => exact Or.inl rfl
  | upToDate => exact Or.inr rfl
  | noData => exact Bool.noConfusion h
  | error => exact Bool.noConfusion h

/-- The timer shows the answer that was stored. -/
theorem shown_pollUpdate (c : Checker) : Shown c.pollUpdate ↔ Last c := by
  unfold pollUpdate Last
  by_cases hdone : c.checkDone
  · rw [if_pos hdone, if_pos hdone]
    exact ⟨fun h ha => h (text_of_isAnswer ha), fun h ht => h (isAnswer_of_text ht)⟩
  · rw [if_neg hdone, if_neg hdone]

/-- A thread that goes on is the only one. -/
theorem Linked.single {c : Checker} (h : Linked c) {i : ℕ} {t : CheckThread}
    (hi : c.threads[i]? = some t) : c.threads = [t] ∧ i = 0 ∧ c.checkRunning := by
  obtain ⟨hlt, hget⟩ := List.getElem?_eq_some_iff.mp hi
  have hrunning : c.checkRunning := by
    by_contra hrun
    rw [Linked, if_neg hrun] at h
    omega
  rw [Linked, if_pos hrunning] at h
  obtain ⟨s, hs⟩ := List.length_eq_one_iff.mp h
  have hzero : i = 0 := by omega
  subst hzero
  simp only [hs, List.getElem_cons_zero] at hget
  exact ⟨by rw [hs, hget], rfl, hrunning⟩

theorem linked_step (c : Checker) (e : CheckEvent) (h : Linked c) : Linked (step c e) := by
  have hadvance : ∀ i f, (∀ t d t', f t = some (d, t') → d.checkRunning = c.checkRunning) →
      Linked (c.advance i f) := by
    intro i f hf
    rcases advance_cases c i f with heq | ⟨t, d, t', -, hd, heq⟩
    · rwa [heq]
    · rw [heq, Linked, List.length_set]
      change c.threads.length = if d.checkRunning then 1 else 0
      rw [hf t d t' hd]
      exact h
  have hcheck : ∀ d : Checker, Linked d → Linked d.checkForUpdate := by
    intro d hd
    unfold checkForUpdate
    by_cases hrun : d.checkRunning
    · rw [Linked, if_pos hrun] at hd
      simp [Linked, hrun, hd]
    · rw [Linked, if_neg hrun] at hd
      simp [Linked, hrun, hd]
  cases e with
  | check => exact hcheck c h
  | choose selected =>
    change Linked (c.handleCallback selected)
    unfold handleCallback
    split_ifs
    · exact hcheck _ h
    · exact h
  | begin i => exact hadvance i _ fun t d t' hf => by cases t <;> cases hf; rfl
  | fail i => exact hadvance i _ fun t d t' hf => by cases t <;> cases hf; rfl
  | answer i output => exact hadvance i _ fun t d t' hf => by cases t <;> cases hf; rfl
  | storeResult i => exact hadvance i _ fun t d t' hf => by cases t <;> cases hf; rfl
  | announce i => exact hadvance i _ fun t d t' hf => by cases t <;> cases hf; rfl
  | clear i =>
    change Linked (c.clear i)
    unfold clear
    split
    next hi =>
      obtain ⟨hthreads, hzero, -⟩ := h.single hi
      rw [Linked, hthreads, hzero]
      rfl
    next => exact h
  | poll =>
    change Linked c.pollUpdate
    unfold pollUpdate
    split_ifs <;> exact h

theorem channel_setChannel (c : Checker) (channel : Channel) :
    (c.setChannel channel).channel = channel := by
  change channelOf (.str channel.text) = channel
  cases channel <;> decide

theorem last_pollUpdate (c : Checker) : Last c.pollUpdate ↔ Last c := by
  have hdone : c.pollUpdate.checkDone = false := by
    cases h : c.checkDone <;> simp [pollUpdate, h]
  have hlast : Last c.pollUpdate ↔ Shown c.pollUpdate := by simp [Last, hdone]
  exact hlast.trans (shown_pollUpdate c)

theorem fits_pollUpdate {c : Checker} {t : CheckThread} (h : Fits c t) : Fits c.pollUpdate t := by
  cases t with
  | created => trivial
  | announced => exact (last_pollUpdate c).mpr h
  | asking channel =>
    unfold pollUpdate
    split_ifs <;> exact h
  | answered channel r =>
    unfold pollUpdate
    split_ifs <;> exact h
  | stored =>
    unfold pollUpdate
    split_ifs <;> exact h

/-- Nothing is shown while the text says that a check is under way. -/
theorem shown_checkForUpdate (c : Checker) : Shown c.checkForUpdate := by
  have htext : ¬ ("CHECKING..." = CheckResult.updateAvailable.text ∨
      "CHECKING..." = CheckResult.upToDate.text) := by decide
  exact fun h => absurd h htext

theorem fits_checkForUpdate {c : Checker} {t : CheckThread} (h : Fits c t) :
    Fits c.checkForUpdate t := by
  cases t with
  | created => trivial
  | asking channel => exact h
  | answered channel r => exact h
  | stored => exact h
  | announced =>
    change Last _
    unfold Last
    split_ifs with hdone
    · have hlast : Last c := h
      rw [Last, if_pos (show c.checkDone = true from hdone)] at hlast
      exact hlast
    · exact shown_checkForUpdate c

theorem fits_setChannel {c : Checker} {t : CheckThread} (h : ¬ Due c t) (channel : Channel) :
    Fits (c.setChannel channel).checkForUpdate t := by
  cases t with
  | created => trivial
  | asking channel => exact absurd trivial h
  | answered channel r => exact fun ha => absurd ha h
  | stored => exact fun ha => absurd ha h
  | announced =>
    change Last _
    unfold Last
    split_ifs with hdone
    · exact fun ha => absurd ⟨hdone, ha⟩ h
    · exact shown_checkForUpdate _

theorem tracked_checkForUpdate {c : Checker} (hl : Linked c)
    (h : ∀ t ∈ c.threads, Fits c.checkForUpdate t) : Tracked c.checkForUpdate := by
  by_cases hrun : c.checkRunning
  · have hthreads : c.checkForUpdate.threads = c.threads := if_pos hrun
    refine ⟨fun t ht => h t (hthreads ▸ ht), fun hnil => ?_⟩
    rw [Linked, if_pos hrun, ← hthreads, hnil] at hl
    exact absurd hl (by simp)
  · have hthreads : c.checkForUpdate.threads = c.threads ++ [.created] := if_neg hrun
    refine ⟨fun t ht => ?_, fun hnil => absurd (hthreads.symm.trans hnil) (by simp)⟩
    rw [hthreads] at ht
    rcases List.mem_append.mp ht with ht | ht
    · exact h t ht
    · rw [List.mem_singleton.mp ht]
      trivial

theorem tracked_advance {c : Checker} (hl : Linked c) (h : Tracked c) {i : ℕ}
    {f : CheckThread → Option (Checker × CheckThread)}
    (hf : ∀ t d t', Fits c t → f t = some (d, t') → Fits d t') : Tracked (c.advance i f) := by
  rcases advance_cases c i f with heq | ⟨t, d, t', hi, hd, heq⟩
  · rwa [heq]
  · obtain ⟨hthreads, hzero, -⟩ := hl.single hi
    have hfits : Fits d t' := hf t d t' (h.fits t (List.mem_of_getElem? hi)) hd
    rw [heq, hthreads, hzero]
    refine ⟨fun s hs => ?_, fun hnil => absurd hnil (by simp)⟩
    rw [List.mem_singleton.mp hs]
    exact hfits

theorem tracked_step {c : Checker} (hl : Linked c) (h : Tracked c) (e : CheckEvent)
    (hc : InTurn c e) : Tracked (step c e) := by
  cases e with
  | check => exact tracked_checkForUpdate hl fun t ht => fits_checkForUpdate (h.fits t ht)
  | choose selected =>
    change Tracked (c.handleCallback selected)
    unfold handleCallback
    split_ifs with hchange
    · exact tracked_checkForUpdate (c := c.setChannel (selectedChannel selected)) hl
        fun t ht => fits_setChannel (hc hchange t ht) _
    · exact h
  | begin i =>
    refine tracked_advance hl h fun t d t' hfits hf => ?_
    cases t <;> cases hf
    rfl
  | fail i =>
    refine tracked_advance hl h fun t d t' hfits hf => ?_
    cases t <;> cases hf
    exact fun ha => Bool.noConfusion ha
  | answer i output =>
    refine tracked_advance hl h fun t d t' hfits hf => ?_
    cases t <;> cases hf
    exact fun _ => congrArg some hfits
  | storeResult i =>
    refine tracked_advance hl h fun t d t' hfits hf => ?_
    cases t <;> cases hf
    exact hfits
  | announce i =>
    refine tracked_advance hl h fun t d t' hfits hf => ?_
    cases t <;> cases hf
    exact hfits
  | clear i =>
    change Tracked (c.clear i)
    unfold clear
    split
    next hi =>
      obtain ⟨hthreads, hzero, -⟩ := hl.single hi
      have hlast : Last c := h.fits _ (List.mem_of_getElem? hi)
      rw [hthreads, hzero]
      exact ⟨fun t ht => absurd ht List.not_mem_nil, fun _ => hlast⟩
    next => exact h
  | poll =>
    have hthreads : c.pollUpdate.threads = c.threads := by
      unfold pollUpdate
      split_ifs <;> rfl
    refine ⟨fun t ht => fits_pollUpdate (h.fits t (hthreads ▸ ht)), fun hnil => ?_⟩
    exact (last_pollUpdate c).mpr (h.last (hthreads ▸ hnil))

theorem Tracked.current {c : Checker} (h : Tracked c) : Current c := by
  rintro ⟨-, hnil, hdone⟩
  have hlast := h.last (List.eq_nil_of_length_eq_zero hnil)
  rwa [Last, if_neg (by simp [hdone])] at hlast

end PowerScreen.SysInfo.Checker
