import PowerScreen.SysInfo.Updater

/-! # One update run at a time

A run ends for the panel by the flag of its thread, or without it when a restart is overdue.
The thread is not told: if it is still there, the next run begins beside it, and what it
leaves is taken for the outcome of that run.
-/
namespace PowerScreen.SysInfo.Updater
open Library Library.Run

/-- Scripts that are running. -/
def alive (u : Updater) : ℕ := (u.threads.filter (·.stage = .calling)).length

/-- At most one script is running, and the outcome of a run is its own. -/
def Right (u : Updater) : Prop :=
  u.alive ≤ 1 ∧
    (u.updateRunning → u.updateFinished → u.finishedBy = u.runs ∧ u.exitCodeBy = u.runs)

instance (u : Updater) : Decidable u.Right := inferInstanceAs (Decidable (_ ∧ _))

/-- The user asks for an update, threads go on, and the printer may become ready. -/
def Onward : UpdateEvent → Prop
  | .start _ | .exit _ _ | .storeCode _ | .storeFlag _ => True
  | .report r => r = .update (.ofPrintState "standby") 0
  | _ => False

/-- Whatever is asked for and however the threads go on, all is right. -/
def SafeOn (u : Updater) : Prop := ∀ es, (∀ e ∈ es, Onward e) → (run step u es).Right

/-- A restart is found overdue only after the thread of the run has left its outcome. -/
def InTime (u : Updater) : UpdateEvent → Prop
  | .poll now _ => u.updateRunning → u.overdue now → u.threads = []
  | _ => True

/-- What holds in every run: the threads and the run that set the flag are told apart. -/
structure Linked (u : Updater) : Prop where
  apart : (u.finishedBy :: u.threads.map Thread.run).Nodup
  bound : ∀ r ∈ u.finishedBy :: u.threads.map Thread.run, r ≤ u.runs

/-- A thread is there for the current run only. -/
structure Tracked (u : Updater) : Prop where
  idle : u.updateRunning = false → u.threads = []
  single : u.threads.length ≤ 1
  own : ∀ t ∈ u.threads, t.run = u.runs
  stored : ∀ t ∈ u.threads, t.stage = .stored → u.exitCodeBy = u.runs
  finished : u.updateRunning → u.updateFinished →
    u.threads = [] ∧ u.finishedBy = u.runs ∧ u.exitCodeBy = u.runs

/-- What a display leaves alone. -/
structure Shows (u v : Updater) : Prop where
  threads : v.threads = u.threads
  runs : v.runs = u.runs
  finishedBy : v.finishedBy = u.finishedBy
  exitCodeBy : v.exitCodeBy = u.exitCodeBy
  finished : v.updateFinished = u.updateFinished

theorem Shows.refl (u : Updater) : Shows u u := ⟨rfl, rfl, rfl, rfl, rfl⟩

theorem Shows.trans {u v w : Updater} (h : Shows u v) (h' : Shows v w) : Shows u w where
  threads := h'.threads.trans h.threads
  runs := h'.runs.trans h.runs
  finishedBy := h'.finishedBy.trans h.finishedBy
  exitCodeBy := h'.exitCodeBy.trans h.exitCodeBy
  finished := h'.finished.trans h.finished

theorem Linked.shows {u v : Updater} (h : Linked u) (hv : Shows u v) : Linked v := by
  obtain ⟨ht, hr, hf, -, -⟩ := hv
  exact ⟨by rw [ht, hf]; exact h.apart, by rw [ht, hf, hr]; exact h.bound⟩

theorem Tracked.shows {u v : Updater} (h : Tracked u) (hv : Shows u v)
    (hrunning : v.updateRunning = u.updateRunning) : Tracked v := by
  obtain ⟨ht, hr, hf, hc, hfin⟩ := hv
  refine ⟨?_, ?_, ?_, ?_, ?_⟩
  · rw [hrunning, ht]; exact h.idle
  · rw [ht]; exact h.single
  · rw [ht, hr]; exact h.own
  · rw [ht, hr, hc]; exact h.stored
  · rw [hrunning, hfin, ht, hf, hr, hc]; exact h.finished

theorem Tracked.right {u : Updater} (h : Tracked u) : Right u :=
  ⟨(List.length_filter_le _ _).trans h.single, fun hr hf => (h.finished hr hf).2⟩

theorem showUpdateOverlay_shows (u : Updater) (title phase : String) (busy : Bool) :
    Shows u (u.showUpdateOverlay title phase busy) ∧
      (u.showUpdateOverlay title phase busy).updateRunning = u.updateRunning :=
  ⟨⟨rfl, rfl, rfl, rfl, rfl⟩, rfl⟩

theorem showOutcome_shows (u : Updater) (status : String) :
    Shows u (u.showOutcome status) ∧ (u.showOutcome status).updateRunning = u.updateRunning := by
  unfold showOutcome
  split_ifs <;> exact showUpdateOverlay_shows u _ _ _

theorem showProgress_shows (u : Updater) (status : String) (now : ℤ) (installed : String) :
    Shows u (u.showProgress status now installed) ∧
      (u.showProgress status now installed).updateRunning = u.updateRunning :=
  ⟨⟨rfl, rfl, rfl, rfl, rfl⟩, rfl⟩

/-- A restart that is announced now is not overdue now. -/
theorem overdue_showProgress (u : Updater) (status : String) (now : ℤ) (installed : String) :
    (u.showProgress status now installed).overdue now = u.overdue now := by
  unfold overdue showProgress
  dsimp only
  split_ifs with hphase
  · have hzero : u.restartSince = 0 := by
      simp only [Bool.and_eq_true, decide_eq_true_eq] at hphase
      exact hphase.2
    simp [hzero]
  · rfl

theorem stop_shows (u : Updater) (since : ℤ) :
    Shows u { u with updateRunning := false, restartSince := since } := ⟨rfl, rfl, rfl, rfl, rfl⟩

/-- A tick ends the run when the restart is overdue, or by the flag. -/
theorem pollUpdate_cases (u : Updater) (now : ℤ) (installed : String) :
    Shows u (u.pollUpdate now installed) ∧
      ((u.pollUpdate now installed).updateRunning = u.updateRunning ∧
          ¬ (u.updateRunning ∧ u.overdue now) ∨
        u.updateRunning ∧ (u.pollUpdate now installed).updateRunning = false ∧
          (u.overdue now ∨ u.updateFinished)) := by
  unfold pollUpdate
  split_ifs with hrun
  · exact ⟨.refl u, Or.inl ⟨rfl, fun h => by simp [h.1] at hrun⟩⟩
  · have hrun : u.updateRunning := by simpa using hrun
    generalize hstatus : readFirstLine u.statusFile = status
    dsimp only
    obtain ⟨v, hv, hshows, hrunning, hoverdue⟩ : ∃ v,
        (if status = "" then u else u.showProgress status now installed) = v ∧ Shows u v ∧
          v.updateRunning = u.updateRunning ∧ v.overdue now = u.overdue now := by
      refine ⟨_, rfl, ?_⟩
      split_ifs
      · exact ⟨.refl u, rfl, rfl⟩
      · have h := showProgress_shows u status now installed
        exact ⟨h.1, h.2, overdue_showProgress u status now installed⟩
    rw [hv, hoverdue]
    by_cases hlate : u.overdue now
    · rw [if_pos hlate]
      have h := showUpdateOverlay_shows { v with updateRunning := false } "Restart needed"
        "Restart PowerScreen to apply the new version." false
      exact ⟨(hshows.trans (stop_shows v v.restartSince)).trans h.1,
        Or.inr ⟨hrun, h.2, Or.inl hlate⟩⟩
    · rw [if_neg hlate]
      split_ifs with hopen hwait
      · exact ⟨hshows, Or.inl ⟨hrunning, fun h => hlate h.2⟩⟩
      · exact ⟨hshows, Or.inl ⟨hrunning, fun h => hlate h.2⟩⟩
      · have hfinished : u.updateFinished := by
          rw [← hshows.finished]
          simpa using hopen
        have h := showOutcome_shows { v with updateRunning := false, restartSince := 0 } status
        exact ⟨(hshows.trans (stop_shows v 0)).trans h.1, Or.inr ⟨hrun, h.2, Or.inr hfinished⟩⟩

/-- A request begins a run or only shows something. -/
theorem startUpdate_cases (u : Updater) (script : Bool) :
    (Shows u (u.startUpdate script) ∧ (u.startUpdate script).updateRunning = u.updateRunning) ∨
      (u.updateRunning = false ∧ (u.startUpdate script).updateRunning ∧
        (u.startUpdate script).updateFinished = false ∧
        (u.startUpdate script).threads = u.threads ++ [⟨u.runs + 1, .calling⟩] ∧
        (u.startUpdate script).runs = u.runs + 1 ∧
        (u.startUpdate script).finishedBy = u.finishedBy) := by
  unfold startUpdate
  split_ifs with hrun hprinting hscript
  · exact Or.inl ⟨.refl u, rfl⟩
  · exact Or.inl (showUpdateOverlay_shows u _ _ _)
  · exact Or.inl (showUpdateOverlay_shows u _ _ _)
  · exact Or.inr ⟨Bool.eq_false_of_not_eq_true hrun, rfl, rfl, rfl, rfl, rfl⟩

theorem exit_cases (u : Updater) (i : ℕ) (code : ℤ) :
    u.exit i code = u ∨ ∃ r, u.threads[i]? = some ⟨r, .calling⟩ ∧
      u.exit i code = { u with threads := u.threads.set i ⟨r, .returned code⟩ } := by
  unfold exit
  split
  · exact Or.inr ⟨_, ‹_›, rfl⟩
  · exact Or.inl rfl

theorem storeCode_cases (u : Updater) (i : ℕ) :
    u.storeCode i = u ∨ ∃ r code, u.threads[i]? = some ⟨r, .returned code⟩ ∧
      u.storeCode i = { u with
        updateExitCode := code, exitCodeBy := r, threads := u.threads.set i ⟨r, .stored⟩ } := by
  unfold storeCode
  split
  · exact Or.inr ⟨_, _, ‹_›, rfl⟩
  · exact Or.inl rfl

theorem storeFlag_cases (u : Updater) (i : ℕ) :
    u.storeFlag i = u ∨ ∃ r, u.threads[i]? = some ⟨r, .stored⟩ ∧
      u.storeFlag i = { u with
        updateFinished := true, finishedBy := r, threads := u.threads.eraseIdx i } := by
  unfold storeFlag
  split
  · exact Or.inr ⟨_, ‹_›, rfl⟩
  · exact Or.inl rfl

theorem map_run_set {ts : List Thread} {i r : ℕ} {st : Stage} (h : ts[i]? = some ⟨r, st⟩)
    (st' : Stage) : (ts.set i ⟨r, st'⟩).map Thread.run = ts.map Thread.run := by
  obtain ⟨hlt, -⟩ := List.getElem?_eq_some_iff.mp h
  refine List.ext_getElem? fun j => ?_
  rw [List.getElem?_map, List.getElem?_map]
  by_cases hij : i = j
  · subst hij
    rw [List.getElem?_set_self hlt, h]
    rfl
  · rw [List.getElem?_set_ne hij]

theorem linked_start (s : State) : Linked { store := s } :=
  ⟨List.nodup_singleton 0, by simp⟩

theorem linked_step (u : Updater) (e : UpdateEvent) (h : Linked u) : Linked (step u e) := by
  cases e with
  | report r => exact h.shows ⟨rfl, rfl, rfl, rfl, rfl⟩
  | write content => exact h.shows ⟨rfl, rfl, rfl, rfl, rfl⟩
  | poll now installed => exact h.shows (pollUpdate_cases u now installed).1
  | close =>
    dsimp only [step]
    split_ifs
    · exact h.shows ⟨rfl, rfl, rfl, rfl, rfl⟩
    · exact h
  | start script =>
    rcases startUpdate_cases u script with ⟨hshows, -⟩ | ⟨-, -, -, hthreads, hruns, hby⟩
    · exact h.shows hshows
    · have hnew : u.runs + 1 ∉ u.finishedBy :: u.threads.map Thread.run := fun hmem =>
        absurd (h.bound _ hmem) (by omega)
      have hlist : u.finishedBy :: (u.threads ++ [Thread.mk (u.runs + 1) .calling]).map Thread.run =
          (u.finishedBy :: u.threads.map Thread.run) ++ [u.runs + 1] := by simp
      refine ⟨?_, fun r hr => ?_⟩
      · rw [step, hthreads, hby, hlist]
        exact h.apart.append (List.nodup_singleton _) (by simpa using hnew)
      · rw [step, hthreads, hby, hlist] at hr
        rw [step, hruns]
        rcases List.mem_append.mp hr with hr | hr
        · exact (h.bound r hr).trans (Nat.le_succ _)
        · exact (List.mem_singleton.mp hr).le
  | exit i code =>
    dsimp only [step]
    rcases exit_cases u i code with heq | ⟨r, hi, heq⟩
    · rwa [heq]
    · rw [heq]
      exact ⟨by rw [map_run_set hi]; exact h.apart, by rw [map_run_set hi]; exact h.bound⟩
  | storeCode i =>
    dsimp only [step]
    rcases storeCode_cases u i with heq | ⟨r, code, hi, heq⟩
    · rwa [heq]
    · rw [heq]
      exact ⟨by rw [map_run_set hi]; exact h.apart, by rw [map_run_set hi]; exact h.bound⟩
  | storeFlag i =>
    dsimp only [step]
    rcases storeFlag_cases u i with heq | ⟨r, hi, heq⟩
    · rwa [heq]
    · obtain ⟨hlen, hget⟩ := List.getElem?_eq_some_iff.mp hi
      have hperm : (r :: (u.threads.eraseIdx i).map Thread.run).Perm (u.threads.map Thread.run) := by
        have h := (List.getElem_cons_eraseIdx_perm hlen).map Thread.run
        rwa [List.map_cons, hget] at h
      rw [heq]
      exact ⟨hperm.nodup_iff.mpr h.apart.of_cons,
        fun q hq => h.bound q (List.mem_cons_of_mem _ (hperm.mem_iff.mp hq))⟩

end PowerScreen.SysInfo.Updater
