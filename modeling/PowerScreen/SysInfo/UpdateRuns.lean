import PowerScreen.SysInfo.Threads

/-! # Update runs are told apart

As long as no restart is found overdue while the thread of its run is there, every thread
belongs to the run the panel waits for. From any other panel the user and the threads reach
a second script, or an outcome of another run.
-/
namespace PowerScreen.SysInfo.Updater
open Library Library.Run

theorem tracked_start (s : State) : Tracked { store := s } where
  idle _ := rfl
  single := Nat.zero_le 1
  own _ h := absurd h List.not_mem_nil
  stored _ h := absurd h List.not_mem_nil
  finished h := Bool.noConfusion h

/-- A thread that goes on keeps its place and its run. -/
theorem Tracked.set {u : Updater} (h : Tracked u) {i r : ℕ} {st : Stage}
    (hi : u.threads[i]? = some ⟨r, st⟩) :
    r = u.runs ∧ u.threads.length = 1 ∧ (u.updateRunning ∧ u.updateFinished = false) := by
  have hmem := List.mem_of_getElem? hi
  have hpos : 0 < u.threads.length := List.length_pos_of_mem hmem
  have hrunning : u.updateRunning := by
    by_contra hrun
    simp [h.idle (Bool.eq_false_of_not_eq_true hrun)] at hmem
  refine ⟨h.own _ hmem, le_antisymm h.single hpos, hrunning, ?_⟩
  by_contra hfinished
  simp [(h.finished hrunning (Bool.eq_true_of_not_eq_false hfinished)).1] at hmem

theorem tracked_step {u : Updater} (h : Tracked u) (e : UpdateEvent) (hc : InTime u e) :
    Tracked (step u e) := by
  cases e with
  | report r => exact h.shows ⟨rfl, rfl, rfl, rfl, rfl⟩ rfl
  | write content => exact h.shows ⟨rfl, rfl, rfl, rfl, rfl⟩ rfl
  | close =>
    dsimp only [step]
    split_ifs
    · exact h.shows ⟨rfl, rfl, rfl, rfl, rfl⟩ rfl
    · exact h
  | start script =>
    rcases startUpdate_cases u script with ⟨hshows, hrun⟩ | ⟨hidle, hrun, hopen, hthreads, hruns, -⟩
    · exact h.shows hshows hrun
    · have hone : (step u (.start script)).threads = [⟨u.runs + 1, .calling⟩] := by
        rw [step, hthreads, h.idle hidle]
        rfl
      refine ⟨fun hr => Bool.noConfusion (hr.symm.trans hrun), by rw [hone]; rfl, ?_, ?_, ?_⟩
      · intro t ht
        rw [hone, List.mem_singleton] at ht
        rw [ht, step, hruns]
      · intro t ht hstage
        rw [hone, List.mem_singleton] at ht
        rw [ht] at hstage
        exact Stage.noConfusion hstage
      · exact fun _ hf => Bool.noConfusion (hopen.symm.trans hf)
  | exit i code =>
    dsimp only [step]
    rcases exit_cases u i code with heq | ⟨r, hi, heq⟩
    · rwa [heq]
    · obtain ⟨hown, hlen, hrunning, hopen⟩ := h.set hi
      rw [heq]
      refine ⟨fun hr => Bool.noConfusion (hr.symm.trans hrunning), by simp [hlen], ?_, ?_,
        fun _ hf => Bool.noConfusion (hopen.symm.trans hf)⟩
      · intro t ht
        rcases List.mem_or_eq_of_mem_set ht with ht | rfl
        · exact h.own t ht
        · exact hown
      · intro t ht hstage
        rcases List.mem_or_eq_of_mem_set ht with ht | rfl
        · exact h.stored t ht hstage
        · exact Stage.noConfusion hstage
  | storeCode i =>
    dsimp only [step]
    rcases storeCode_cases u i with heq | ⟨r, code, hi, heq⟩
    · rwa [heq]
    · obtain ⟨hown, hlen, hrunning, hopen⟩ := h.set hi
      rw [heq]
      refine ⟨fun hr => Bool.noConfusion (hr.symm.trans hrunning), by simp [hlen], ?_,
        fun _ _ _ => hown, fun _ hf => Bool.noConfusion (hopen.symm.trans hf)⟩
      intro t ht
      rcases List.mem_or_eq_of_mem_set ht with ht | rfl
      · exact h.own t ht
      · exact hown
  | storeFlag i =>
    dsimp only [step]
    rcases storeFlag_cases u i with heq | ⟨r, hi, heq⟩
    · rwa [heq]
    · obtain ⟨hown, hlen, hrunning, -⟩ := h.set hi
      have hnil : u.threads.eraseIdx i = [] := by
        obtain ⟨hlt, -⟩ := List.getElem?_eq_some_iff.mp hi
        have hlength := List.length_eraseIdx_of_lt hlt
        exact List.eq_nil_of_length_eq_zero (by omega)
      have hcode := h.stored _ (List.mem_of_getElem? hi) rfl
      rw [heq]
      refine ⟨fun _ => hnil, by simp [hnil], by simp [hnil], by simp [hnil], ?_⟩
      exact fun _ _ => ⟨hnil, hown, hcode⟩
  | poll now installed =>
    obtain ⟨hshows, ⟨hrun, -⟩ | ⟨hrunning, hstop, hwhy⟩⟩ := pollUpdate_cases u now installed
    · exact h.shows hshows hrun
    · have hnil : u.threads = [] := by
        rcases hwhy with hlate | hfinished
        · exact hc hrunning hlate
        · exact (h.finished hrunning hfinished).1
      have hthreads : (step u (.poll now installed)).threads = [] := hshows.threads.trans hnil
      refine ⟨fun _ => hthreads, by simp [hthreads], by simp [hthreads], by simp [hthreads], ?_⟩
      exact fun hr => Bool.noConfusion (hr.symm.trans hstop)

theorem inTime_of_onward {e : UpdateEvent} (h : Onward e) (u : Updater) : InTime u e := by
  cases e with
  | poll now installed => exact h.elim
  | _ => trivial

/-- The run `r` has set the flag. -/
structure Finishes (u v : Updater) (r : ℕ) : Prop where
  runs : v.runs = u.runs
  running : v.updateRunning = u.updateRunning
  finished : v.updateFinished
  finishedBy : v.finishedBy = r

theorem finishes_of_stored {u : Updater} {i r : ℕ} (hi : u.threads[i]? = some ⟨r, .stored⟩) :
    Finishes u (u.storeFlag i) r := by
  rw [storeFlag, hi]
  exact ⟨rfl, rfl, rfl, rfl⟩

theorem finishes_of_returned {u : Updater} {i r : ℕ} {code : ℤ}
    (hi : u.threads[i]? = some ⟨r, .returned code⟩) :
    Finishes u ((u.storeCode i).storeFlag i) r := by
  obtain ⟨hlt, -⟩ := List.getElem?_eq_some_iff.mp hi
  have hstore : u.storeCode i = { u with
      updateExitCode := code, exitCodeBy := r, threads := u.threads.set i ⟨r, .stored⟩ } := by
    rw [storeCode, hi]
  have hstored : (u.storeCode i).threads[i]? = some ⟨r, .stored⟩ := by
    rw [hstore]
    exact List.getElem?_set_self hlt
  obtain ⟨hruns, hrunning, hfinished, hby⟩ := finishes_of_stored hstored
  rw [hstore] at hruns hrunning
  exact ⟨hstore ▸ hruns, hstore ▸ hrunning, hfinished, hby⟩

/-- However far a thread is, it sets the flag in three more steps. -/
theorem finishes_thread {u : Updater} {i : ℕ} {t : Thread} (hi : u.threads[i]? = some t) :
    Finishes u (run step u [.exit i 0, .storeCode i, .storeFlag i]) t.run := by
  change Finishes u (((u.exit i 0).storeCode i).storeFlag i) t.run
  obtain ⟨r, stage⟩ := t
  cases stage with
  | calling =>
    obtain ⟨hlt, -⟩ := List.getElem?_eq_some_iff.mp hi
    have hexit : u.exit i 0 = { u with threads := u.threads.set i ⟨r, .returned 0⟩ } := by
      rw [exit, hi]
    have hreturned : (u.exit i 0).threads[i]? = some ⟨r, .returned 0⟩ := by
      rw [hexit]
      exact List.getElem?_set_self hlt
    obtain ⟨hruns, hrunning, hfinished, hby⟩ := finishes_of_returned hreturned
    rw [hexit] at hruns hrunning
    exact ⟨hexit ▸ hruns, hexit ▸ hrunning, hfinished, hby⟩
  | returned code =>
    have hexit : u.exit i 0 = u := by rw [exit, hi]
    rw [hexit]
    exact finishes_of_returned hi
  | stored =>
    have hexit : u.exit i 0 = u := by rw [exit, hi]
    have hstore : u.storeCode i = u := by rw [storeCode, hi]
    rw [hexit, hstore]
    exact finishes_of_stored hi

theorem SafeOn.right {u : Updater} (h : SafeOn u) : Right u := h [] (by simp)

theorem SafeOn.run {u : Updater} (h : SafeOn u) (es : List UpdateEvent)
    (hes : ∀ e ∈ es, Onward e) : SafeOn (run step u es) := by
  intro fs hfs
  rw [← run_append]
  exact h _ fun e he => (List.mem_append.mp he).elim (hes e) (hfs e)

theorem SafeOn.own {u : Updater} (h : SafeOn u) (hrunning : u.updateRunning) :
    ∀ t ∈ u.threads, t.run = u.runs := by
  intro t ht
  obtain ⟨i, hi⟩ := List.mem_iff_getElem?.mp ht
  obtain ⟨hruns, hrun, hfinished, hby⟩ := finishes_thread hi
  have hright := h [.exit i 0, .storeCode i, .storeFlag i] (by simp [Onward])
  rw [← hby, (hright.2 (hrun ▸ hrunning) hfinished).1, hruns]

def ready : UpdateEvent := .report (.update (.ofPrintState "standby") 0)

/-- A run has begun. -/
structure Begins (u v : Updater) : Prop where
  running : v.updateRunning
  runs : v.runs = u.runs + 1
  threads : v.threads = u.threads ++ [⟨u.runs + 1, .calling⟩]

theorem begins_startUpdate {u : Updater} (hidle : u.updateRunning = false)
    (hprinting : isPrinting u.store = false) : Begins u (u.startUpdate true) := by
  unfold startUpdate
  rw [if_neg (by simp [hidle]), if_neg (by simp [hprinting]), if_neg (by simp)]
  exact ⟨rfl, rfl, rfl⟩

/-- Once the printer is ready an update can begin. -/
theorem begins_ready {u : Updater} (hidle : u.updateRunning = false) :
    Begins u (run step u [ready, .start true]) := by
  have hprinting : isPrinting (step u ready).store = false := by
    have hstate : (step u ready).store.printState = .str "standby" :=
      u.store.printState_ofPrintState "standby" 0
    rw [isPrinting, hstate]
    rfl
  obtain ⟨hrunning, hruns, hthreads⟩ := begins_startUpdate (u := step u ready) hidle hprinting
  exact ⟨hrunning, hruns, hthreads⟩

theorem SafeOn.idle {u : Updater} (hu : Linked u) (h : SafeOn u) (hidle : u.updateRunning = false) :
    u.threads = [] := by
  by_contra hne
  obtain ⟨t, ht⟩ := List.exists_mem_of_ne_nil _ hne
  obtain ⟨hrunning, hruns, hthreads⟩ := begins_ready hidle
  have hown := (h.run [ready, .start true] (by simp [Onward, ready])).own hrunning t
    (hthreads ▸ List.mem_append_left _ ht)
  have hbound := hu.bound t.run (List.mem_cons_of_mem _ (List.mem_map_of_mem ht))
  omega

theorem length_le_one {ts : List Thread} {r : ℕ} (hown : ∀ t ∈ ts, t.run = r)
    (hapart : (ts.map Thread.run).Nodup) : ts.length ≤ 1 := by
  match ts with
  | [] => exact Nat.zero_le 1
  | [t] => exact le_rfl
  | t :: s :: ts =>
    have heq : t.run = s.run := (hown t (by simp)).trans (hown s (by simp)).symm
    simp [heq] at hapart

theorem tracked_of_safeOn {u : Updater} (hu : Linked u) (h : SafeOn u) : Tracked u := by
  have hown : ∀ t ∈ u.threads, t.run = u.runs := by
    intro t ht
    by_cases hrunning : u.updateRunning
    · exact h.own hrunning t ht
    · rw [h.idle hu (Bool.eq_false_of_not_eq_true hrunning)] at ht
      exact absurd ht List.not_mem_nil
  refine ⟨h.idle hu, length_le_one hown hu.apart.of_cons, hown, ?_, ?_⟩
  · intro t ht hstage
    obtain ⟨r, stage⟩ := t
    obtain rfl : stage = .stored := hstage
    have hrunning : u.updateRunning := by
      by_contra hrun
      simp [h.idle hu (Bool.eq_false_of_not_eq_true hrun)] at ht
    obtain ⟨i, hi⟩ := List.mem_iff_getElem?.mp ht
    have hflag : u.storeFlag i = { u with
        updateFinished := true, finishedBy := r, threads := u.threads.eraseIdx i } := by
      rw [storeFlag, hi]
    have hright : Right (u.storeFlag i) := h [.storeFlag i] (by simp [Onward])
    rw [hflag] at hright
    exact (hright.2 hrunning rfl).2
  · intro hrunning hfinished
    obtain ⟨hby, hcode⟩ := h.right.2 hrunning hfinished
    refine ⟨List.eq_nil_iff_forall_not_mem.mpr fun t ht => ?_, hby, hcode⟩
    have hmem : u.finishedBy ∈ u.threads.map Thread.run := by
      rw [hby, ← hown t ht]
      exact List.mem_map_of_mem ht
    exact (List.nodup_cons.mp hu.apart).1 hmem

theorem safeOn_iff {u : Updater} (hu : Linked u) : SafeOn u ↔ Tracked u := by
  refine ⟨tracked_of_safeOn hu, fun h es hes => ?_⟩
  have hrun : Tracked (run step u es) :=
    run_of_forall (fun v e he hv => tracked_step hv e (inTime_of_onward he v)) h hes
  exact hrun.right

theorem inTime_of_tracked {u : Updater} {e : UpdateEvent} (h : Tracked (step u e)) : InTime u e := by
  cases e with
  | poll now installed =>
    intro hrunning hlate
    obtain ⟨hshows, ⟨-, hnot⟩ | ⟨-, hstop, -⟩⟩ := pollUpdate_cases u now installed
    · exact absurd ⟨hrunning, hlate⟩ hnot
    · rw [← hshows.threads]
      exact h.idle hstop
  | _ => trivial

/-- In every run, from everywhere in it at most one script is running and the outcome of a
run is its own, exactly when no restart is overdue while the thread of its run is there. -/
theorem one_run_throughout_iff (s : State) (es : List UpdateEvent) :
    Throughout step SafeOn { store := s } es ↔ EachStep step InTime { store := s } es := by
  refine throughout_iff_eachStep_of (B := fun u _ => Linked u) (fun u e hu hsafe => ?_)
    ((safeOn_iff (linked_start s)).mpr (tracked_start s))
    (eachStep_of_invariant linked_step (linked_start s) es)
  rw [safeOn_iff (linked_step u e hu)]
  exact ⟨inTime_of_tracked, tracked_step ((safeOn_iff hu).mp hsafe) e⟩

/-- The restart takes more than 30 seconds, and the user asks for the update again. -/
theorem second_script :
    ¬ (run step { store := ⟨[], by decide⟩ } [.start true,
      .write ((Update.Status.restarting "v2").text ++ "\n"), .poll 100 "v1", .poll 131 "v1",
      .start true]).Right := by
  decide

/-- The first thread ends in the second run, which then counts as done. -/
example : (run step { store := ⟨[], by decide⟩ } [.start true,
    .write ((Update.Status.restarting "v2").text ++ "\n"), .poll 100 "v1", .poll 131 "v1",
    .start true, .exit 0 0, .storeCode 0, .storeFlag 0, .poll 132 "v1"]).updateRunning = false := by
  decide

end PowerScreen.SysInfo.Updater
