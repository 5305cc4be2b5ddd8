import PowerScreen.SysInfo.PowerScript

/-! # The upgrade of the Power Script

While an upgrade waits for its reply the card says so, and no check begins. The handler of a
status that was asked for earlier does not look at what the card says: its reply takes the
card out of the upgrade and may offer the same upgrade again.
-/
namespace PowerScreen.SysInfo
open Library Library.Run

/-- A status is read to its end: no version is of another type than text. -/
structure Legible (j : Json) : Prop where
  klipper : (readVersion (versionInfo j) "klipper" "").isSome
  moonraker : (readVersion (versionInfo j) "moonraker" "").isSome
  entry : ((versionInfo j).get powerScriptName).isObject →
    (readEntry ((versionInfo j).get powerScriptName)).isSome

namespace PowerScript

/-- Upgrades without a reply. -/
def upgrades (c : PowerScript) : ℕ := c.pending.count .upgrade

/-- At most one upgrade waits for its reply, and the card stays in it until then. -/
def Exclusive (c : PowerScript) : Prop := c.upgrades ≤ 1 ∧ (0 < c.upgrades → c.state = .updating)

instance (c : PowerScript) : Decidable c.Exclusive := inferInstanceAs (Decidable (_ ∧ _))

/-- The reply to a status arrives only while no upgrade waits for its own. -/
def InTurn (c : PowerScript) : ScriptEvent → Prop
  | .reply i j => c.running → c.pending[i]? = some .status → Legible j → .upgrade ∉ c.pending
  | _ => True

/-- The step takes no part in an upgrade. -/
def Spares (c d : PowerScript) : Prop :=
  d.upgrades = c.upgrades ∧ (c.state = .updating → d.state = .updating)

theorem Exclusive.spares {c d : PowerScript} (h : Exclusive c) (hd : Spares c d) : Exclusive d := by
  obtain ⟨hcount, hstate⟩ := hd
  exact ⟨hcount ▸ h.1, fun hpos => hstate (h.2 (hcount ▸ hpos))⟩

theorem Exclusive.idle {c : PowerScript} (h : Exclusive c) (hst : c.state ≠ .updating) :
    c.upgrades = 0 := by
  by_contra hne
  exact hst (h.2 (Nat.pos_of_ne_zero hne))

theorem upgrades_send (c : PowerScript) (r : Request) :
    (c.send r).upgrades = c.upgrades + if r = .upgrade then 1 else 0 := by
  simp [upgrades, send, List.count_append, List.count_singleton]

theorem checkScriptUpdate_spares (c : PowerScript) (now : UInt32) :
    Spares c (c.checkScriptUpdate now) := by
  unfold checkScriptUpdate
  split_ifs with hclient hst
  · exact ⟨rfl, id⟩
  · exact ⟨rfl, id⟩
  · exact ⟨upgrades_send _ .refresh, fun h => absurd h hst⟩

theorem expire_spares (c : PowerScript) (now : UInt32) : Spares c (c.expire now) := by
  unfold expire
  split_ifs with hlate hst
  · exact ⟨rfl, fun h => ScriptState.noConfusion (h.symm.trans hst)⟩
  · exact ⟨rfl, id⟩
  · exact ⟨rfl, id⟩

theorem pollUpdate_spares (c : PowerScript) (now : UInt32) : Spares c (c.pollUpdate now) := by
  have hexpire := expire_spares c now
  unfold pollUpdate
  dsimp only
  split_ifs
  · exact hexpire
  · exact hexpire

theorem readScriptStatus_spares (c : PowerScript) : Spares c c.readScriptStatus := by
  unfold readScriptStatus
  split_ifs
  · exact ⟨rfl, id⟩
  · exact ⟨upgrades_send _ .status, id⟩

/-- An upgrade is begun from a card that is in none. -/
theorem startScriptUpdate_exclusive {c : PowerScript} (h : c.upgrades = 0) :
    Exclusive c.startScriptUpdate := by
  have hidle : ∀ d : PowerScript, d.upgrades = c.upgrades → Exclusive d := fun d hd =>
    ⟨by omega, fun hpos => absurd hpos (by omega)⟩
  unfold startScriptUpdate
  split_ifs
  · exact hidle c rfl
  · exact hidle _ rfl
  · have hsend := upgrades_send (c.setState .updating "UPDATING...") .upgrade
    have hcount : (c.setState .updating "UPDATING...").upgrades = 0 := h
    exact ⟨by simp [hsend, hcount], fun _ => rfl⟩

theorem handleCallback_exclusive {c : PowerScript} (h : Exclusive c) (now : UInt32) :
    Exclusive (c.handleCallback now) := by
  unfold handleCallback
  split_ifs with hdisabled hst
  · exact h
  · exact startScriptUpdate_exclusive (h.idle (by simp [hst]))
  · exact h.spares (checkScriptUpdate_spares c now)

theorem upgrades_eraseIdx {c : PowerScript} {i : ℕ} {r : Request} (h : c.pending[i]? = some r) :
    ({ c with pending := c.pending.eraseIdx i } : PowerScript).upgrades +
      (if r = .upgrade then 1 else 0) = c.upgrades := by
  obtain ⟨hi, rfl⟩ := List.getElem?_eq_some_iff.mp h
  have hperm := (List.getElem_cons_eraseIdx_perm hi).count_eq Request.upgrade
  simpa [upgrades, List.count_cons] using hperm

theorem readVersion_isSome (versions : Json) (name old : String) :
    (readVersion versions name old).isSome = (readVersion versions name "").isSome := by
  unfold readVersion
  split_ifs <;> rfl

theorem showEntry_state (c : PowerScript) (e : Entry) :
    (c.showEntry e).state ≠ .updating ∧ (c.showEntry e).pending = c.pending := by
  unfold showEntry
  dsimp only
  split_ifs <;> exact ⟨by simp [setState], rfl⟩

/-- The reply to a status takes the card out of an upgrade, if it can be read. -/
theorem statusReply_cases (c : PowerScript) (j : Json) :
    (¬ Legible j ∧ c.statusReply j = none) ∨ (Legible j ∧ ∃ d, c.statusReply j = some d ∧
      d.state ≠ .updating ∧ d.pending = c.pending) := by
  have hklipper := readVersion_isSome (versionInfo j) "klipper" c.klipperVersion
  have hmoonraker := readVersion_isSome (versionInfo j) "moonraker" c.moonrakerVersion
  unfold statusReply
  cases hk : readVersion (versionInfo j) "klipper" c.klipperVersion with
  | none =>
    refine Or.inl ⟨fun hj => ?_, rfl⟩
    simpa [hk] using hklipper.trans hj.klipper
  | some klipper =>
    cases hm : readVersion (versionInfo j) "moonraker" c.moonrakerVersion with
    | none =>
      refine Or.inl ⟨fun hj => ?_, rfl⟩
      simpa [hm] using hmoonraker.trans hj.moonraker
    | some moonraker =>
      rw [hk] at hklipper
      rw [hm] at hmoonraker
      simp only [Option.bind_eq_bind, Option.bind_some]
      split_ifs with hobject
      · cases he : readEntry ((versionInfo j).get powerScriptName) with
        | none => exact Or.inl ⟨fun hj => by simpa [he] using hj.entry hobject, rfl⟩
        | some e =>
          refine Or.inr ⟨⟨hklipper.symm, hmoonraker.symm, fun _ => by rw [he]; rfl⟩, _, rfl, ?_⟩
          exact showEntry_state _ e
      · refine Or.inr ⟨⟨hklipper.symm, hmoonraker.symm, fun h => absurd h hobject⟩, _, rfl, ?_⟩
        exact ⟨by simp [setState], rfl⟩

theorem statusReply_exclusive {c : PowerScript} (h : Exclusive c) {i : ℕ} {j : Json}
    (hi : c.pending[i]? = some .status) :
    Exclusive (c.reply i j) ↔ (Legible j → .upgrade ∉ c.pending) := by
  have hcount := upgrades_eraseIdx hi
  simp only [reduceCtorEq, if_false, Nat.add_zero] at hcount
  have hpending : c.upgrades = 0 ↔ .upgrade ∉ c.pending := List.count_eq_zero
  rw [reply, hi, ← hpending]
  dsimp only
  rcases statusReply_cases { c with pending := c.pending.eraseIdx i } j with
    ⟨hj, hnone⟩ | ⟨hj, d, hsome, hstate, hd⟩
  · rw [hnone]
    exact iff_of_true (h.spares ⟨hcount, id⟩) fun h => absurd h hj
  · have hupgrades : d.upgrades = c.upgrades := by
      rw [← hcount, upgrades, hd]
      rfl
    rw [hsome, Option.getD_some]
    constructor
    · intro hex _
      exact hupgrades ▸ hex.idle hstate
    · intro hidle
      have hzero := hupgrades.trans (hidle hj)
      exact ⟨by omega, fun hpos => absurd hpos (by omega)⟩

theorem reply_exclusive {c : PowerScript} (h : Exclusive c) (i : ℕ) (j : Json) :
    Exclusive (c.reply i j) ↔
      (c.pending[i]? = some .status → Legible j → .upgrade ∉ c.pending) := by
  cases hi : c.pending[i]? with
  | none =>
    have hreply : c.reply i j = c := by rw [reply, hi]
    rw [hreply]
    exact iff_of_true h (by simp)
  | some r =>
    have hcount := upgrades_eraseIdx hi
    cases r with
    | status => simpa using statusReply_exclusive h (j := j) hi
    | refresh =>
      have hreply : c.reply i j =
          ({ c with pending := c.pending.eraseIdx i } : PowerScript).readScriptStatus := by
        rw [reply, hi]
      obtain ⟨hread, hstate⟩ := readScriptStatus_spares { c with pending := c.pending.eraseIdx i }
      rw [hreply]
      exact iff_of_true (h.spares ⟨hread.trans hcount, hstate⟩) (by simp)
    | upgrade =>
      have hle := h.1
      have hkeep : (c.reply i j).upgrades =
          ({ c with pending := c.pending.eraseIdx i } : PowerScript).upgrades := by
        rw [reply, hi]
        dsimp only [upgradeReply]
        split_ifs <;> rfl
      rw [if_pos rfl] at hcount
      have hzero : (c.reply i j).upgrades = 0 := by omega
      exact iff_of_true ⟨by omega, fun hpos => absurd hpos (by omega)⟩ (by simp)

theorem exclusive_step {c : PowerScript} (h : Exclusive c) (e : ScriptEvent) :
    Exclusive (step c e) ↔ InTurn c e := by
  unfold step
  by_cases hrun : c.running
  · rw [if_pos hrun]
    cases e with
    | report r => exact iff_of_true (h.spares ⟨rfl, id⟩) trivial
    | check now => exact iff_of_true (h.spares (checkScriptUpdate_spares c now)) trivial
    | tap now => exact iff_of_true (handleCallback_exclusive h now) trivial
    | poll now => exact iff_of_true (h.spares (pollUpdate_spares c now)) trivial
    | reply i j =>
      have hturn : InTurn c (.reply i j) ↔
          (c.pending[i]? = some .status → Legible j → .upgrade ∉ c.pending) :=
        ⟨fun h => h hrun, fun h _ => h⟩
      rw [hturn]
      exact reply_exclusive h i j
  · rw [if_neg hrun]
    cases e with
    | reply i j => exact iff_of_true h fun hr => absurd hr hrun
    | _ => exact iff_of_true h trivial

theorem exclusive_start (s : State) (client : Bool) :
    Exclusive { store := s, client := client } :=
  ⟨Nat.zero_le 1, fun h => absurd h (lt_irrefl 0)⟩

/-- In every run, upgrades are exclusive exactly when no status is answered during one. -/
theorem exclusive_throughout_iff (s : State) (client : Bool) (es : List ScriptEvent) :
    Throughout step Exclusive { store := s, client := client } es ↔
      EachStep step InTurn { store := s, client := client } es :=
  throughout_iff_eachStep (P := Exclusive) (fun _ e h => exclusive_step h e)
    (exclusive_start s client) es

def behind : Json := .obj [("result", .obj [("version_info",
  .obj [(powerScriptName, .obj [("remote_version", .str "v2"), ("version", .str "v1")])])])]

/-- Two checks are under way; the first offers the upgrade, and the status of the second
arrives during it and offers it once more. -/
theorem second_upgrade :
    ¬ (run step { store := ⟨[], by decide⟩, client := true } [.check 1, .check 2,
      .reply 0 .null, .reply 1 behind, .poll 3, .tap 4, .poll 5, .reply 0 .null, .reply 1 behind,
      .poll 6, .tap 7]).Exclusive := by
  decide

end PowerScript

end PowerScreen.SysInfo
