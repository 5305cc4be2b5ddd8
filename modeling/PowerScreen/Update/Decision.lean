import Mathlib.Data.String.Basic
import PowerScreen.Library.Run
import PowerScreen.Library.TieBreak
import PowerScreen.Update.Atomicity

/-! # The decision for an update

An update is offered when the latest release differs from what is installed and sorts after
it, or when one of two exceptions holds: a nightly version on the stable channel, and the
old form of nightly versions. After it the installed version is the latest, which ends the
updates until the list of releases changes.
-/
namespace PowerScreen.Update
open Library Library.Run Library.FileTree

section
variable {α : Type*} (c : Setup α)

/-- `sort -V` compares versions, and lines whose versions compare equal as texts. -/
structure Setup.SortsBy (le : String → String → Prop) : Prop where
  preorder : TotalPreorder le
  sortV : ∀ a b, c.sortV a b = true ↔ BreakTies le a b

/-- `a` comes strictly after `b`. -/
def Setup.SortsAfter (a b : String) : Prop := c.sortV a b = false

instance (a b : String) : Decidable (c.SortsAfter a b) := inferInstanceAs (Decidable (_ = _))

/-- The latest version is an update of the current one. -/
def Setup.Offers (channel : Channel) (current latest : String) : Prop :=
  latest ≠ current ∧ (c.SortsAfter latest current ∨ switchingToStable channel current = true ∨
    legacyVersion current = true)

instance (channel : Channel) (current latest : String) :
    Decidable (c.Offers channel current latest) := inferInstanceAs (Decidable (_ ∧ _))

/-- The script has extracted this version to the end. -/
def Result.installed (r : Result α) (version : String) : Prop :=
  r.statuses.getLast? = some (.restarting version)

/-- One run of the script after the other. -/
def Setup.update (t : FileTree α) (env : Env α) : FileTree α := (c.updateSh false env t).files

variable {c}

theorem oldest_eq_latest {le : String → String → Prop} (h : c.SortsBy le) {current latest : String}
    (hne : latest ≠ current) : c.oldest current latest = latest ↔ ¬ c.SortsAfter latest current := by
  have hbefore : c.sortV current latest = true ↔ ¬ c.sortV latest current = true := by
    rw [h.sortV, h.sortV]
    exact (not_breakTies_iff h.preorder hne).symm
  rw [Setup.SortsAfter, Bool.not_eq_false, Setup.oldest]
  by_cases hlatest : c.sortV latest current = true
  · rw [if_neg (fun hcurrent => hbefore.mp hcurrent hlatest)]
    exact iff_of_true rfl hlatest
  · rw [if_pos (hbefore.mpr hlatest)]
    exact iff_of_false hne.symm hlatest

/-- The test of the script, by cases of its two exceptions. -/
theorem upToDate_iff {le : String → String → Prop} (h : c.SortsBy le) (channel : Channel)
    (current latest : String) :
    c.upToDate channel current latest = true ↔ ¬ c.Offers channel current latest := by
  by_cases heq : latest = current
  · simp [Setup.upToDate, Setup.Offers, heq]
  · have holdest := oldest_eq_latest h heq
    cases hlegacy : legacyVersion current <;> cases hswitch : switchingToStable channel current <;>
      simp [Setup.upToDate, Setup.Offers, heq, Ne.symm heq, holdest, hlegacy, hswitch]

theorem latestVersion_of_latest {rs : Releases} {channel : Channel} {latest : String}
    (h : (rs.latest channel).map Release.tagName = some latest) :
    rs.latestVersion channel = latest := by
  cases rs with
  | array rs => rw [Releases.latestVersion, h, Option.getD_some]
  | notArray => cases h
  | unreadable => cases h

theorem check_of_offers {env : Env α} {t : FileTree α}
    (hsome : ¬ noText (env.releases.latestVersion (c.channel t)) = true)
    (hold : ¬ c.upToDate (c.channel t) (c.currentVersion t)
      (env.releases.latestVersion (c.channel t)) = true) :
    (c.updateSh true env t).output =
      ["UPDATE_AVAILABLE:" ++ env.releases.latestVersion (c.channel t)] := by
  rw [updateSh_of_update c hsome hold, if_pos rfl]

theorem check_of_upToDate {env : Env α} {t : FileTree α}
    (hsome : ¬ noText (env.releases.latestVersion (c.channel t)) = true)
    (hcurrent : c.upToDate (c.channel t) (c.currentVersion t)
      (env.releases.latestVersion (c.channel t)) = true) :
    (c.updateSh true env t).output =
      ["UP_TO_DATE:" ++ env.releases.latestVersion (c.channel t)] := by
  rw [Setup.updateSh, if_neg hsome, if_pos hcurrent]
  rfl

theorem available_ne_upToDate (v w : String) : "UPDATE_AVAILABLE:" ++ v ≠ "UP_TO_DATE:" ++ w := by
  intro h
  have hpre := congrArg (fun s => s.toList.take 3) h
  simp at hpre

/-- A check offers the latest version or says that it is installed. -/
theorem check_offers_iff {le : String → String → Prop} (h : c.SortsBy le) {env : Env α}
    {t : FileTree α} (hsome : ¬ noText (env.releases.latestVersion (c.channel t)) = true) :
    (c.updateSh true env t).output =
        ["UPDATE_AVAILABLE:" ++ env.releases.latestVersion (c.channel t)] ↔
      c.Offers (c.channel t) (c.currentVersion t) (env.releases.latestVersion (c.channel t)) := by
  have hiff := upToDate_iff h (c.channel t) (c.currentVersion t)
    (env.releases.latestVersion (c.channel t))
  by_cases hcurrent : c.upToDate (c.channel t) (c.currentVersion t)
      (env.releases.latestVersion (c.channel t)) = true
  · rw [check_of_upToDate hsome hcurrent]
    refine iff_of_false (fun heq => ?_) (hiff.mp hcurrent)
    exact available_ne_upToDate _ _ (List.singleton_inj.mp heq).symm
  · exact iff_of_true (check_of_offers hsome hcurrent) (not_not.mp (mt hiff.mpr hcurrent))

/-- What is installed was offered. -/
theorem offers_of_installed {le : String → String → Prop} (h : c.SortsBy le) {env : Env α}
    {t : FileTree α} {version : String} (hinstalled : (c.updateSh false env t).installed version) :
    c.Offers (c.channel t) (c.currentVersion t) (env.releases.latestVersion (c.channel t)) := by
  by_cases hsome : noText (env.releases.latestVersion (c.channel t)) = true
  · rw [Result.installed, updateSh_of_noText c hsome, lookupFailed] at hinstalled
    split_ifs at hinstalled <;> cases hinstalled
  · by_contra hoffers
    have hcurrent := (upToDate_iff h _ _ _).mpr hoffers
    rw [Result.installed, updateSh_of_upToDate c hsome hcurrent] at hinstalled
    cases hinstalled

/-- Once the latest version is installed, no run of the script changes a file. -/
theorem updates_of_current {env : Env α} {t : FileTree α}
    (hsome : ¬ noText (env.releases.latestVersion (c.channel t)) = true)
    (hcurrent : c.currentVersion t = env.releases.latestVersion (c.channel t))
    {envs : List (Env α)} (henvs : ∀ e ∈ envs, e.releases = env.releases) :
    run c.update t envs = t := by
  refine run_of_forall (I := fun u => u = t) (Q := fun e => e.releases = env.releases)
    (fun u e he hu => ?_) rfl henvs
  have hlatest : c.upToDate (c.channel t) (c.currentVersion t)
      (e.releases.latestVersion (c.channel t)) = true := by
    rw [he, hcurrent]
    simp [Setup.upToDate]
  rw [hu, Setup.update, Setup.updateSh, if_neg (by rw [he]; exact hsome), if_pos hlatest]

/-- The check offers the latest version exactly when it is an update. What is installed was
an update, and once it has recorded its version further runs change nothing. -/
theorem update_decision {le : String → String → Prop} (h : c.SortsBy le) {env : Env α}
    {t : FileTree α} {latest : String}
    (hlatest : (env.releases.latest (c.channel t)).map Release.tagName = some latest)
    (hsome : ¬ noText latest = true) :
    ((c.updateSh true env t).output = ["UPDATE_AVAILABLE:" ++ latest] ↔
        c.Offers (c.channel t) (c.currentVersion t) latest) ∧
      ((c.updateSh false env t).installed latest →
        c.Offers (c.channel t) (c.currentVersion t) latest ∧
          (c.currentVersion (c.update t env) = latest → c.channel (c.update t env) = c.channel t →
            ∀ envs, (∀ e ∈ envs, e.releases = env.releases) →
              run c.update (c.update t env) envs = c.update t env ∧
                ∀ env', env'.releases = env.releases →
                  (c.updateSh true env' (run c.update (c.update t env) envs)).output =
                    ["UP_TO_DATE:" ++ latest])) := by
  have hversion := latestVersion_of_latest hlatest
  subst hversion
  refine ⟨check_offers_iff h hsome, fun hinstalled => ⟨offers_of_installed h hinstalled,
    fun hrecorded hchannel envs henvs => ?_⟩⟩
  rw [← hchannel] at hsome hrecorded
  have hrun := updates_of_current hsome hrecorded henvs
  refine ⟨hrun, fun env' henv => ?_⟩
  rw [hrun, ← hchannel]
  rw [← henv] at hsome hrecorded ⊢
  exact check_of_upToDate hsome (by simp [Setup.upToDate, hrecorded])

end

theorem plain_sortsBy : plain.SortsBy (· ≤ ·) where
  preorder := ⟨le_total, fun _ _ _ => le_trans⟩
  sortV _ _ :=
    ⟨fun h => ⟨of_decide_eq_true h, fun _ => of_decide_eq_true h⟩, fun h => decide_eq_true h.1⟩

/-- The release `v2`, whose package can be extracted. -/
def completes : Env String where
  releases := .array [⟨"v2", false, false, [⟨assetName, "url"⟩]⟩]
  download _ := some package
  extraction := none

/-- An update of `v1` to `v2`. -/
theorem update_decision_v2 :
    ((plain.updateSh true completes v1).output = ["UPDATE_AVAILABLE:" ++ "v2"] ↔
        plain.Offers (plain.channel v1) (plain.currentVersion v1) "v2") ∧
      ((plain.updateSh false completes v1).installed "v2" →
        plain.Offers (plain.channel v1) (plain.currentVersion v1) "v2" ∧
          (plain.currentVersion (plain.update v1 completes) = "v2" →
            plain.channel (plain.update v1 completes) = plain.channel v1 →
            ∀ envs, (∀ e ∈ envs, e.releases = completes.releases) →
              run plain.update (plain.update v1 completes) envs = plain.update v1 completes ∧
                ∀ env', env'.releases = completes.releases →
                  (plain.updateSh true env'
                    (run plain.update (plain.update v1 completes) envs)).output =
                    ["UP_TO_DATE:" ++ "v2"])) :=
  update_decision plain_sortsBy (by decide) (by decide)

/-- The only release has the tag `null`. -/
def taggedNull : Env String where
  releases := .array [⟨"null", false, false, []⟩]
  download _ := none
  extraction := none

/-- A tag that `jq` prints like a missing one is taken for no release. -/
theorem null_tag_not_offered :
    ¬ ∀ (env : Env String) (t : FileTree String) (latest : String),
      (env.releases.latest (plain.channel t)).map Release.tagName = some latest →
        ((plain.updateSh true env t).output = ["UPDATE_AVAILABLE:" ++ latest] ↔
          plain.Offers (plain.channel t) (plain.currentVersion t) latest) := by
  intro h
  have hiff := h taggedNull (fun _ => none) "null" (by decide)
  exact absurd hiff (by decide)

/-- From a nightly to the stable channel the version may go back. -/
example : plain.Offers .stable "v2-nightly" "v2" ∧ ¬ plain.SortsAfter "v2" "v2-nightly" := by
  decide

end PowerScreen.Update
