import PowerScreen.Update.Script

/-! # Failed updates

An update that ends with an error has changed files only if `tar` failed in the
middle of the package. All other errors are found before anything is extracted, and
a following check looks at the same installation.
-/
namespace PowerScreen.Update
open Library Library.FileTree

section
variable {α : Type*} (c : Setup α)

/-- What a check answers after a run that ended with an error. -/
def answerAfter (latest : String) : Reason → String
  | .noStableRelease => "UP_TO_DATE:no stable release"
  | .unreachable => "UPDATE_CHECK_FAILED"
  | .noPackage _ | .downloadFailed | .notExtracted => "UPDATE_AVAILABLE:" ++ latest

/-- The script ends with this error. -/
def Result.failedWith (r : Result α) (reason : Reason) : Prop :=
  r.statuses.getLast? = some (.error reason)

instance (r : Result α) (reason : Reason) : Decidable (r.failedWith reason) :=
  inferInstanceAs (Decidable (_ = _))

/-- Files that the channel and the installed version are read from are not among these. -/
def Setup.sparesVersion (written : List (Path × α)) : Prop :=
  c.versionFile ∉ written.map Prod.fst ∧ c.configFile ∉ written.map Prod.fst

/-- The check depends on the releases and on two files. -/
theorem check_output_congr {env env' : Env α} (henv : env'.releases = env.releases)
    {t u : FileTree α} (hversion : u c.versionFile = t c.versionFile)
    (hconfig : u c.configFile = t c.configFile) :
    (c.updateSh true env' u).output = (c.updateSh true env t).output := by
  have hchannel : c.channel u = c.channel t := by rw [Setup.channel, Setup.channel, hconfig]
  have hcurrent : c.currentVersion u = c.currentVersion t := by
    rw [Setup.currentVersion, Setup.currentVersion, hversion]
  simp only [Setup.updateSh, hchannel, hcurrent, henv, lookupFailed]
  split_ifs <;> rfl

theorem check_output_writeAll {env env' : Env α} (henv : env'.releases = env.releases)
    {written : List (Path × α)} (hspares : c.sparesVersion written) (t : FileTree α) :
    (c.updateSh true env' (t.writeAll written)).output = (c.updateSh true env t).output :=
  check_output_congr c henv (writeAll_apply_of_notMem hspares.1 t)
    (writeAll_apply_of_notMem hspares.2 t)

/-- The errors after the decision for an update, and what has been written by then. -/
theorem downloadAndExtract_failed {channel : Channel} {latest : String} {env : Env α}
    {t : FileTree α} {reason : Reason}
    (h : (c.downloadAndExtract channel latest env t).failedWith reason) :
    (c.downloadAndExtract channel latest env t).files = t ∧
        (reason = .noPackage latest ∨ reason = .downloadFailed) ∨
      reason = .notExtracted ∧ ∃ url archive k, env.download url = some archive ∧
        env.extraction = some k ∧
        (c.downloadAndExtract channel latest env t).files = t.writeAll (archive.take k) := by
  rw [Setup.downloadAndExtract] at h ⊢
  split_ifs at h ⊢ with hurl
  · cases h
    exact Or.inl ⟨rfl, Or.inl rfl⟩
  · cases hdownload : env.download (((env.releases.latest channel).map assetUrl).getD "") with
    | none =>
      simp only [hdownload] at h ⊢
      cases h
      exact Or.inl ⟨trivial, Or.inr rfl⟩
    | some archive =>
      cases hextraction : env.extraction with
      | none =>
        simp only [hdownload, hextraction] at h
        cases h
      | some k =>
        simp only [hdownload, hextraction] at h ⊢
        cases h
        exact Or.inr ⟨rfl, _, archive, k, hdownload, rfl, rfl⟩

theorem lookupFailed_files (checkOnly : Bool) (channel : Channel) (env : Env α)
    (t : FileTree α) : (lookupFailed checkOnly channel env t).files = t := by
  rw [lookupFailed]
  split_ifs <;> rfl

theorem lookupFailed_failed {channel : Channel} {env : Env α} {t : FileTree α} {reason : Reason}
    (h : (lookupFailed false channel env t).failedWith reason) (latest : String) :
    (lookupFailed true channel env t).output = [answerAfter latest reason] ∧
      reason ≠ .notExtracted := by
  rw [lookupFailed] at h ⊢
  split_ifs at h ⊢ with hstable
  · cases h
    exact ⟨rfl, nofun⟩
  · cases h
    exact ⟨rfl, nofun⟩

theorem updateSh_of_noText {checkOnly : Bool} {env : Env α} {t : FileTree α}
    (h : noText (env.releases.latestVersion (c.channel t)) = true) :
    c.updateSh checkOnly env t = lookupFailed checkOnly (c.channel t) env t := if_pos h

theorem updateSh_of_upToDate {checkOnly : Bool} {env : Env α} {t : FileTree α}
    (h : ¬ noText (env.releases.latestVersion (c.channel t)) = true)
    (hcurrent : c.upToDate (c.channel t) (c.currentVersion t)
      (env.releases.latestVersion (c.channel t)) = true) :
    (c.updateSh checkOnly env t).statuses = setStatus checkOnly
      [.checking, .upToDate (env.releases.latestVersion (c.channel t))] := by
  rw [Setup.updateSh, if_neg h, if_pos hcurrent]

theorem updateSh_of_update {checkOnly : Bool} {env : Env α} {t : FileTree α}
    (h : ¬ noText (env.releases.latestVersion (c.channel t)) = true)
    (hold : ¬ c.upToDate (c.channel t) (c.currentVersion t)
      (env.releases.latestVersion (c.channel t)) = true) :
    c.updateSh checkOnly env t = if checkOnly then
        ⟨t, [], ["UPDATE_AVAILABLE:" ++ env.releases.latestVersion (c.channel t)], 0⟩
      else c.downloadAndExtract (c.channel t) (env.releases.latestVersion (c.channel t)) env t := by
  rw [Setup.updateSh, if_neg h, if_neg hold]

theorem not_failed_of_upToDate {env : Env α} {t : FileTree α} {reason : Reason}
    (h : (c.updateSh false env t).failedWith reason)
    (hsome : ¬ noText (env.releases.latestVersion (c.channel t)) = true) :
    ¬ c.upToDate (c.channel t) (c.currentVersion t)
      (env.releases.latestVersion (c.channel t)) = true := by
  intro hcurrent
  rw [Result.failedWith, updateSh_of_upToDate c hsome hcurrent] at h
  cases h

/-- Where a run ends with an error, the check on the files of before answers for it. -/
theorem failed_update_decision {env : Env α} {t : FileTree α} {reason : Reason}
    (h : (c.updateSh false env t).failedWith reason) :
    (c.updateSh true env t).output =
      [answerAfter (env.releases.latestVersion (c.channel t)) reason] := by
  by_cases hnone : noText (env.releases.latestVersion (c.channel t)) = true
  · rw [updateSh_of_noText c hnone] at h ⊢
    exact (lookupFailed_failed h _).1
  · have hold := not_failed_of_upToDate c h hnone
    rw [updateSh_of_update c hnone hold] at h ⊢
    rcases downloadAndExtract_failed c h with ⟨-, rfl | rfl⟩ | ⟨rfl, -⟩ <;> rfl

theorem failed_update_files {env : Env α} {t : FileTree α} {reason : Reason}
    (h : (c.updateSh false env t).failedWith reason) :
    (c.updateSh false env t).files = t ∧ reason ≠ .notExtracted ∨
      reason = .notExtracted ∧ ∃ url archive k, env.download url = some archive ∧
        env.extraction = some k ∧
        (c.updateSh false env t).files = t.writeAll (archive.take k) := by
  by_cases hnone : noText (env.releases.latestVersion (c.channel t)) = true
  · rw [updateSh_of_noText c hnone] at h ⊢
    exact Or.inl ⟨lookupFailed_files false _ env t, (lookupFailed_failed h "").2⟩
  · have hold := not_failed_of_upToDate c h hnone
    rw [updateSh_of_update c hnone hold] at h ⊢
    rcases downloadAndExtract_failed c h with ⟨hfiles, hreason⟩ | hextract
    · refine Or.inl ⟨hfiles, ?_⟩
      rcases hreason with rfl | rfl <;> nofun
    · exact Or.inr hextract

/-- A failed update leaves the files as they were, up to those that `tar` had
extracted when it failed; unless these tell the version or the channel, a following
check on the same releases answers as if nothing had happened. -/
theorem failed_update {env : Env α} {t : FileTree α} {reason : Reason}
    (h : (c.updateSh false env t).failedWith reason) :
    ∃ written, (c.updateSh false env t).files = t.writeAll written ∧
      (written ≠ [] → reason = .notExtracted ∧ ∃ url archive k,
        env.download url = some archive ∧ env.extraction = some k ∧ written = archive.take k) ∧
      (c.sparesVersion written → ∀ env' : Env α, env'.releases = env.releases →
        (c.updateSh true env' (c.updateSh false env t).files).output =
          [answerAfter (env.releases.latestVersion (c.channel t)) reason]) := by
  have hdecision := failed_update_decision c h
  rcases failed_update_files c h with ⟨hfiles, -⟩ | ⟨hreason, url, archive, k, hd, he, hfiles⟩
  · refine ⟨[], hfiles, fun hne => absurd rfl hne, fun hspares env' henv => ?_⟩
    rw [hfiles, ← hdecision]
    exact check_output_writeAll c henv hspares t
  · refine ⟨archive.take k, hfiles, fun _ => ⟨hreason, url, archive, k, hd, he, rfl⟩,
      fun hspares env' henv => ?_⟩
    rw [hfiles, ← hdecision]
    exact check_output_writeAll c henv hspares t

/-- An error leaves every file as it was, and the update is offered again. -/
def Setup.Atomic (env : Env α) (t : FileTree α) : Prop :=
  ∀ reason, (c.updateSh false env t).failedWith reason →
    (c.updateSh false env t).files = t ∧
      ∀ env' : Env α, env'.releases = env.releases → ∃ version,
        (c.updateSh true env' (c.updateSh false env t).files).output =
          ["UPDATE_AVAILABLE:" ++ version]

end

/-- Files are texts, and a version file is its version. -/
def plain : Setup String where
  dir := "powerscreen"
  version := id
  updateChannel := id
  sortV a b := a ≤ b
  customUpgrade := id

def v1 : FileTree String := FileTree.write ["powerscreen", ".version"] "v1" fun _ => none

def package : List (Path × String) :=
  [(["powerscreen", ".version"], "v2"), (["powerscreen", "powerscreen"], "binary")]

/-- The release `v2`, whose package breaks off after its first file. -/
def breaksOff : Env String where
  releases := .array [⟨"v2", false, false, [⟨assetName, "url"⟩]⟩]
  download _ := some package
  extraction := some 1

def withoutPackage : Env String where
  releases := .array [⟨"v2", false, false, []⟩]
  download _ := none
  extraction := none

/-- After the version file was extracted, the broken installation counts as current. -/
theorem broken_package_is_current : ¬ plain.Atomic breaksOff v1 := by
  intro h
  have hfailed : (plain.updateSh false breaksOff v1).failedWith .notExtracted := by
    decide
  obtain ⟨version, hv⟩ := (h _ hfailed).2 breaksOff rfl
  have hcheck : (plain.updateSh true breaksOff (plain.updateSh false breaksOff v1).files).output =
      ["UP_TO_DATE:v2"] := by decide
  rw [hcheck, List.cons.injEq] at hv
  have hpre := congrArg (fun s => s.toList.take 3) hv.1
  simp at hpre

/-- A release without a package. -/
theorem failed_update_no_package :
    ∃ written, (plain.updateSh false withoutPackage v1).files = v1.writeAll written ∧
      (written ≠ [] → Reason.noPackage "v2" = .notExtracted ∧ ∃ url archive k,
        withoutPackage.download url = some archive ∧ withoutPackage.extraction = some k ∧
          written = archive.take k) ∧
      (plain.sparesVersion written → ∀ env' : Env String,
        env'.releases = withoutPackage.releases →
        (plain.updateSh true env' (plain.updateSh false withoutPackage v1).files).output =
          [answerAfter (withoutPackage.releases.latestVersion (plain.channel v1))
            (.noPackage "v2")]) :=
  failed_update plain (by decide)

end PowerScreen.Update
