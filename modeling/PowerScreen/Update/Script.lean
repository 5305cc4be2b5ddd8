import PowerScreen.Library.FileTree

/-! # The update script

`update.sh` looks up the latest release of the configured channel, downloads its
package and extracts it over the installation; `update.sh --check` stops before the
download. Files are those below the folder that holds the installation. What the
script does to the Klipper and Moonraker configuration is left out.
-/
namespace PowerScreen.Update
open Library

inductive Channel where
  | stable
  | nightly
deriving DecidableEq

structure Asset where
  name : String
  browserDownloadUrl : String

structure Release where
  tagName : String
  prerelease : Bool
  draft : Bool
  assets : List Asset

/-- The answer to the request for the releases, as `jq` sees it. -/
inductive Releases where
  | unreadable
  | notArray
  | array (rs : List Release)

def releaseFilter (c : Channel) (r : Release) : Bool :=
  match c with
  | .stable => r.prerelease = false && r.draft = false
  | .nightly => r.draft = false

def Releases.isArray : Releases → Bool
  | .array _ => true
  | _ => false

def Releases.latest (c : Channel) : Releases → Option Release
  | .array rs => rs.find? (releaseFilter c)
  | _ => none

/-- What `jq` prints for the tag; nothing or `null` means that there is none. -/
def Releases.latestVersion (c : Channel) : Releases → String
  | .array rs => (((Releases.array rs).latest c).map Release.tagName).getD "null"
  | _ => ""

def noText (s : String) : Bool := s = "" || s = "null"

def assetName : String := "powerscreen-zbolt.tar.gz"

/-- One line for each asset of that name. -/
def assetUrl (r : Release) : String :=
  "\n".intercalate ((r.assets.filter (·.name = assetName)).map Asset.browserDownloadUrl)

inductive Reason where
  | noStableRelease
  | unreachable
  | noPackage (version : String)
  | downloadFailed
  | notExtracted
deriving DecidableEq

def Reason.text : Reason → String
  | .noStableRelease => "No stable release published yet"
  | .unreachable => "Could not reach GitHub"
  | .noPackage version => "Release " ++ version ++ " has no package"
  | .downloadFailed => "Download failed"
  | .notExtracted => "Could not extract package"

/-- The phases the update screen reads. -/
inductive Status where
  | checking
  | downloading (version : String)
  | extracting (version : String)
  | restarting (version : String)
  | upToDate (version : String)
  | error (reason : Reason)
deriving DecidableEq

def Status.text : Status → String
  | .checking => "CHECKING"
  | .downloading version => "DOWNLOADING:" ++ version
  | .extracting version => "EXTRACTING:" ++ version
  | .restarting version => "RESTARTING:" ++ version
  | .upToDate version => "UP_TO_DATE:" ++ version
  | .error reason => "ERROR:" ++ reason.text

/-- What a run meets outside of the installation. A download succeeds with an
archive that can be listed; the extraction may fail after some of its files. -/
structure Env (α : Type*) where
  releases : Releases
  download : String → Option (List (Path × α))
  extraction : Option ℕ

structure Result (α : Type*) where
  files : FileTree α
  statuses : List Status
  output : List String
  exitCode : ℕ

/-- The installation's folder, what `jq` and `sort -V` answer, and what the script
for custom upgrades does. -/
structure Setup (α : Type*) where
  dir : String
  version : α → String
  updateChannel : α → String
  sortV : String → String → Bool
  customUpgrade : FileTree α → FileTree α

section
variable {α : Type*} (c : Setup α)

def Setup.versionFile : Path := [c.dir, ".version"]

def Setup.configFile : Path := [c.dir, "powerscreenconfig.json"]

def Setup.channel (t : FileTree α) : Channel :=
  if (t c.configFile).map c.updateChannel = some "stable" then .stable else .nightly

def Setup.currentVersion (t : FileTree α) : String :=
  ((t c.versionFile).map c.version).getD ""

def legacyVersion (current : String) : Bool := "nightly-".toList <+: current.toList

def switchingToStable (channel : Channel) (current : String) : Bool :=
  "-nightly".toList <:+: current.toList && channel = .stable

/-- The first of two versions in the order of `sort -V`. -/
def Setup.oldest (a b : String) : String := if c.sortV a b then a else b

def Setup.upToDate (channel : Channel) (current latest : String) : Bool :=
  current = latest ||
    (!legacyVersion current && !switchingToStable channel current &&
      c.oldest current latest = latest)

/-- With `CHECK_ONLY` no status is written. -/
def setStatus (checkOnly : Bool) (statuses : List Status) : List Status :=
  if checkOnly then [] else statuses

def Channel.text : Channel → String
  | .stable => "stable"
  | .nightly => "nightly"

/-- No tag was found. -/
def lookupFailed (checkOnly : Bool) (channel : Channel) (env : Env α) (t : FileTree α) : Result α :=
  if channel = .stable && env.releases.isArray then
    ⟨t, setStatus checkOnly [.checking, .error .noStableRelease],
      ["UP_TO_DATE:no stable release"], 0⟩
  else
    ⟨t, setStatus checkOnly [.checking, .error .unreachable], ["UPDATE_CHECK_FAILED"], 1⟩

def Setup.afterExtraction (t : FileTree α) : FileTree α :=
  if (t [c.dir, "custom_upgrade.sh"]).isSome then c.customUpgrade t else t

def Setup.downloadAndExtract (channel : Channel) (latest : String) (env : Env α)
    (t : FileTree α) : Result α :=
  let url := ((env.releases.latest channel).map assetUrl).getD ""
  if noText url then ⟨t, [.checking, .error (.noPackage latest)], [], 1⟩
  else
    let downloading := "Downloading " ++ channel.text ++ " version " ++ latest ++ ", " ++ url
    match env.download url with
    | none => ⟨t, [.checking, .downloading latest, .error .downloadFailed], [downloading], 1⟩
    | some archive =>
      match env.extraction with
      | some k =>
        ⟨t.writeAll (archive.take k),
          [.checking, .downloading latest, .extracting latest, .error .notExtracted],
          [downloading], 1⟩
      | none =>
        ⟨c.afterExtraction (t.writeAll archive),
          [.checking, .downloading latest, .extracting latest, .restarting latest],
          [downloading, "Updated PowerScreen to version " ++ latest], 0⟩

/-- `update.sh`, with `--check` or without an argument. -/
def Setup.updateSh (checkOnly : Bool) (env : Env α) (t : FileTree α) : Result α :=
  let channel := c.channel t
  let current := c.currentVersion t
  let latest := env.releases.latestVersion channel
  if noText latest then lookupFailed checkOnly channel env t
  else if c.upToDate channel current latest then
    ⟨t, setStatus checkOnly [.checking, .upToDate latest],
      if checkOnly then ["UP_TO_DATE:" ++ latest]
      else ["Current version " ++ current ++ " is up to date (" ++ channel.text ++ ")."], 0⟩
  else if checkOnly then ⟨t, [], ["UPDATE_AVAILABLE:" ++ latest], 0⟩
  else c.downloadAndExtract channel latest env t

end

end PowerScreen.Update
