import PowerScreen.Library.FileTree
import PowerScreen.Library.Run

/-! # Installing and removing PowerScreen

The two scripts as they act on the files of the printer. What they do to files of
their own and to the Klipper configuration is left out; directories exist where
they are needed.
-/
namespace PowerScreen.Install
open Library

def backupDir : Path := ["usr", "data", "powerscreen-backup"]

def powerscreenDir : Path := ["usr", "data", "powerscreen"]

def k1Mods (file : String) : Path := powerscreenDir ++ ["k1_mods", file]

def initScript (file : String) : Path := ["etc", "init.d", file]

def backup (file : String) : Path := backupDir ++ [file]

def binary (bin : String) : Path := ["usr", "bin", bin]

def disabled (bin : String) : Path := ["usr", "bin", bin ++ ".disabled"]

def ft2font : String := "ft2font.cpython-38-mipsel-linux-gnu.so"

def ft2fontPath : Path :=
  ["usr", "lib", "python3.8", "site-packages", "matplotlib", ft2font]

def initScripts : List String := ["S50dropbear", "S99start_app"]

def crealityBinaries : List String := ["Monitor", "display-server", "web-server"]

def crealityFiles : List Path :=
  initScripts.map initScript ++ crealityBinaries.map binary ++ [ft2fontPath]

/-- The files of a package that the installer looks at. -/
structure Package (α : Type*) where
  powerscreen : α
  dropbear : α
  ft2font : α

def Package.files {α : Type*} (pkg : Package α) : List (Path × α) :=
  [(powerscreenDir ++ ["powerscreen"], pkg.powerscreen), (k1Mods "S50dropbear", pkg.dropbear),
    (k1Mods Install.ft2font, pkg.ft2font)]

/-- What a run of the installer finds out or is told. -/
structure Answers where
  mips : Bool
  accepted : Bool
  ldVersion : Bool
  moonraker : Bool
  assetFound : Bool
  testStarted : Bool
  started : Bool

def Answers.passes (a : Answers) : Bool :=
  a.mips && a.accepted && a.ldVersion && a.moonraker && a.assetFound && a.testStarted

section
variable {α : Type*}

/-- A file is copied into the backup folder once. -/
def backupFile (file : Path) (t : FileTree α) : FileTree α :=
  if (t file).isNone then t
  else if (t (backup (file.getLastD ""))).isSome then t
  else t.copy file (backup (file.getLastD ""))

def disable (t : FileTree α) (bin : String) : FileTree α :=
  if (t (binary bin)).isSome then t.move (binary bin) (disabled bin) else t

/-- The part of the installer that touches Creality's files; `eggInfo` tells whether
the folder of matplotlib's metadata is there. -/
def replaceCreality (eggInfo : Bool) (t : FileTree α) : FileTree α :=
  let t := backupFile (initScript "S50dropbear") t
  let t := backupFile (initScript "S99start_app") t
  let t := if (t (backup ft2font)).isNone then t.move ft2fontPath (backup ft2font) else t
  let t := t.copy (k1Mods "S50dropbear") (initScript "S50dropbear")
  let t := t.remove (initScript "S99start_app")
  let t := crealityBinaries.foldl disable t
  if eggInfo then t.copy (k1Mods ft2font) ft2fontPath else t

def restoreScript (t : FileTree α) (file : String) : FileTree α :=
  if (t (backup file)).isSome then t.copy (backup file) (initScript file) else t

def enable (t : FileTree α) (bin : String) : FileTree α :=
  if (t (disabled bin)).isSome && (t (binary bin)).isNone then
    t.move (disabled bin) (binary bin)
  else t

/-- `reinstall-creality.sh`; `--yes` keeps the backup folder. -/
def reinstall (delete : Bool) (t : FileTree α) : FileTree α :=
  let t := initScripts.foldl restoreScript t
  let t := crealityBinaries.foldl enable t
  if delete then t.removeAll backupDir else t

variable [DecidableEq α]

/-- `installer.sh`, with its rollback when PowerScreen does not start. -/
def install (eggInfo : Bool) (pkg : Package α) (a : Answers) (t : FileTree α) : FileTree α :=
  if !(a.mips && a.accepted && a.ldVersion && a.moonraker && a.assetFound) then t
  else
    let t := t.writeAll pkg.files
    if (t (powerscreenDir ++ ["powerscreen"])).isNone || !a.testStarted then t
    else
      let t := replaceCreality eggInfo t
      if (t (powerscreenDir ++ ["powerscreen"])).isNone ||
          t (k1Mods "S50dropbear") ≠ t (initScript "S50dropbear") then t
      else if a.started then t else reinstall false t

inductive Event (α : Type*) where
  | install (pkg : Package α) (a : Answers)
  | reinstall (delete : Bool)

def step (eggInfo : Bool) (t : FileTree α) : Event α → FileTree α
  | .install pkg a => install eggInfo pkg a t
  | .reinstall delete => reinstall delete t

end

section
variable {α : Type*}

/-- The copy in the backup folder is the older one. -/
theorem backupFile_apply (file : String) (p : Path) (t : FileTree α) :
    backupFile (initScript file) t p =
      if p = backup file then (t (backup file)).or (t (initScript file)) else t p := by
  have hbase : (initScript file).getLastD "" = file := rfl
  rw [backupFile, hbase]
  by_cases hp : p = backup file
  · subst hp
    cases hfile : t (initScript file) <;> cases hback : t (backup file) <;> simp [hfile, hback]
  · rw [if_neg hp]
    split_ifs
    · rfl
    · rfl
    · rw [FileTree.copy_apply, if_neg hp]

theorem disable_eq (bin : String) (t : FileTree α) :
    disable t bin = t.move (binary bin) (disabled bin) := by
  rw [disable]
  split_ifs with h
  · rfl
  · exact (FileTree.move_of_none (Option.not_isSome_iff_eq_none.mp h) _).symm

theorem restoreScript_eq (file : String) (t : FileTree α) :
    restoreScript t file = t.copy (backup file) (initScript file) := by
  rw [restoreScript]
  split_ifs with h
  · rfl
  · exact (FileTree.copy_of_none (Option.not_isSome_iff_eq_none.mp h) _).symm

/-- A binary that is in place stays, and so does its disabled copy. -/
theorem enable_apply (bin : String) (p : Path) (t : FileTree α) :
    enable t bin p = if p = binary bin then (t (binary bin)).or (t (disabled bin))
      else if p = disabled bin ∧ t (binary bin) = none then none else t p := by
  rw [enable]
  cases hbin : t (binary bin) with
  | none =>
    cases hdis : t (disabled bin) with
    | none => by_cases hp : p = binary bin <;> by_cases hp' : p = disabled bin <;> simp_all
    | some v => simp [hbin, hdis]
  | some v => by_cases hp : p = binary bin <;> simp_all

end

end PowerScreen.Install
