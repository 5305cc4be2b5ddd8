import PowerScreen.Install.Scripts

/-! # What the scripts do to each file

An init script and its backup, and a binary and its disabled copy, are pairs of
places: one of the two holds the original at any time. The font module is moved to
the backup folder once and never comes back from there.
-/
namespace PowerScreen.Install
open Library Library.FileTree

section
variable {α : Type*} (t : FileTree α)

theorem replaceCreality_backup (eggInfo : Bool) {file : String} (hfile : file ∈ initScripts) :
    replaceCreality eggInfo t (backup file) = (t (backup file)).or (t (initScript file)) := by
  simp only [initScripts, List.mem_cons, List.not_mem_nil, or_false] at hfile
  rcases hfile with rfl | rfl
  all_goals
    simp only [replaceCreality, crealityBinaries, disable_eq, backupFile_apply, ite_apply,
      copy_apply, move_apply, remove_apply, List.foldl_cons, List.foldl_nil]
    simp [backup, backupDir, initScript, binary, disabled, ft2fontPath, ft2font]

theorem replaceCreality_binary (eggInfo : Bool) {bin : String} (hbin : bin ∈ crealityBinaries) :
    replaceCreality eggInfo t (binary bin) = none ∧
      replaceCreality eggInfo t (disabled bin) = (t (binary bin)).or (t (disabled bin)) := by
  simp only [crealityBinaries, List.mem_cons, List.not_mem_nil, or_false] at hbin
  rcases hbin with rfl | rfl | rfl
  all_goals
    simp only [replaceCreality, crealityBinaries, disable_eq, backupFile_apply, ite_apply,
      copy_apply, move_apply, remove_apply, List.foldl_cons, List.foldl_nil]
    simp [backup, backupDir, initScript, binary, disabled, ft2fontPath, ft2font]

theorem replaceCreality_backup_ft2font (eggInfo : Bool) :
    replaceCreality eggInfo t (backup ft2font) = (t (backup ft2font)).or (t ft2fontPath) := by
  simp only [replaceCreality, crealityBinaries, disable_eq, backupFile_apply, ite_apply,
    copy_apply, move_apply, remove_apply, List.foldl_cons, List.foldl_nil]
  simp [backup, backupDir, initScript, binary, disabled, ft2fontPath, ft2font]
  cases t ["usr", "data", "powerscreen-backup", "ft2font.cpython-38-mipsel-linux-gnu.so"] <;> simp

/-- Without a backup the module is moved away; then the package's may take its place. -/
theorem replaceCreality_ft2font (eggInfo : Bool) :
    replaceCreality eggInfo t ft2fontPath =
      (if eggInfo then t (k1Mods ft2font) else none).or
        (if (t (backup ft2font)).isNone then none else t ft2fontPath) := by
  simp only [replaceCreality, crealityBinaries, disable_eq, backupFile_apply, ite_apply,
    copy_apply, move_apply, remove_apply, List.foldl_cons, List.foldl_nil]
  cases eggInfo <;>
    simp [backup, backupDir, initScript, binary, disabled, ft2fontPath, ft2font, k1Mods,
      powerscreenDir]

theorem reinstall_script (delete : Bool) {file : String} (hfile : file ∈ initScripts) :
    reinstall delete t (initScript file) = (t (backup file)).or (t (initScript file)) := by
  simp only [initScripts, List.mem_cons, List.not_mem_nil, or_false] at hfile
  rcases hfile with rfl | rfl
  all_goals
    simp only [reinstall, initScripts, crealityBinaries, restoreScript_eq, enable_apply, ite_apply,
      copy_apply, removeAll_apply, List.foldl_cons, List.foldl_nil]
    simp [backup, backupDir, initScript, binary, disabled]

theorem reinstall_backup (delete : Bool) (file : String) :
    reinstall delete t (backup file) = if delete then none else t (backup file) := by
  simp only [reinstall, initScripts, crealityBinaries, restoreScript_eq, enable_apply, ite_apply,
    copy_apply, removeAll_apply, List.foldl_cons, List.foldl_nil]
  simp [backup, backupDir, initScript, binary, disabled]

theorem reinstall_binary (delete : Bool) {bin : String} (hbin : bin ∈ crealityBinaries) :
    reinstall delete t (binary bin) = (t (binary bin)).or (t (disabled bin)) := by
  simp only [crealityBinaries, List.mem_cons, List.not_mem_nil, or_false] at hbin
  rcases hbin with rfl | rfl | rfl
  all_goals
    simp only [reinstall, initScripts, crealityBinaries, restoreScript_eq, enable_apply, ite_apply,
      copy_apply, removeAll_apply, List.foldl_cons, List.foldl_nil]
    simp [backupDir, initScript, binary, disabled]

theorem reinstall_ft2font (delete : Bool) : reinstall delete t ft2fontPath = t ft2fontPath := by
  simp only [reinstall, initScripts, crealityBinaries, restoreScript_eq, enable_apply, ite_apply,
    copy_apply, removeAll_apply, List.foldl_cons, List.foldl_nil]
  simp [backupDir, initScript, binary, disabled, ft2fontPath]

end

section
variable {α : Type*}

theorem powerscreen_extracted (pkg : Package α) (t : FileTree α) :
    t.writeAll pkg.files (powerscreenDir ++ ["powerscreen"]) = some pkg.powerscreen := by
  simp [Package.files, writeAll, powerscreenDir, k1Mods, ft2font]

theorem extracted_ft2font (pkg : Package α) (t : FileTree α) :
    t.writeAll pkg.files (k1Mods ft2font) = some pkg.ft2font := by
  simp [Package.files, writeAll, powerscreenDir, k1Mods, ft2font]

/-- The package lies outside of every place the scripts restore from. -/
theorem extracted_other (pkg : Package α) (t : FileTree α) {p : Path}
    (hp : ¬ powerscreenDir <+: p) : t.writeAll pkg.files p = t p := by
  refine writeAll_apply_of_notMem (fun hmem => hp ?_) t
  obtain ⟨f, hf, rfl⟩ := List.mem_map.mp hmem
  simp only [Package.files, List.mem_cons, List.not_mem_nil, or_false] at hf
  rcases hf with rfl | rfl | rfl <;> exact List.prefix_append _ _

theorem not_prefix_backup (file : String) : ¬ powerscreenDir <+: backup file := by
  simp [powerscreenDir, backup, backupDir]

theorem not_prefix_initScript (file : String) : ¬ powerscreenDir <+: initScript file := by
  simp [powerscreenDir, initScript]

theorem not_prefix_binary (bin : String) : ¬ powerscreenDir <+: binary bin := by
  simp [powerscreenDir, binary]

theorem not_prefix_disabled (bin : String) : ¬ powerscreenDir <+: disabled bin := by
  simp [powerscreenDir, disabled]

theorem not_prefix_ft2font : ¬ powerscreenDir <+: ft2fontPath := by
  simp [powerscreenDir, ft2fontPath]

/-- What `reinstall-creality.sh` would put in the place of an init script. -/
def scriptKept (t : FileTree α) (file : String) : Option α :=
  (t (backup file)).or (t (initScript file))

def binaryKept (t : FileTree α) (bin : String) : Option α :=
  (t (binary bin)).or (t (disabled bin))

theorem replaceCreality_scriptKept (eggInfo : Bool) {t : FileTree α} {file : String}
    (hfile : file ∈ initScripts) {v : α} (h : scriptKept t file = some v) :
    scriptKept (replaceCreality eggInfo t) file = some v := by
  rw [scriptKept, replaceCreality_backup t eggInfo hfile]
  exact Option.or_eq_some_iff.mpr (Or.inl h)

theorem reinstall_scriptKept (delete : Bool) {t : FileTree α} {file : String}
    (hfile : file ∈ initScripts) {v : α} (h : scriptKept t file = some v) :
    scriptKept (reinstall delete t) file = some v := by
  have hplace : reinstall delete t (initScript file) = some v :=
    (reinstall_script t delete hfile).trans h
  rw [scriptKept, hplace, reinstall_backup]
  cases delete with
  | true => rfl
  | false =>
    rw [scriptKept] at h
    cases hback : t (backup file) with
    | none => rfl
    | some w =>
      rw [hback, Option.some_or] at h
      exact h

theorem replaceCreality_binaryKept (eggInfo : Bool) {t : FileTree α} {bin : String}
    (hbin : bin ∈ crealityBinaries) {v : α} (h : binaryKept t bin = some v) :
    binaryKept (replaceCreality eggInfo t) bin = some v := by
  obtain ⟨hplace, hdisabled⟩ := replaceCreality_binary t eggInfo hbin
  rw [binaryKept, hplace, hdisabled, Option.none_or]
  exact h

theorem reinstall_binaryKept (delete : Bool) {t : FileTree α} {bin : String}
    (hbin : bin ∈ crealityBinaries) {v : α} (h : binaryKept t bin = some v) :
    binaryKept (reinstall delete t) bin = some v := by
  rw [binaryKept, reinstall_binary t delete hbin]
  exact Option.or_eq_some_iff.mpr (Or.inl h)

end

end PowerScreen.Install
