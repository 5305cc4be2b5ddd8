import PowerScreen.Install.Effects

/-! # The round trip of Creality's files

After any runs of the two scripts that end with `reinstall-creality.sh`, every file
of Creality is back exactly when the backup folder held no other init scripts at
the start and the font module was never lost: `reinstall-creality.sh` restores the
init scripts and the binaries, but not the font module.
-/
namespace PowerScreen.Install
open Library Library.FileTree Library.Run

section
variable {α : Type*}

/-- Creality's files are in place. -/
structure Printer (α : Type*) where
  files : FileTree α
  inPlace : ∀ p ∈ crealityFiles, (files p).isSome

theorem or_eq_right_iff {a : Option α} {v : α} :
    a.or (some v) = some v ↔ a = none ∨ a = some v := by
  cases a <;> simp

/-- Every file of Creality is where it was. -/
def Restored (p : Printer α) (t : FileTree α) : Prop :=
  ∀ file ∈ crealityFiles, t file = p.files file

theorem restored_iff {p : Printer α} {t : FileTree α} : Restored p t ↔
    (∀ file ∈ initScripts, t (initScript file) = p.files (initScript file)) ∧
    (∀ bin ∈ crealityBinaries, t (binary bin) = p.files (binary bin)) ∧
    t ft2fontPath = p.files ft2fontPath := by
  simp only [Restored, crealityFiles, List.mem_append, List.mem_map, List.mem_singleton]
  constructor
  · intro h
    exact ⟨fun file hf => h _ (Or.inl (Or.inl ⟨file, hf, rfl⟩)),
      fun bin hb => h _ (Or.inl (Or.inr ⟨bin, hb, rfl⟩)), h _ (Or.inr rfl)⟩
  · rintro ⟨hs, hb, hf⟩ file ((⟨f, hmem, rfl⟩ | ⟨b, hmem, rfl⟩) | rfl)
    · exact hs f hmem
    · exact hb b hmem
    · exact hf

theorem Printer.script (p : Printer α) {file : String} (hfile : file ∈ initScripts) :
    ∃ v, p.files (initScript file) = some v := by
  refine Option.isSome_iff_exists.mp (p.inPlace _ ?_)
  simp only [crealityFiles, List.mem_append, List.mem_map]
  exact Or.inl (Or.inl ⟨file, hfile, rfl⟩)

theorem Printer.binary (p : Printer α) {bin : String} (hbin : bin ∈ crealityBinaries) :
    ∃ v, p.files (binary bin) = some v := by
  refine Option.isSome_iff_exists.mp (p.inPlace _ ?_)
  simp only [crealityFiles, List.mem_append, List.mem_map]
  exact Or.inl (Or.inr ⟨bin, hbin, rfl⟩)

theorem Printer.ft2font (p : Printer α) : ∃ v, p.files ft2fontPath = some v := by
  refine Option.isSome_iff_exists.mp (p.inPlace _ ?_)
  exact List.mem_append_right _ List.mem_cons_self

/-- The font module a package leaves behind where matplotlib's metadata is there. -/
def shipped (original : Option α) (es : List (Event α)) : Option α :=
  es.foldl (fun v e => match e with
    | .install pkg a => if a.passes then some pkg.ft2font else v
    | .reinstall _ => v) original

/-- Every installation that gets through finds the font module in the backup folder. -/
def BackedUp : Bool → List (Event α) → Prop
  | _, [] => True
  | has, .install _ a :: es => (a.passes = true → has = true) ∧ BackedUp has es
  | has, .reinstall delete :: es => BackedUp (has && !delete) es

theorem backedUp_install {has : Bool} {pkg : Package α} {a : Answers} {es : List (Event α)} :
    BackedUp has (.install pkg a :: es) ↔ (a.passes = true → has = true) ∧ BackedUp has es :=
  Iff.rfl

/-- Nothing of Creality's is lost for good. -/
structure Recoverable (eggInfo : Bool) (t : FileTree α) (es : List (Event α)) : Prop where
  scripts : ∀ file ∈ initScripts,
    t (backup file) = none ∨ t (backup file) = t (initScript file)
  ft2font : if eggInfo then shipped (t ft2fontPath) es = t ft2fontPath
    else BackedUp (t (backup Install.ft2font)).isSome es

end

section
variable {α : Type*} [DecidableEq α]

/-- An installation that is refused does not touch files outside the package. -/
theorem install_of_not_passes (eggInfo : Bool) (pkg : Package α) {a : Answers}
    (ha : a.passes = false) (t : FileTree α) :
    install eggInfo pkg a t = t ∨ install eggInfo pkg a t = t.writeAll pkg.files := by
  rw [install]
  by_cases hchecks : (a.mips && a.accepted && a.ldVersion && a.moonraker && a.assetFound) = true
  · rw [Answers.passes, hchecks, Bool.true_and] at ha
    right
    simp [hchecks, ha]
  · left
    rw [Bool.not_eq_true] at hchecks
    simp [hchecks]

/-- Any other installation replaces Creality's files; it may roll back after that. -/
theorem install_of_passes (eggInfo : Bool) (pkg : Package α) {a : Answers}
    (ha : a.passes = true) (t : FileTree α) :
    install eggInfo pkg a t = replaceCreality eggInfo (t.writeAll pkg.files) ∨
      install eggInfo pkg a t =
        reinstall false (replaceCreality eggInfo (t.writeAll pkg.files)) := by
  rw [Answers.passes, Bool.and_eq_true] at ha
  obtain ⟨hchecks, htest⟩ := ha
  rw [install]
  simp only [hchecks, htest, powerscreen_extracted, Bool.not_true, Option.isNone_some,
    Bool.or_self, Bool.false_eq_true, if_false]
  split_ifs
  · exact Or.inl rfl
  · exact Or.inl rfl
  · exact Or.inr rfl

/-- A property of the places outside the package that both scripts keep holds after any event. -/
theorem step_keeps {P : FileTree α → Prop} {eggInfo : Bool}
    (hextract : ∀ t (pkg : Package α), P t → P (t.writeAll pkg.files))
    (hreplace : ∀ t, P t → P (replaceCreality eggInfo t))
    (hreinstall : ∀ delete t, P t → P (reinstall delete t)) (t : FileTree α) (e : Event α)
    (h : P t) : P (step eggInfo t e) := by
  cases e with
  | install pkg a =>
    rw [step]
    cases ha : a.passes with
    | false =>
      rcases install_of_not_passes eggInfo pkg ha t with heq | heq <;> rw [heq]
      · exact h
      · exact hextract t pkg h
    | true =>
      have hreplaced := hreplace _ (hextract t pkg h)
      rcases install_of_passes eggInfo pkg ha t with heq | heq <;> rw [heq]
      · exact hreplaced
      · exact hreinstall false _ hreplaced
  | reinstall delete => exact hreinstall delete t h

theorem run_scriptKept (eggInfo : Bool) {t : FileTree α} {file : String}
    (hfile : file ∈ initScripts) {v : α} (h : scriptKept t file = some v) (es : List (Event α)) :
    scriptKept (run (step eggInfo) t es) file = some v := by
  refine run_of_step (P := fun t => scriptKept t file = some v)
    (step_keeps (fun t pkg ht => ?_) (fun t ht => replaceCreality_scriptKept eggInfo hfile ht)
      (fun delete t ht => reinstall_scriptKept delete hfile ht)) h es
  rw [scriptKept, extracted_other pkg t (not_prefix_backup file),
    extracted_other pkg t (not_prefix_initScript file)]
  exact ht

theorem run_binaryKept (eggInfo : Bool) {t : FileTree α} {bin : String}
    (hbin : bin ∈ crealityBinaries) {v : α} (h : binaryKept t bin = some v)
    (es : List (Event α)) : binaryKept (run (step eggInfo) t es) bin = some v := by
  refine run_of_step (P := fun t => binaryKept t bin = some v)
    (step_keeps (fun t pkg ht => ?_) (fun t ht => replaceCreality_binaryKept eggInfo hbin ht)
      (fun delete t ht => reinstall_binaryKept delete hbin ht)) h es
  rw [binaryKept, extracted_other pkg t (not_prefix_binary bin),
    extracted_other pkg t (not_prefix_disabled bin)]
  exact ht

theorem install_ft2font (eggInfo : Bool) (pkg : Package α) {a : Answers} (ha : a.passes = true)
    (t : FileTree α) : install eggInfo pkg a t ft2fontPath =
      (if eggInfo then some pkg.ft2font else none).or
        (if (t (backup ft2font)).isNone then none else t ft2fontPath) := by
  have hreplaced := replaceCreality_ft2font (t.writeAll pkg.files) eggInfo
  rw [extracted_ft2font, extracted_other pkg t (not_prefix_backup ft2font),
    extracted_other pkg t not_prefix_ft2font] at hreplaced
  rcases install_of_passes eggInfo pkg ha t with heq | heq
  · rw [heq, hreplaced]
  · rw [heq, reinstall_ft2font, hreplaced]

theorem install_backup_ft2font (eggInfo : Bool) (pkg : Package α) {a : Answers}
    (ha : a.passes = true) (t : FileTree α) : install eggInfo pkg a t (backup ft2font) =
      (t (backup ft2font)).or (t ft2fontPath) := by
  have hreplaced := replaceCreality_backup_ft2font (t.writeAll pkg.files) eggInfo
  rw [extracted_other pkg t (not_prefix_backup ft2font),
    extracted_other pkg t not_prefix_ft2font] at hreplaced
  rcases install_of_passes eggInfo pkg ha t with heq | heq
  · rw [heq, hreplaced]
  · rw [heq, reinstall_backup, if_neg Bool.false_ne_true, hreplaced]

theorem refused_other (eggInfo : Bool) (pkg : Package α) {a : Answers} (ha : a.passes = false)
    (t : FileTree α) {p : Path} (hp : ¬ powerscreenDir <+: p) :
    install eggInfo pkg a t p = t p := by
  rcases install_of_not_passes eggInfo pkg ha t with heq | heq
  · rw [heq]
  · rw [heq, extracted_other pkg t hp]

/-- With the metadata there, the module is the one of the last package. -/
theorem run_ft2font_shipped (t : FileTree α) (es : List (Event α)) :
    run (step true) t es ft2fontPath = shipped (t ft2fontPath) es := by
  induction es generalizing t with
  | nil => rfl
  | cons e es ih =>
    rw [run_cons, ih]
    change _ = shipped _ es
    congr 1
    cases e with
    | install pkg a =>
      dsimp only [step]
      cases ha : a.passes with
      | false =>
        rw [refused_other true pkg ha t not_prefix_ft2font]
        rfl
      | true =>
        rw [install_ft2font true pkg ha t, if_pos rfl, Option.some_or]
        rfl
    | reinstall delete => exact reinstall_ft2font t delete

theorem step_ft2font_missing {t : FileTree α} (h : t ft2fontPath = none) (e : Event α) :
    step false t e ft2fontPath = none := by
  cases e with
  | install pkg a =>
    rw [step]
    cases ha : a.passes with
    | false => rw [refused_other false pkg ha t not_prefix_ft2font, h]
    | true =>
      rw [install_ft2font false pkg ha t, h, if_neg Bool.false_ne_true, Option.none_or, ite_self]
  | reinstall delete => exact (reinstall_ft2font t delete).trans h

/-- Without it, the module survives only where it is never moved away. -/
theorem run_ft2font_iff {t : FileTree α} {v : α} (h : t ft2fontPath = some v)
    (es : List (Event α)) : run (step false) t es ft2fontPath = some v ↔
      BackedUp (t (backup ft2font)).isSome es := by
  induction es generalizing t with
  | nil => simp [h, BackedUp]
  | cons e es ih =>
    rw [run_cons]
    cases e with
    | install pkg a =>
      rw [backedUp_install, step]
      cases ha : a.passes with
      | false =>
        have hplace := (refused_other false pkg ha t not_prefix_ft2font).trans h
        rw [ih hplace, refused_other false pkg ha t (not_prefix_backup ft2font)]
        simp
      | true =>
        have hplace := install_ft2font false pkg ha t
        have hback := install_backup_ft2font false pkg ha t
        rw [h] at hback
        cases hb : t (backup ft2font) with
        | none =>
          have hlost : install false pkg a t ft2fontPath = none := by rw [hplace, hb]; rfl
          have hnever : run (step false) (install false pkg a t) es ft2fontPath = none :=
            run_of_step (P := fun t : FileTree α => t ft2fontPath = none)
              (fun _ e ht => step_ft2font_missing ht e) hlost es
          rw [hnever]
          simp
        | some w =>
          have hstays : install false pkg a t ft2fontPath = some v := by rw [hplace, hb, h]; rfl
          rw [ih hstays, hback, hb]
          simp
    | reinstall delete =>
      have hplace : reinstall delete t ft2fontPath = some v := (reinstall_ft2font t delete).trans h
      rw [step, ih hplace, reinstall_backup, BackedUp]
      cases delete <;> simp

/-- The init scripts come back unless the backup folder held others. -/
theorem restored_script_iff (eggInfo : Bool) (p : Printer α) (es : List (Event α)) (delete : Bool)
    {file : String} (hfile : file ∈ initScripts) :
    reinstall delete (run (step eggInfo) p.files es) (initScript file) =
        p.files (initScript file) ↔
      p.files (backup file) = none ∨ p.files (backup file) = p.files (initScript file) := by
  obtain ⟨v, hv⟩ := p.script hfile
  have hkept : ∃ w, scriptKept p.files file = some w := by
    rw [scriptKept, hv]
    cases p.files (backup file) <;> simp
  obtain ⟨w, hw⟩ := hkept
  have hplace : reinstall delete (run (step eggInfo) p.files es) (initScript file) = some w :=
    (reinstall_script _ delete hfile).trans (run_scriptKept eggInfo hfile hw es)
  rw [hplace, ← hw, scriptKept, hv, or_eq_right_iff]

/-- The binaries always come back. -/
theorem restored_binary (eggInfo : Bool) (p : Printer α) (es : List (Event α)) (delete : Bool)
    {bin : String} (hbin : bin ∈ crealityBinaries) :
    reinstall delete (run (step eggInfo) p.files es) (binary bin) = p.files (binary bin) := by
  obtain ⟨v, hv⟩ := p.binary hbin
  have hkept : binaryKept p.files bin = some v := by rw [binaryKept, hv, Option.some_or]
  rw [reinstall_binary _ delete hbin, hv]
  exact run_binaryKept eggInfo hbin hkept es

/-- The round trip, for any runs that end with `reinstall-creality.sh`. -/
theorem round_trip_iff (eggInfo : Bool) (p : Printer α) (es : List (Event α)) (delete : Bool) :
    Restored p (run (step eggInfo) p.files (es ++ [.reinstall delete])) ↔
      Recoverable eggInfo p.files es := by
  obtain ⟨v, hv⟩ := p.ft2font
  have hlast : run (step eggInfo) p.files (es ++ [.reinstall delete]) =
      reinstall delete (run (step eggInfo) p.files es) := run_append _ _ _ _
  have hfont : reinstall delete (run (step eggInfo) p.files es) ft2fontPath =
      p.files ft2fontPath ↔ if eggInfo then shipped (p.files ft2fontPath) es = p.files ft2fontPath
        else BackedUp (p.files (backup ft2font)).isSome es := by
    rw [reinstall_ft2font]
    cases eggInfo with
    | true => rw [run_ft2font_shipped, if_pos rfl]
    | false => rw [hv, run_ft2font_iff hv, if_neg Bool.false_ne_true]
  rw [hlast, restored_iff]
  constructor
  · rintro ⟨hscripts, -, hft2font⟩
    exact ⟨fun file hfile => (restored_script_iff eggInfo p es delete hfile).mp
      (hscripts file hfile), hfont.mp hft2font⟩
  · rintro ⟨hscripts, hft2font⟩
    exact ⟨fun file hfile => (restored_script_iff eggInfo p es delete hfile).mpr
      (hscripts file hfile), fun bin hbin => restored_binary eggInfo p es delete hbin,
      hfont.mpr hft2font⟩

end

/-- A printer as it comes from the factory. -/
def factory : Printer ℕ where
  files p := if p ∈ crealityFiles then some 0 else none
  inPlace p hp := by rw [if_pos hp]; rfl

/-- One installation and its removal leave the font module of the package. -/
theorem package_ft2font_stays :
    ¬ Restored factory (run (step true) factory.files
      ([.install ⟨1, 1, 1⟩ ⟨true, true, true, true, true, true, true⟩] ++ [.reinstall false])) := by
  intro h
  have hfont := h ft2fontPath (by decide)
  rw [run_ft2font_shipped] at hfont
  exact absurd hfont (by decide)

end PowerScreen.Install
