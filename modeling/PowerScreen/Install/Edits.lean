import Mathlib.Logic.Function.Iterate
import PowerScreen.Library.LineEdit

/-! # What the installer does to the configuration

The installer registers PowerScreen in two files of Moonraker and in the configuration of
Klipper. Every edit is made unless a line is found that looks as if it had been made.
-/
namespace PowerScreen.Install
open Library Library.LineEdit

/-- The files of the printer, and whether the package has an updater's configuration. -/
structure ConfigFiles where
  printerCfg : List Char
  moonrakerConf : Option (List Char)
  updateConfig : Bool
  moonrakerAsvc : Option (List Char)

def includePowerScreen : Line := "[include PowerScreen/*.cfg]".toList

def includeUpdate : Line := "[include powerscreen-update.conf]".toList

def service : Line := "powerscreen".toList

/-- The dot of the expression stands for any character. -/
def updatePattern : Pattern :=
  literal "include powerscreen-update".toList ++ none :: literal "conf".toList

def hasUpdate (l : Line) : Bool := contains updatePattern l

def isService (l : Line) : Bool := l = service

def hasPowerScreen (l : Line) : Bool := contains (literal "include PowerScreen".toList) l

def isAnchor (l : Line) : Bool := contains (literal "[include gcode_macro.cfg]".toList) l

/-- A section's header is at the beginning of its line. -/
def startsWith (header l : Line) : Bool := decide (header <+: l)

/-- The edits of one run, once the package is in place. -/
def registerPowerScreen (f : ConfigFiles) : ConfigFiles :=
  { f with
    moonrakerConf :=
      if f.updateConfig then f.moonrakerConf.map (appendUnless hasUpdate includeUpdate)
      else f.moonrakerConf
    moonrakerAsvc := f.moonrakerAsvc.map (appendUnless isService service)
    printerCfg := insertUnless hasPowerScreen isAnchor includePowerScreen f.printerCfg }

structure Registered (before after : ConfigFiles) : Prop where
  printer : Once (startsWith includePowerScreen) before.printerCfg after.printerCfg
  moonraker : before.updateConfig → ∀ text, before.moonrakerConf = some text →
    ∃ text', after.moonrakerConf = some text' ∧ Once (startsWith includeUpdate) text text'
  untouched : before.updateConfig = false → after.moonrakerConf = before.moonrakerConf
  allowlist : ∀ text, before.moonrakerAsvc = some text →
    ∃ text', after.moonrakerAsvc = some text' ∧ Once isService text text'

/-- Where a line looks like the edit it is the edit, once; and where none does, there is one
anchor in `printer.cfg`. -/
structure Ready (f : ConfigFiles) : Prop where
  printer : if grep hasPowerScreen f.printerCfg then
      (lines f.printerCfg).countP (startsWith includePowerScreen) = 1
    else (lines f.printerCfg).countP isAnchor = 1
  moonraker : f.updateConfig → ∀ text, f.moonrakerConf = some text →
    ¬ grep hasUpdate text ∨ (lines text).countP (startsWith includeUpdate) = 1
  allowlist : ∀ text, f.moonrakerAsvc = some text → (lines text).countP isService ≤ 1

theorem contains_of_startsWith {pattern : Pattern} {header : Line}
    (hheader : contains pattern header) (l : Line) (h : startsWith header l) :
    contains pattern l := by
  obtain ⟨rest, rfl⟩ := of_decide_eq_true h
  exact contains_append hheader rest

theorem startsWith_self (header : Line) : startsWith header header :=
  decide_eq_true (List.prefix_refl header)

theorem hasPowerScreen_of_header (l : Line) (h : startsWith includePowerScreen l) :
    hasPowerScreen l := contains_of_startsWith (by decide) l h

theorem hasUpdate_of_header (l : Line) (h : startsWith includeUpdate l) : hasUpdate l :=
  contains_of_startsWith (by decide) l h

theorem once_service_iff (text : List Char) :
    Once isService text (appendUnless isService service text) ↔
      (lines text).countP isService ≤ 1 := by
  rw [once_appendUnless_iff (by decide) (by decide) (fun _ h => h) (by decide)]
  have hgrep : grep isService text ↔ 0 < (lines text).countP isService := by
    rw [grep, List.any_eq_true, List.countP_pos_iff]
  rw [hgrep]
  omega

theorem registerPowerScreen_idempotent (f : ConfigFiles) :
    registerPowerScreen (registerPowerScreen f) = registerPowerScreen f := by
  have hconf : ∀ text, appendUnless hasUpdate includeUpdate
      (appendUnless hasUpdate includeUpdate text) = appendUnless hasUpdate includeUpdate text :=
    appendUnless_idempotent (by decide) (startsWith_self _) hasUpdate_of_header
  have hasvc : ∀ text, appendUnless isService service (appendUnless isService service text) =
      appendUnless isService service text :=
    appendUnless_idempotent (by decide) (by decide : isService service) fun _ h => h
  have hcfg : insertUnless hasPowerScreen isAnchor includePowerScreen
      (insertUnless hasPowerScreen isAnchor includePowerScreen f.printerCfg) =
        insertUnless hasPowerScreen isAnchor includePowerScreen f.printerCfg :=
    insertUnless_idempotent (by decide) (startsWith_self _) hasPowerScreen_of_header f.printerCfg
  unfold registerPowerScreen
  dsimp only
  rw [hcfg]
  cases f.updateConfig <;> cases f.moonrakerConf <;> cases f.moonrakerAsvc <;>
    simp [hconf, hasvc]

theorem registered_once_iff (f : ConfigFiles) : Registered f (registerPowerScreen f) ↔ Ready f := by
  have hprinter : Once (startsWith includePowerScreen) f.printerCfg
      (insertUnless hasPowerScreen isAnchor includePowerScreen f.printerCfg) ↔ _ :=
    once_insertUnless_iff (by decide) (startsWith_self _) hasPowerScreen_of_header f.printerCfg
  have hmoonraker : ∀ text, Once (startsWith includeUpdate) text
      (appendUnless hasUpdate includeUpdate text) ↔ _ :=
    once_appendUnless_iff (by decide) (startsWith_self _) hasUpdate_of_header (by decide)
  constructor
  · intro h
    refine ⟨hprinter.mp h.printer, fun hup text htext => ?_, fun text htext => ?_⟩
    · obtain ⟨text', htext', honce⟩ := h.moonraker hup text htext
      rw [registerPowerScreen, if_pos hup, htext] at htext'
      cases htext'
      exact (hmoonraker text).mp honce
    · obtain ⟨text', htext', honce⟩ := h.allowlist text htext
      rw [registerPowerScreen, htext] at htext'
      cases htext'
      exact (once_service_iff text).mp honce
  · intro h
    refine ⟨hprinter.mpr h.printer, fun hup text htext => ?_, fun hup => ?_, fun text htext => ?_⟩
    · refine ⟨_, ?_, (hmoonraker text).mpr (h.moonraker hup text htext)⟩
      rw [registerPowerScreen, if_pos hup, htext, Option.map_some]
    · rw [registerPowerScreen, hup, if_neg Bool.false_ne_true]
    · refine ⟨_, ?_, (once_service_iff text).mpr (h.allowlist text htext)⟩
      rw [registerPowerScreen, htext, Option.map_some]

/-- Any number of runs registers PowerScreen exactly where a run finds the files ready. -/
theorem registered_iff (f : ConfigFiles) (n : ℕ) :
    Registered f (registerPowerScreen^[n + 1] f) ↔ Ready f := by
  have hfix : registerPowerScreen^[n + 1] f = registerPowerScreen f := by
    rw [Function.iterate_succ_apply]
    exact Function.iterate_fixed (registerPowerScreen_idempotent f) n
  rw [hfix]
  exact registered_once_iff f

/-- In a `printer.cfg` without the anchor nothing is included. -/
theorem not_registered_without_anchor : ¬ ∀ (f : ConfigFiles) (n : ℕ),
    Registered f (registerPowerScreen^[n + 1] f) := by
  intro h
  have honce := (h ⟨"[mcu]\n".toList, none, false, none⟩ 0).printer.once
  revert honce
  decide

end PowerScreen.Install
