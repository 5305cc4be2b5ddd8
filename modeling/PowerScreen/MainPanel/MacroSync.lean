import PowerScreen.Library.FileTree
import PowerScreen.State.PrintState

/-! # The macros of the package in the configuration of Klipper

The package carries macros; the folder `PowerScreen` in the configuration of Klipper
has copies of them, and Klipper has what it read there at its last restart. Both the
update script and the main panel copy what differs, and each decides on a restart by
what it has just copied itself.
-/
namespace PowerScreen.MainPanel
open Library Library.Run

variable {β : Type*}

/-- The regular files of the folder `scripts` in the package. -/
structure Package (β : Type*) where
  files : List (String × β)
  nodup : (files.map Prod.fst).Nodup

/-- The extension of a name, as the file system library takes it. -/
def hasExtension (ext name : String) : Bool := ext.toList.isSuffixOf name.toList

def Package.macros (p : Package β) : List (String × β) :=
  p.files.filter fun f => hasExtension ".cfg" f.1

def Package.helpers (p : Package β) : List (String × β) :=
  p.files.filter fun f => hasExtension ".py" f.1

structure Printer (β : Type*) where
  package : Package β
  /-- Whether there is a folder `PowerScreen` in the configuration of Klipper. -/
  installed : Bool := true
  folder : FileTree β
  /-- What Klipper read there when it was last started. -/
  loaded : FileTree β

/-- What a copy that fails leaves in the place of its target; `none` for one that succeeds. -/
abbrev Failures (β : Type*) := Path → Option (Option β)

def copyFile (fails : Failures β) (target : Path) (v : β) (t : FileTree β) : FileTree β :=
  Function.update t target ((fails target).getD (some v))

variable [DecidableEq β]

/-- Whether the file was copied. -/
def copyIfDifferent (fails : Failures β) (target : Path) (v : β) (t : FileTree β) :
    FileTree β × Bool :=
  if t target = some v then (t, false)
  else (copyFile fails target v t, (fails target).isNone)

/-- One turn of a loop over the package; the flag says whether a file was copied so far. -/
def copyNext (fails : Failures β) (dir : Path) (r : FileTree β × Bool) (f : String × β) :
    FileTree β × Bool :=
  let copied := copyIfDifferent fails (dir ++ [f.1]) f.2 r.1
  (copied.1, copied.2 || r.2)

def copyDifferent (fails : Failures β) (dir : Path) (files : List (String × β))
    (t : FileTree β) : FileTree β × Bool :=
  files.foldl (copyNext fails dir) (t, false)

/-- The elements that an iteration over a value goes through. -/
def items : Json → List Json
  | .null => []
  | .arr xs => xs
  | .obj ms => ms.map Prod.snd
  | j => [j]

/-- `none` is the exception of a root without a textual path. -/
def getRootPath (s : PowerScreen.State) (rootName : String) : Option String :=
  (s.getData ["roots"]).bind fun roots =>
    match (items roots).filter fun item => item.get? "name" = some (.str rootName) with
    | [] => some ""
    | item :: _ => (item.get "path").str?

/-- One run of `sync_klipper_macros`: what the store and the reply to the subscription
say, and which of its copies fail. -/
structure Sync (β : Type*) where
  store : PowerScreen.State
  printerStatus : Json
  fails : Failures β := fun _ => none

/-- The print state of the reply, or else of the store. -/
def Sync.printState (c : Sync β) : Option String :=
  (Json.getAt ["result", "status", "print_stats", "state"] c.printerStatus).bind fun fromStatus =>
    match fromStatus.str? with
    | some state => some state
    | none => (c.store.getData ["printer_state", "print_stats", "state"]).map fun fromState =>
        fromState.str?.getD ""

def idleStates : List String := ["standby", "complete", "cancelled", "error"]

def Sync.idle (c : Sync β) : Bool := c.printState.any (· ∈ idleStates)

/-- A call with `printer.restart` at its end or without. -/
def Printer.syncKlipperMacros (s : Printer β) (c : Sync β) : Printer β × Bool :=
  match getRootPath c.store "config" with
  | none => (s, false)
  | some configRoot =>
    if configRoot = "" || !s.installed then (s, false)
    else
      let macros := copyDifferent c.fails [] s.package.macros s.folder
      let helpers := copyDifferent c.fails ["scripts"] s.package.helpers macros.1
      ({ s with folder := helpers.1 }, macros.2 && c.idle)

def Printer.restartKlipper (s : Printer β) : Printer β := { s with loaded := s.folder }

/-- The names that the pattern of the shell stands for. -/
def visible (files : List (String × β)) : List (String × β) :=
  files.filter fun f => f.1.toList.head? ≠ some '.'

/-- The copying in `update.sh`; `service` says whether Klipper's service script is there. -/
def Printer.updateSh (s : Printer β) (service : Bool) (fails : Failures β) : Printer β :=
  if s.installed then
    let macros := (visible s.package.macros).foldl (fun r f =>
      if r.1 [f.1] = some f.2 then r else (copyFile fails [f.1] f.2 r.1, true)) (s.folder, false)
    let helpers := (visible s.package.helpers).foldl
      (fun t f => copyFile fails ["scripts", f.1] f.2 t) macros.1
    let s' := { s with folder := helpers }
    if macros.2 && service then s'.restartKlipper else s'
  else s

/-- What happens to a printer. -/
inductive Upkeep (β : Type*) where
  /-- A new package is extracted, with these scripts. -/
  | extracted (p : Package β)
  | updateSh (service : Bool) (fails : Failures β)
  | sync (c : Sync β)
  | klipperRestarted

namespace Printer

def step (s : Printer β) : Upkeep β → Printer β
  | .extracted p => { s with package := p }
  | .updateSh service fails => s.updateSh service fails
  | .sync c => (s.syncKlipperMacros c).1
  | .klipperRestarted => s.restartKlipper

/-- Klipper has loaded the macros of the package. -/
def Current (s : Printer β) : Prop := ∀ f ∈ s.package.macros, s.loaded [f.1] = some f.2

/-- After a sync of an idle printer the restart is on its way, or there is no need for it. -/
def Restarts (s : Printer β) : Upkeep β → Prop
  | .sync c => c.idle → (s.syncKlipperMacros c).2 = true ∨ (s.syncKlipperMacros c).1.Current
  | _ => True

/-- A sync finds the configuration of Klipper and can copy to it. -/
structure Succeeds (s : Printer β) (c : Sync β) : Prop where
  found : ∃ root, getRootPath c.store "config" = some root ∧ root ≠ ""
  installed : s.installed = true
  copies : ∀ f ∈ s.package.macros, c.fails [f.1] = none

/-- Where an idle printer needs it, the sync succeeds. -/
def Undisturbed (s : Printer β) : Upkeep β → Prop
  | .sync c => c.idle → ¬ s.Current → s.Succeeds c
  | _ => True

/-- Klipper has not been restarted since the macro in the folder was changed. -/
def Unread (s : Printer β) (name : String) : Prop := s.loaded [name] ≠ s.folder [name]

/-- A sync of an idle printer comes before all macros of the package are in the folder,
or after a restart that has read every one of them there. -/
def InTime (s : Printer β) : Upkeep β → Prop
  | .sync c => c.idle → (∃ f ∈ s.package.macros, s.folder [f.1] ≠ some f.2) ∨
      ∀ f ∈ s.package.macros, ¬ s.Unread f.1
  | _ => True

end Printer

section
variable (fails : Failures β) (dir : Path)

theorem copyIfDifferent_of_eq {target : Path} {v : β} {t : FileTree β} (h : t target = some v) :
    copyIfDifferent fails target v t = (t, false) := if_pos h

theorem copyIfDifferent_of_ne {fails} {target : Path} {v : β} {t : FileTree β}
    (h : t target ≠ some v) (hfails : fails target = none) :
    copyIfDifferent fails target v t = (t.write target v, true) := by
  rw [copyIfDifferent, if_neg h, copyFile, hfails]
  rfl

theorem copyIfDifferent_apply_of_ne {target p : Path} (h : p ≠ target) (v : β) (t : FileTree β) :
    (copyIfDifferent fails target v t).1 p = t p := by
  unfold copyIfDifferent
  split_ifs
  · rfl
  · exact Function.update_of_ne h _ _

/-- A loop leaves alone what is not the place of one of its files. -/
theorem copyDifferent_apply_of_notMem {files : List (String × β)} {p : Path}
    (h : ∀ f ∈ files, p ≠ dir ++ [f.1]) (t : FileTree β) (copied : Bool) :
    (files.foldl (copyNext fails dir) (t, copied)).1 p = t p := by
  induction files generalizing t copied with
  | nil => rfl
  | cons f files ih =>
    rw [List.foldl_cons, copyNext, ih fun g hg => h g (List.mem_cons_of_mem f hg)]
    exact copyIfDifferent_apply_of_ne fails (h f List.mem_cons_self) f.2 t

variable {fails}

/-- A loop whose copies succeed copies a file exactly when one is missing or different. -/
theorem copyDifferent_copied_iff {files : List (String × β)}
    (h : ∀ f ∈ files, fails (dir ++ [f.1]) = none) (t : FileTree β) (copied : Bool) :
    (files.foldl (copyNext fails dir) (t, copied)).2 = true ↔
      copied = true ∨ ∃ f ∈ files, t (dir ++ [f.1]) ≠ some f.2 := by
  induction files generalizing t copied with
  | nil => simp
  | cons f files ih =>
    have hfiles (g) (hg : g ∈ files) := h g (List.mem_cons_of_mem f hg)
    rw [List.foldl_cons, copyNext, ih hfiles]
    by_cases heq : t (dir ++ [f.1]) = some f.2
    · rw [copyIfDifferent_of_eq fails heq]
      simp [heq]
    · rw [copyIfDifferent_of_ne heq (h f List.mem_cons_self)]
      simp [heq]

/-- After such a loop every file is in its place. -/
theorem copyDifferent_apply {files : List (String × β)} (hnodup : (files.map Prod.fst).Nodup)
    (h : ∀ f ∈ files, fails (dir ++ [f.1]) = none) (t : FileTree β) (copied : Bool)
    {f : String × β} (hf : f ∈ files) :
    (files.foldl (copyNext fails dir) (t, copied)).1 (dir ++ [f.1]) = some f.2 := by
  induction files generalizing t copied with
  | nil => cases hf
  | cons g files ih =>
    rw [List.map_cons, List.nodup_cons] at hnodup
    rw [List.foldl_cons, copyNext]
    rcases List.mem_cons.mp hf with rfl | hf
    · rw [copyDifferent_apply_of_notMem]
      · by_cases heq : t (dir ++ [f.1]) = some f.2
        · rw [copyIfDifferent_of_eq fails heq]
          exact heq
        · rw [copyIfDifferent_of_ne heq (h f List.mem_cons_self)]
          exact Function.update_self _ _ _
      · rintro g hg heq
        have hname : f.1 = g.1 := List.singleton_injective (List.append_cancel_left heq)
        exact hnodup.1 (hname ▸ List.mem_map_of_mem hg)
    · exact ih hnodup.2 (fun g' hg => h g' (List.mem_cons_of_mem g hg)) _ _ hf

end

omit [DecidableEq β] in
theorem Package.nodup_macros (p : Package β) : (p.macros.map Prod.fst).Nodup :=
  (List.filter_sublist.map Prod.fst).nodup p.nodup

namespace Printer

theorem Succeeds.eq {s : Printer β} {c : Sync β} (h : s.Succeeds c) :
    s.syncKlipperMacros c =
      let macros := copyDifferent c.fails [] s.package.macros s.folder
      ({ s with folder := (copyDifferent c.fails ["scripts"] s.package.helpers macros.1).1 },
        macros.2 && c.idle) := by
  obtain ⟨root, hroot, hne⟩ := h.found
  rw [syncKlipperMacros, hroot]
  simp [hne, h.installed]

theorem Succeeds.requested_iff {s : Printer β} {c : Sync β} (h : s.Succeeds c) :
    (s.syncKlipperMacros c).2 = true ↔
      (∃ f ∈ s.package.macros, s.folder [f.1] ≠ some f.2) ∧ c.idle = true := by
  have hcopied := copyDifferent_copied_iff [] h.copies s.folder false
  rw [h.eq, Bool.and_eq_true, copyDifferent, hcopied]
  simp

/-- A sync changes neither the package nor what Klipper has loaded. -/
theorem sync_frame (s : Printer β) (c : Sync β) :
    (s.syncKlipperMacros c).1.package = s.package ∧
      (s.syncKlipperMacros c).1.loaded = s.loaded ∧
        (s.syncKlipperMacros c).1.installed = s.installed := by
  unfold syncKlipperMacros
  split
  · exact ⟨rfl, rfl, rfl⟩
  · split_ifs <;> exact ⟨rfl, rfl, rfl⟩

theorem current_sync (s : Printer β) (c : Sync β) :
    (s.syncKlipperMacros c).1.Current ↔ s.Current := by
  obtain ⟨hpackage, hloaded, -⟩ := s.sync_frame c
  rw [Current, Current, hpackage, hloaded]

/-- After a sync every macro of the package is in the folder. -/
theorem Succeeds.folder {s : Printer β} {c : Sync β} (h : s.Succeeds c) {f : String × β}
    (hf : f ∈ s.package.macros) : (s.syncKlipperMacros c).1.folder [f.1] = some f.2 := by
  rw [h.eq]
  dsimp only
  rw [copyDifferent, copyDifferent_apply_of_notMem]
  · exact copyDifferent_apply [] s.package.nodup_macros h.copies s.folder false hf
  · intro g _ heq
    exact absurd (congrArg List.length heq) (by simp)

theorem restarts_iff {s : Printer β} {e : Upkeep β} (h : s.Undisturbed e) :
    s.Restarts e ↔ s.InTime e := by
  cases e with
  | sync c =>
    simp only [Restarts, InTime, current_sync]
    refine imp_congr_right fun hidle => ?_
    -- a macro in the folder as it is in the package has been read if it is loaded as well
    have hread (hall : ¬ ∃ f ∈ s.package.macros, s.folder [f.1] ≠ some f.2) :
        s.Current ↔ ∀ f ∈ s.package.macros, ¬ s.Unread f.1 := by
      push Not at hall
      refine forall₂_congr fun f hf => ?_
      rw [Unread, hall f hf, not_not]
    by_cases hcurrent : s.Current
    · refine iff_of_true (Or.inr hcurrent) ?_
      exact (Classical.em _).imp_right fun hall => (hread hall).mp hcurrent
    · rw [(h hidle hcurrent).requested_iff, and_iff_left hidle]
      by_cases hdiffers : ∃ f ∈ s.package.macros, s.folder [f.1] ≠ some f.2
      · exact iff_of_true (Or.inl hdiffers) (Or.inl hdiffers)
      · rw [or_iff_right hdiffers, or_iff_right hdiffers]
        exact hread hdiffers
  | extracted _ | updateSh _ _ | klipperRestarted => exact Iff.rfl

/-- A sync that leaves the restart to a later one loses it: the later one finds the
macros in the folder, whether Klipper has read them or not. -/
theorem restarts_after_sync_iff {s : Printer β} {c c' : Sync β} (h : s.Succeeds c)
    (h' : (s.step (.sync c)).Succeeds c') (hidle : c'.idle = true) :
    (s.step (.sync c)).Restarts (.sync c') ↔ s.Current := by
  obtain ⟨hpackage, -, -⟩ := s.sync_frame c
  have hfolder : ¬ ∃ f ∈ (s.step (.sync c)).package.macros,
      (s.step (.sync c)).folder [f.1] ≠ some f.2 := by
    rintro ⟨f, hf, hne⟩
    rw [step, hpackage] at hf
    exact hne (h.folder hf)
  simp only [Restarts, hidle, forall_const, h'.requested_iff, and_true, current_sync]
  rw [or_iff_right hfolder]
  exact s.current_sync c

/-- Over any run of what happens to a printer, no restart that is needed is lost exactly
when each sync of an idle printer comes in time. -/
theorem restarts_throughout_iff (s : Printer β) (es : List (Upkeep β))
    (h : EachStep step Undisturbed s es) :
    EachStep step Restarts s es ↔ EachStep step InTime s es := by
  constructor
  · intro hr
    exact (h.and hr).mono fun s e he => (restarts_iff he.1).mp he.2
  · intro ht
    exact (h.and ht).mono fun s e he => (restarts_iff he.1).mpr he.2

end Printer

/-- The store after the reply about the folders of the server. -/
def rootsKnown : PowerScreen.State where
  entries := [("roots", .arr [.obj [("name", .str "config"),
    ("path", .str "/usr/data/printer_data/config")]])]
  sorted := by decide

/-- A sync with the print state that the reply to the subscription gives. -/
def syncAt (state : String) : Sync ℕ where
  store := rootsKnown
  printerStatus := ((Status.ofPrintState state).subscribeReply 1 0).json

/-- Version `n` of the macros. -/
def macrosOf (n : ℕ) : Package ℕ where
  files := [("powerscreen_cmd.cfg", n)]
  nodup := List.nodup_singleton _

/-- A printer with version 1 in all places. -/
def upToDate : Printer ℕ where
  package := macrosOf 1
  folder := FileTree.write ["powerscreen_cmd.cfg"] 1 fun _ => none
  loaded := FileTree.write ["powerscreen_cmd.cfg"] 1 fun _ => none

theorem succeeds_syncAt {s : Printer ℕ} (h : s.installed = true) (state : String) :
    s.Succeeds (syncAt state) :=
  ⟨⟨"/usr/data/printer_data/config", by rfl, by decide⟩, h, fun _ _ => rfl⟩

/-- With a restart between the two syncs none is lost. -/
theorem restarts_throughout_restarted :
    let es := [Upkeep.extracted (macrosOf 2), .sync (syncAt "printing"), .klipperRestarted,
      .sync (syncAt "standby")]
    EachStep Printer.step Printer.Restarts upToDate es := by
  refine (Printer.restarts_throughout_iff upToDate _ ?_).mpr ?_
  · exact ⟨trivial, fun _ _ => succeeds_syncAt rfl _, trivial, fun _ _ => succeeds_syncAt rfl _,
      trivial⟩
  · refine ⟨trivial, fun hidle => absurd hidle (by decide), trivial, fun _ => ?_, trivial⟩
    exact Or.inr fun f _ => not_not_intro rfl

/-- A sync copies the new macros during a print; after the print the next one finds
nothing to copy, and Klipper keeps the old ones. -/
theorem postponed_restart_lost : ¬ EachStep Printer.step Printer.Restarts upToDate
    [.extracted (macrosOf 2), .sync (syncAt "printing"), .sync (syncAt "standby")] := by
  rintro ⟨-, -, h, -⟩
  rcases h (by decide) with h | h
  · exact absurd h (by decide)
  · exact absurd (h ("powerscreen_cmd.cfg", 2) (by decide)) (by decide)

end PowerScreen.MainPanel
