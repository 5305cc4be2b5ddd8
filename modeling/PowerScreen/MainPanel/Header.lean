import PowerScreen.Library.Run
import PowerScreen.MainPanel.Overlays

/-! # The title bar against the screen

The entries of the title bar follow the overlays as they lie on the screen. Back
closes the foremost overlay; whether the next entry is the one that comes to light
depends on whether its overlay is still open.
-/
namespace PowerScreen.MainPanel
open Library Library.Run Library.Stacking

namespace Screen

/-- The title bar names what is foremost: an overlay, with the Back button, or the tab. -/
def Agrees (s : Screen) : Prop := s.header = headerOf s.tab s.inFront.head?

/-- The Back button closes the foremost overlay and nothing else. -/
def BackCloses (s : Screen) : Prop :=
  s.header.backPill → s.inFront ≠ [] ∧ (s.step .back).inFront = s.inFront.tail

instance (s : Screen) : Decidable s.Agrees := inferInstanceAs (Decidable (_ = _))

/-- The overlay whose entry comes after the newest is another one, and is open. -/
def UncoversOpen (s : Screen) : Event → Prop
  | .back => ∀ top next rest, s.overlays = top :: next :: rest → next ≠ top ∧ next ∈ s.inFront
  | _ => True

/-- What holds of the screen whether the title bar agrees or not. -/
structure Sound (s : Screen) : Prop where
  tabview : .tabview ∈ s.layers
  header : s.header = headerOf s.tab s.overlays.head?
  follows : Follows s.inFront s.overlays

theorem headerOf_injective {t : Tab} {a b : Option Overlay} (h : headerOf t a = headerOf t b) :
    a = b := by
  cases a with
  | none =>
    cases b with
    | none => rfl
    | some b => simp [headerOf] at h
  | some a =>
    cases b with
    | none => simp [headerOf] at h
    | some b =>
      rw [headerOf, headerOf, Header.mk.injEq, Option.some.injEq] at h
      rw [title_injective h.1]

theorem agrees_iff {s : Screen} (h : s.header = headerOf s.tab s.overlays.head?) :
    s.Agrees ↔ s.inFront.head? = s.overlays.head? := by
  rw [Agrees, h]
  exact ⟨fun heq => (headerOf_injective heq).symm, fun heq => by rw [heq]⟩

theorem updatesPage_of_mem {s : Screen} (h : .powerUpdate ∈ s.inFront) : s.updatesPage := by
  have hp := exists_page_of_mem_inFront h
  rw [Overlay.cont, pages] at hp
  split_ifs at hp with hu
  all_goals simp_all

theorem not_direct_of_mem {s : Screen} (h : .system ∈ s.inFront) (hu : s.updatesPage) :
    s.powerUpdateDirect = false := by
  have hp := exists_page_of_mem_inFront h
  rw [Overlay.cont, pages, if_pos hu] at hp
  · split_ifs at hp with hd
    · simp at hp
    · simpa using hd
  · exact nofun

theorem not_updatesPage_of_head? {s : Screen} (h : s.inFront.head? = some .system) :
    s.updatesPage = false := by
  obtain ⟨c, hc⟩ := exists_page_of_head? h
  have hcont := cont_of_mem_pages (List.mem_of_mem_head? hc)
  subst hcont
  rw [Overlay.cont, pages] at hc
  · split_ifs at hc with hu
    all_goals simp_all
  · exact nofun

theorem tail_eq_filter {α : Type*} {a : α} {as : List α} {q : α → Bool} (ha : q a = false)
    (has : ∀ b ∈ as, q b = true) : (a :: as).filter q = as := by
  rw [List.filter_cons_of_neg (by simp [ha]), List.filter_eq_self.mpr has]

theorem onBack_powerUpdate (s : Screen) : s.onBack .powerUpdate =
    if s.powerUpdateDirect then
      ({ s with updatesPage := false, powerUpdateDirect := false } : Screen).moveBackground
        (.cont .system)
    else { s with updatesPage := false } := rfl

theorem handleBackClick_cons {s : Screen} {o : Overlay} {rest : List Overlay}
    (h : s.overlays = o :: rest) :
    s.handleBackClick = (({ s with overlays := rest } : Screen).onBack o).updateHeader := by
  rw [handleBackClick, h]

/-- Back takes the foremost overlay from the screen. -/
theorem handleBackClick_inFront {s : Screen} {o : Overlay} {rest under : List Overlay}
    (htab : .tabview ∈ s.layers) (hs : s.overlays = o :: rest) (hf : s.inFront = o :: under)
    (hn : (o :: under).Nodup) : s.handleBackClick.inFront = under := by
  have hnot : o ∉ under := (List.nodup_cons.mp hn).1
  have hmem : ∀ b ∈ under, b ∈ s.inFront := fun b hb => hf ▸ List.mem_cons_of_mem o hb
  -- a container that moves behind the tab view takes its pages along
  have hmove : ∀ c, (s.moveBackground (.cont c)).inFront = (o :: under).filter (·.cont ≠ c) :=
    fun c => hf ▸ inFront_toBack htab rfl fun _ _ => rfl
  have hsame : ∀ b ∈ under, b ≠ o := fun b hb h => hnot (h ▸ hb)
  rw [handleBackClick_cons hs, updateHeader_inFront]
  cases o with
  | system =>
    have hpage : s.updatesPage = false := not_updatesPage_of_head? (by rw [hf]; rfl)
    refine (hmove .system).trans (tail_eq_filter rfl fun b hb => ?_)
    cases b with
    | system => exact absurd hb hnot
    | powerUpdate => simp [updatesPage_of_mem (hmem _ hb)] at hpage
    | _ => rfl
  | powerUpdate =>
    have hpage : s.updatesPage := updatesPage_of_mem (hf ▸ List.mem_cons_self)
    by_cases hd : s.powerUpdateDirect
    · have hgone : (({ s with overlays := rest } : Screen).onBack .powerUpdate).inFront =
          s.inFront.filter (·.cont ≠ .system) := by
        rw [onBack_powerUpdate, if_pos hd]
        exact inFront_toBack htab rfl fun d hds => by
          cases d <;> first | rfl | exact absurd rfl hds
      rw [hf] at hgone
      refine hgone.trans (tail_eq_filter rfl fun b hb => ?_)
      cases b with
      | system => simp [not_direct_of_mem (hmem _ hb) hpage] at hd
      | powerUpdate => exact absurd hb hnot
      | _ => rfl
    · have hgone : (({ s with overlays := rest } : Screen).onBack .powerUpdate).inFront =
          s.inFront.filter (· ≠ .powerUpdate) := by
        rw [onBack_powerUpdate, if_neg hd]
        refine inFront_filter rfl fun c => ?_
        cases c with
        | system => simp [pages, hpage, hd]
        | console => by_cases hc : s.consoleHidden <;> simp [pages, hc]
        | _ => rfl
      rw [hf] at hgone
      exact hgone.trans (tail_eq_filter (by simp) (by simpa using hsame))
  | console =>
    have hgone : (({ s with overlays := rest } : Screen).onBack .console).inFront =
        s.inFront.filter (· ≠ .console) := by
      refine inFront_filter rfl fun c => ?_
      cases c with
      | system =>
        by_cases hu : s.updatesPage <;> by_cases hd : s.powerUpdateDirect <;>
          simp [onBack, pages, hu, hd]
      | console => by_cases hc : s.consoleHidden <;> simp [onBack, pages, hc]
      | _ => rfl
    rw [hf] at hgone
    exact hgone.trans (tail_eq_filter (by simp) (by simpa using hsame))
  | _ =>
    refine (hmove _).trans (tail_eq_filter rfl fun b hb => ?_)
    cases b <;> first | rfl | exact absurd hb hnot

/-- What Back does besides. -/
theorem handleBackClick_fields {s : Screen} {o : Overlay} {rest : List Overlay}
    (hs : s.overlays = o :: rest) : s.handleBackClick.overlays = rest ∧
      s.handleBackClick.header = headerOf s.handleBackClick.tab rest.head? ∧
      (.tabview ∈ s.layers → .tabview ∈ s.handleBackClick.layers) := by
  have hback : ∀ c : Overlay, .tabview ∈ s.layers → .tabview ∈ toBack (.cont c) s.layers :=
    fun c h => List.mem_append_left _ (List.mem_filter.mpr ⟨h, by simp⟩)
  rw [handleBackClick_cons hs]
  cases o with
  | powerUpdate =>
    rw [onBack_powerUpdate]
    by_cases hd : s.powerUpdateDirect
    · rw [if_pos hd]
      exact ⟨rfl, rfl, hback _⟩
    · rw [if_neg hd]
      exact ⟨rfl, rfl, id⟩
  | console => exact ⟨rfl, rfl, id⟩
  | _ => exact ⟨rfl, rfl, hback _⟩

/-- The page the About row opens lies on System, or in its place when Power Update was
opened directly before and never closed. -/
theorem about_inFront {s : Screen} {under : List Overlay} (hf : s.inFront = .system :: under)
    (hn : (Overlay.system :: under).Nodup) :
    ∃ q : Overlay → Bool, q .powerUpdate = false ∧
      (s.showTab true).inFront = .powerUpdate :: s.inFront.filter q := by
  have hpage : s.updatesPage = false := not_updatesPage_of_head? (by rw [hf]; rfl)
  have hnot : ∀ b ∈ under, b ≠ .system := fun b hb h => (List.nodup_cons.mp hn).1 (h ▸ hb)
  have hpower : ∀ b ∈ under, b ≠ .powerUpdate := fun b hb h => by
    have hmem : .powerUpdate ∈ s.inFront := hf ▸ List.mem_cons_of_mem _ (h ▸ hb)
    simp [updatesPage_of_mem hmem] at hpage
  have hshown : (s.showTab true).inFront = s.inFront.flatMap fun b =>
      if b = .system then
        (if s.powerUpdateDirect then [.powerUpdate] else [.powerUpdate, .system])
      else [b] := by
    rw [showTab, if_pos rfl, if_neg (by simp [hpage]), pushOverlay_eq]
    refine uncovered_map rfl (fun _ _ => List.flatMap_append) (fun c => ?_) s.layers
    cases c with
    | system => simp [pages, hpage, updateHeader]
    | console => by_cases hc : s.consoleHidden <;> simp [pages, hc, updateHeader]
    | _ => rfl
  have hunder : (under.flatMap fun b => if b = .system then
      (if s.powerUpdateDirect then [.powerUpdate] else [.powerUpdate, .system]) else [b]) =
        under := by
    rw [List.flatMap_congr fun b hb => if_neg (hnot b hb), List.flatMap_singleton']
  rw [hshown, hf, List.flatMap_cons, hunder, if_pos rfl]
  by_cases hd : s.powerUpdateDirect
  · refine ⟨fun b => b ≠ .powerUpdate ∧ b ≠ .system, by simp, ?_⟩
    rw [tail_eq_filter (by simp) fun b hb => by simp [hnot b hb, hpower b hb], if_pos hd]
    rfl
  · refine ⟨fun b => b ≠ .powerUpdate, by simp, ?_⟩
    rw [List.filter_eq_self.mpr, if_neg hd]
    · rfl
    · exact List.forall_mem_cons.mpr ⟨by simp, fun b hb => by simp [hpower b hb]⟩

theorem about_fields {s : Screen} (h : s.updatesPage = false) :
    (s.showTab true).layers = s.layers ∧
      (s.showTab true).overlays = push .powerUpdate s.overlays ∧
      (s.showTab true).header = headerOf (s.showTab true).tab
        (push .powerUpdate s.overlays).head? := by
  rw [showTab, if_pos rfl, if_neg (by simp [h]), pushOverlay_eq]
  exact ⟨rfl, rfl, rfl⟩

theorem inFront_eq_cons {s : Screen} {o : Overlay} (h : s.inFront.head? = some o) :
    s.inFront = o :: s.inFront.tail := by
  cases hf : s.inFront with
  | nil => simp [hf] at h
  | cons a as =>
    rw [hf] at h
    rw [Option.some.inj h, List.tail_cons]

/-- Every event keeps the order of the entries, as long as the title bar agrees. -/
theorem sound_step {s : Screen} (h : s.Sound) (ha : s.Agrees) (e : Event) :
    (s.step e).Sound := by
  have hhead := (agrees_iff h.header).mp ha
  cases e with
  | foreground o =>
    obtain ⟨hl, ho, hh, hpage, hother⟩ := foreground_fields s o
    refine ⟨?_, ?_, ?_⟩
    · rw [step, hl]
      exact List.mem_cons_of_mem _ (List.mem_filter.mpr ⟨h.tabview, by simp⟩)
    · rw [step, hh, ho]
    · rw [step, inFront_toFront hl hother, ho, hpage]
      exact h.follows.put o (by simp)
  | about =>
    rw [step]
    split_ifs with hsys
    · have hf := inFront_eq_cons hsys
      obtain ⟨q, hq, hshown⟩ := about_inFront hf (hf ▸ h.follows.nodup)
      obtain ⟨hl, ho, hh⟩ := about_fields (not_updatesPage_of_head? hsys)
      exact ⟨by rw [hl]; exact h.tabview, by rw [hh, ho], by
        rw [hshown, ho]; exact h.follows.put _ hq⟩
    · exact h
  | back =>
    cases hs : s.overlays with
    | nil =>
      have hstep : s.step .back = s := by rw [step, handleBackClick, hs]
      rw [hstep]
      exact h
    | cons o rest =>
      have hf := inFront_eq_cons (o := o) (by rw [hhead, hs]; rfl)
      have hfollows : Follows (o :: s.inFront.tail) (o :: rest) := hf ▸ hs ▸ h.follows
      obtain ⟨ho, hh, hl⟩ := handleBackClick_fields hs
      refine ⟨hl h.tabview, by rw [step, hh, ho], ?_⟩
      rw [step, ho, handleBackClick_inFront h.tabview hs hf hfollows.nodup]
      exact hfollows.take
  | tapTab t => exact ⟨List.mem_cons_self, rfl, Follows.nil _⟩

/-- When the title bar agrees the Back button closes what it names. -/
theorem backCloses_of_agrees {s : Screen} (h : s.Sound) (ha : s.Agrees) : s.BackCloses := by
  have hhead := (agrees_iff h.header).mp ha
  intro hpill
  cases hs : s.overlays with
  | nil => simp [h.header, hs, headerOf] at hpill
  | cons o rest =>
    have hf := inFront_eq_cons (o := o) (by rw [hhead, hs]; rfl)
    refine ⟨by rw [hf]; exact List.cons_ne_nil _ _, ?_⟩
    exact handleBackClick_inFront h.tabview hs hf (hf ▸ h.follows.nodup)

/-- Only Back can make the title bar disagree. -/
theorem agrees_step_iff {s : Screen} (h : s.Sound) (ha : s.Agrees) (e : Event) :
    (s.step e).Agrees ↔ s.UncoversOpen e := by
  have hhead := (agrees_iff h.header).mp ha
  have hsound := sound_step h ha e
  rw [agrees_iff hsound.header]
  cases e with
  | foreground o =>
    obtain ⟨hl, ho, -, hpage, hother⟩ := foreground_fields s o
    rw [step, inFront_toFront hl hother, ho, hpage, head?_push]
    exact iff_of_true rfl trivial
  | about =>
    rw [step]
    split_ifs with hsys
    · have hf := inFront_eq_cons hsys
      obtain ⟨q, -, hshown⟩ := about_inFront hf (hf ▸ h.follows.nodup)
      rw [hshown, (about_fields (not_updatesPage_of_head? hsys)).2.1, head?_push]
      exact iff_of_true rfl trivial
    · exact iff_of_true hhead trivial
  | back =>
    rw [step, UncoversOpen]
    cases hs : s.overlays with
    | nil =>
      have hstep : s.handleBackClick = s := by rw [handleBackClick, hs]
      rw [hstep, hhead]
      exact iff_of_true rfl nofun
    | cons o rest =>
      have hf := inFront_eq_cons (o := o) (by rw [hhead, hs]; rfl)
      have hfollows : Follows (o :: s.inFront.tail) (o :: rest) := hf ▸ hs ▸ h.follows
      have hn := List.nodup_cons.mp hfollows.nodup
      have hmem : ∀ b, b ∈ s.inFront.tail ↔ b ≠ o ∧ b ∈ s.inFront := fun b => by
        refine ⟨fun hb => ⟨fun hbo => hn.1 (hbo ▸ hb), List.mem_of_mem_tail hb⟩, fun hb => ?_⟩
        rw [hf] at hb
        exact (List.mem_cons.mp hb.2).resolve_left hb.1
      rw [handleBackClick_inFront h.tabview hs hf hfollows.nodup, (handleBackClick_fields hs).1,
        hfollows.head?_eq_iff]
      constructor
      · rintro hopen top next rest' heq
        cases heq
        exact (hmem next).mp (hopen next rfl)
      · intro hopen next hnext
        cases rest with
        | nil => cases hnext
        | cons b rest =>
          cases hnext
          exact (hmem next).mpr (hopen o next rest rfl)
  | tapTab t => exact iff_of_true rfl trivial

/-- The tab view is the foremost child of the screen when the program has started. -/
def started (behind : List Layer) : Screen := { layers := .tabview :: behind }

theorem sound_started (behind : List Layer) : (started behind).Sound :=
  ⟨List.mem_cons_self, rfl, Follows.nil _⟩

/-- In every run the title bar agrees with the screen and Back closes the foremost
overlay, exactly when every Back uncovers an entry of an open overlay. -/
theorem header_throughout_iff (behind : List Layer) (es : List Event) :
    Throughout step (fun s => s.Agrees ∧ s.BackCloses) (started behind) es ↔
      EachStep step UncoversOpen (started behind) es := by
  have hstart : (started behind).Agrees := rfl
  refine throughout_iff_eachStep_inv (I := fun s => s.Sound ∧ s.Agrees) (B := fun _ _ => True)
    ?_ ?_ ?_ ⟨sound_started behind, hstart⟩ (eachStep_of_forall (fun _ _ => trivial) _ es)
  · exact fun s h => ⟨h.2, backCloses_of_agrees h.1 h.2⟩
  · exact fun s e _ h hopen => ⟨sound_step h.1 h.2 e, (agrees_step_iff h.1 h.2 e).mpr hopen⟩
  · exact fun s e _ h hnext => (agrees_step_iff h.1 h.2 e).mp hnext.1

/-- Fine Tune lies under Print Status, which a started print opened, and is opened
from there again: its first entry outlives it. -/
theorem entry_outlives_overlay :
    ¬ Throughout step (fun s => s.Agrees ∧ s.BackCloses) (started [])
      [.tapTab .calibrations, .foreground .fineTune, .foreground .printStatus,
        .foreground .fineTune, .back, .back] := by
  intro h
  have hlast : Agrees _ := h.2.2.2.2.2.2.1
  exact absurd hlast (by decide)

end Screen
end PowerScreen.MainPanel
