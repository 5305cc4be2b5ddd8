import PowerScreen.ExcludeObject.Redraw

/-! # The ways to the Exclude Object screen

The print card has a chip for a print with labeled objects, and Print Status a button for one
with at least two. Both are told by the panel, which remembers what it told last and only tells
of a change.
-/
namespace PowerScreen.ExcludeObject
open Library Library.Run

structure Entrances where
  session : Session := {}
  lastCount : ℕ := 0
  lastAvailable : Bool := false
  /-- The chip of the print card. -/
  chipHidden : Bool := true
  /-- The button of Print Status. -/
  actDisabled : Bool := true
  /-- What the two callbacks were called with. -/
  counts : List ℕ := []
  availabilities : List Bool := []

/-- The events after which the panel looks at its list. -/
def looks : Event → Bool
  | .update status => status ≠ .null
  | .sync _ | .opened _ => true
  | .closed | .click _ => false

/-- The length of the list an event brings. -/
def brought (e : Event) : Option ℕ :=
  match e with
  | .update status | .sync status | .opened status => match status.get? "objects" with
    | some (.arr os) => some os.length
    | _ => none
  | .closed | .click _ => none

/-- The length of the last list that came. -/
def announced (n : ℕ) (es : List Event) : ℕ := es.foldl (fun n e => (brought e).getD n) n

namespace Entrances

def setExcludeCount (s : Entrances) (count : ℕ) : Entrances :=
  { s with actDisabled := !decide (2 ≤ count), counts := s.counts ++ [count] }

def setExcludeAvailable (s : Entrances) (available : Bool) : Entrances :=
  { s with chipHidden := !available, availabilities := s.availabilities ++ [available] }

def updateCount (s : Entrances) : Entrances :=
  let count := s.session.panel.objects.length
  if count ≠ s.lastCount then { s with lastCount := count }.setExcludeCount count else s

def updateAvailable (s : Entrances) : Entrances :=
  let available := !s.session.panel.objects.isEmpty
  if available ≠ s.lastAvailable then
    { s with lastAvailable := available }.setExcludeAvailable available
  else s

def updateAvailability (s : Entrances) : Entrances := s.updateCount.updateAvailable

def step (s : Entrances) (e : Event) : Entrances :=
  let s' : Entrances := { s with session := s.session.step e }
  if s.session.running ∧ s'.session.running ∧ looks e then s'.updateAvailability else s'

/-- The count told last is shown, and no count was told twice in a row. -/
structure Counted (s : Entrances) (n : ℕ) : Prop where
  last : s.lastCount = n
  act : s.actDisabled = !decide (2 ≤ n)
  told : s.counts.getLastD 0 = n
  changes : List.IsChain (· ≠ ·) (0 :: s.counts)

structure Available (s : Entrances) (n : ℕ) : Prop where
  last : s.lastAvailable = !decide (n = 0)
  chip : s.chipHidden = decide (n = 0)
  told : s.availabilities.getLastD false = !decide (n = 0)
  changes : List.IsChain (· ≠ ·) (false :: s.availabilities)

theorem isChain_concat {α : Type*} {a b : α} {l : List α} (h : List.IsChain (· ≠ ·) (a :: l))
    (hb : b ≠ l.getLastD a) : List.IsChain (· ≠ ·) (a :: (l ++ [b])) := by
  rw [← List.cons_append]
  refine List.isChain_append.mpr ⟨h, List.isChain_singleton b, fun x hx y hy => ?_⟩
  rw [List.getLast?_cons, ← List.getLastD_eq_getLast?] at hx
  cases hx
  cases hy
  exact hb.symm

theorem counted_updateCount {s : Entrances} {n : ℕ} (h : s.Counted n) :
    s.updateCount.Counted s.session.panel.objects.length := by
  unfold updateCount
  dsimp only
  split_ifs with hne
  · refine ⟨rfl, rfl, List.getLastD_concat .., isChain_concat h.changes ?_⟩
    rwa [h.told, ← h.last]
  · rw [ne_eq, not_not] at hne
    rw [hne, h.last]
    exact h

theorem available_updateAvailable {s : Entrances} {n : ℕ} (h : s.Available n) :
    s.updateAvailable.Available s.session.panel.objects.length := by
  have hempty : s.session.panel.objects.isEmpty =
      decide (s.session.panel.objects.length = 0) := by
    rw [Bool.eq_iff_iff, List.isEmpty_iff, decide_eq_true_eq, List.length_eq_zero_iff]
  unfold updateAvailable
  dsimp only
  rw [hempty]
  split_ifs with hne
  · refine ⟨rfl, ?_, List.getLastD_concat .., isChain_concat h.changes ?_⟩
    · exact Bool.not_not _
    · rwa [h.told, ← h.last]
  · rw [ne_eq, not_not, h.last, Bool.not_inj_iff] at hne
    exact ⟨by rw [h.last, hne], by rw [h.chip, hne], by rw [h.told, hne], h.changes⟩

/-- Both are up to date with `n` objects. -/
def Tells (s : Entrances) (n : ℕ) : Prop := s.Counted n ∧ s.Available n

theorem tells_updateAvailability {s : Entrances} {n : ℕ} (h : s.Tells n) :
    s.updateAvailability.Tells s.session.panel.objects.length := by
  have hsession : s.updateCount.session = s.session := by
    unfold updateCount
    dsimp only
    split_ifs <;> rfl
  obtain ⟨hcount, havailable⟩ := h
  have hfirst := counted_updateCount hcount
  have hkeep : s.updateCount.Available n := by
    unfold updateCount
    dsimp only
    split_ifs
    · exact ⟨havailable.last, havailable.chip, havailable.told, havailable.changes⟩
    · exact havailable
  have hsecond := available_updateAvailable hkeep
  rw [hsession] at hsecond
  refine ⟨?_, hsecond⟩
  unfold updateAvailability updateAvailable
  dsimp only
  split_ifs
  · exact ⟨hfirst.last, hfirst.act, hfirst.told, hfirst.changes⟩
  · exact hfirst

end Entrances

namespace Panel

theorem length_mapM {α β : Type*} {f : α → Option β} {l : List α} {l' : List β}
    (h : l.mapM f = some l') : l'.length = l.length := by
  induction l generalizing l' with
  | nil =>
    cases h
    rfl
  | cons a l ih =>
    rw [List.mapM_cons] at h
    obtain ⟨b, -, h⟩ := Option.bind_eq_some_iff.mp h
    obtain ⟨bs, hbs, h⟩ := Option.bind_eq_some_iff.mp h
    cases h
    rw [List.length_cons, List.length_cons, ih hbs]

theorem length_mergeExcludedField (objects : List Object) (names : Option Json) :
    (mergeExcludedField objects names).length = objects.length := by
  unfold mergeExcludedField
  split
  · rename_i names
    have hfold : ∀ (ns : List String) (obs : List Object), (ns.foldl (fun obs n =>
        obs.map fun ob => if ob.name = n then { ob with excluded := true } else ob) obs).length =
          obs.length := by
      intro ns
      induction ns with
      | nil => exact fun _ => rfl
      | cons n ns ih => exact fun obs => (ih _).trans (List.length_map _)
    rw [mergeExcluded, hfold, List.length_map]
  · rfl

/-- A status without a list leaves the number of the objects. -/
theorem length_merge {p q : Panel} {status : Json} (h : p.merge status = some q) :
    q.objects.length = (brought (.update status)).getD p.objects.length := by
  unfold merge at h
  split_ifs at h with hobj
  · obtain ⟨objects, hobjects, rfl⟩ := Option.map_eq_some_iff.mp h
    dsimp only
    rw [length_mergeExcludedField]
    have hcount : ∀ f, mergeObjectsField p.objects f = some objects → objects.length = (match f with
        | some (.arr os) => some os.length
        | _ => none).getD p.objects.length := by
      intro f hf
      cases f with
      | none =>
        cases hf
        rfl
      | some v => cases v with
        | arr os => exact length_mapM hf
        | _ =>
          cases hf
          rfl
    exact hcount _ hobjects
  · cases h
    cases status with
    | obj ms => exact absurd rfl hobj
    | _ => rfl

theorem length_doExclude (p : Panel) : p.doExclude.1.objects.length = p.objects.length := by
  unfold doExclude
  split_ifs
  · rfl
  · split
    · rfl
    · exact List.length_set

theorem length_handleEvent (p : Panel) (t : Target) :
    (p.handleEvent t).1.objects.length = p.objects.length := by
  cases t with
  | cancel => rfl
  | ok => exact length_doExclude _
  | exclude row =>
    have hask (index : ℤ) : (p.ask index).objects = p.objects := by
      unfold ask
      split_ifs
      · rfl
      · split
        · rfl
        · split_ifs <;> rfl
    unfold handleEvent
    dsimp only
    split_ifs
    · rw [hask]
    · rfl

end Panel

namespace Entrances

/-- The list of the panel after an event. -/
theorem length_step {s : Session} (e : Event) (hrun : s.running) (hrun' : (s.step e).running) :
    (s.step e).panel.objects.length = (brought e).getD s.panel.objects.length := by
  unfold Session.step at hrun' ⊢
  rw [if_pos hrun] at hrun' ⊢
  have hupdated : ∀ (p : Option Panel), (s.updated p).running →
      ∃ q, p = some q ∧ (s.updated p).panel = q := by
    intro p hp
    cases p with
    | none => exact absurd hp Bool.false_ne_true
    | some q => exact ⟨q, rfl, rfl⟩
  cases e with
  | update status =>
    obtain ⟨q, hq, hpanel⟩ := hupdated _ hrun'
    dsimp only
    rw [hpanel]
    unfold Panel.consume at hq
    split_ifs at hq with hnull
    · cases hq
      rw [hnull]
      rfl
    · obtain ⟨r, hr, rfl⟩ := Option.map_eq_some_iff.mp hq
      rw [Panel.refresh_objects, Panel.length_merge hr]
  | sync full =>
    obtain ⟨q, hq, hpanel⟩ := hupdated _ hrun'
    dsimp only
    rw [hpanel]
    rw [Panel.syncFromState_eq] at hq
    obtain ⟨r, hr, rfl⟩ := Option.map_eq_some_iff.mp hq
    rw [Panel.refresh_objects, Panel.length_merge hr]
    rfl
  | opened full =>
    obtain ⟨q, hq, hpanel⟩ := hupdated _ hrun'
    dsimp only
    rw [hpanel]
    rw [Panel.foreground, Panel.syncFromState_eq] at hq
    obtain ⟨p, hp, rfl⟩ := Option.map_eq_some_iff.mp hq
    obtain ⟨r, hr, rfl⟩ := Option.map_eq_some_iff.mp hp
    exact (congrArg List.length (Panel.refresh_objects r)).trans (Panel.length_merge hr)
  | closed => rfl
  | click t =>
    dsimp only [Session.clicked]
    split_ifs
    · exact Panel.length_handleEvent s.panel t
    · rfl

/-- In a running session the entrances are up to date. -/
def Inv (s : Entrances) (n : ℕ) : Prop :=
  s.session.running → s.session.panel.objects.length = n ∧ s.Tells n

theorem inv_step {s : Entrances} {n : ℕ} (h : s.Inv n) (e : Event) :
    (s.step e).Inv ((brought e).getD n) := by
  intro hrun'
  have hsession : (s.step e).session = s.session.step e := by
    unfold step updateAvailability updateAvailable updateCount
    dsimp only
    split_ifs <;> rfl
  rw [hsession] at hrun'
  have hrun : s.session.running := by
    by_contra hstop
    unfold Session.step at hrun'
    rw [if_neg hstop] at hrun'
    exact hstop hrun'
  obtain ⟨hlen, htells⟩ := h hrun
  have hlen' := length_step e hrun hrun'
  rw [hlen] at hlen'
  refine ⟨by rw [hsession, hlen'], ?_⟩
  have hkeep : ({ s with session := s.session.step e } : Entrances).Tells n :=
    ⟨⟨htells.1.last, htells.1.act, htells.1.told, htells.1.changes⟩,
      ⟨htells.2.last, htells.2.chip, htells.2.told, htells.2.changes⟩⟩
  unfold step
  dsimp only
  split_ifs with hlook
  · have hnew := tells_updateAvailability hkeep
    rwa [hlen'] at hnew
  · have hquiet : brought e = none := by
      have hlook : looks e = false := by
        by_contra hl
        exact hlook ⟨hrun, hrun', by simpa using hl⟩
      cases e with
      | update status =>
        have hnull : status = .null := by simpa [looks] using hlook
        rw [hnull]
        rfl
      | sync full => cases hlook
      | opened full => cases hlook
      | closed => rfl
      | click t => rfl
    rw [hquiet]
    exact hkeep

theorem inv_run {s : Entrances} {n : ℕ} (h : s.Inv n) (es : List Event) :
    (run step s es).Inv (announced n es) := by
  induction es generalizing s n with
  | nil => exact h
  | cons e es ih => exact ih (inv_step h e)

/-- On every run: the chip is there for a print with objects and the button is enabled for one
with two, by the last list that came, and each callback is only called with what is new. -/
theorem entrances_of_run (es : List Event) (hrun : (run step {} es).session.running) :
    ((run step {} es).chipHidden = true ↔ announced 0 es = 0) ∧
      ((run step {} es).actDisabled = false ↔ 2 ≤ announced 0 es) ∧
      List.IsChain (· ≠ ·) (0 :: (run step {} es).counts) ∧
      List.IsChain (· ≠ ·) (false :: (run step {} es).availabilities) := by
  have hstart : ({} : Entrances).Inv 0 := fun _ =>
    ⟨rfl, ⟨rfl, rfl, rfl, List.isChain_singleton 0⟩, ⟨rfl, rfl, rfl, List.isChain_singleton false⟩⟩
  obtain ⟨-, hcount, havailable⟩ := inv_run hstart es hrun
  refine ⟨?_, ?_, hcount.changes, havailable.changes⟩
  · rw [havailable.chip, decide_eq_true_eq]
  · rw [hcount.act, Bool.not_eq_false', decide_eq_true_eq]

/-- Two objects, of which one is excluded. -/
theorem entrances_of_run_two :
    (run step {} [.update (Session.listing ["cube", "tower"]), .click (.exclude 0),
      .click .ok]).actDisabled = false := by
  exact (entrances_of_run [.update (Session.listing ["cube", "tower"]), .click (.exclude 0),
    .click .ok] (by decide)).2.1.mpr (by decide)

end Entrances

end PowerScreen.ExcludeObject
