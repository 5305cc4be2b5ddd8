import PowerScreen.Library.Run
import PowerScreen.ExcludeObject.Panel

/-! # The confirmation dialog of the Exclude Object panel

A session is the panel together with the object its dialog was opened for. Status
updates and the periodic reading of the state may come at any time; while the
dialog is shown it covers the rows. Every script sent is logged with the object
asked about and the list of that moment.
-/
namespace PowerScreen.ExcludeObject
open Library Library.Run

inductive Event where
  | update (status : Json)
  | sync (full : Json)
  | opened (full : Json)
  | closed
  | click (t : Target)

structure Command where
  script : String
  asked : String
  objects : List Object

structure Session where
  panel : Panel := {}
  /-- Name of the object the dialog was last opened for. -/
  asked : String := ""
  /-- Cleared by an exception, which ends the program. -/
  running : Bool := true
  sent : List Command := []

namespace Session

/-- The dialog swallows the touches outside of its two buttons. -/
def reaches (s : Session) : Target → Bool
  | .cancel => s.panel.confirmVisible
  | .ok => s.panel.confirmVisible
  | .exclude _ => !s.panel.confirmVisible

def updated (s : Session) : Option Panel → Session
  | some p => { s with panel := p }
  | none => { s with running := false }

/-- The object in the title once a click has opened the dialog. -/
def askedAfter (s : Session) (p : Panel) : Target → String
  | .exclude row =>
    if p.confirmVisible then (s.panel.objects[row]?.map Object.name).getD s.asked else s.asked
  | _ => s.asked

def clicked (s : Session) (t : Target) : Session :=
  if s.reaches t then
    { s with panel := (s.panel.handleEvent t).1
             asked := s.askedAfter (s.panel.handleEvent t).1 t
             sent := s.sent ++
              (s.panel.handleEvent t).2.map fun script => ⟨script, s.asked, s.panel.objects⟩ }
  else s

def step (s : Session) (e : Event) : Session :=
  if s.running then
    match e with
    | .update status => s.updated (s.panel.consume status)
    | .sync full => s.updated (s.panel.syncFromState full)
    | .opened full => s.updated (s.panel.foreground full)
    | .closed => { s with panel := { s.panel with confirmVisible := false } }
    | .click t => s.clicked t
  else s

/-- The object asked about is in the list, and nowhere excluded. -/
def Excludable (asked : String) (objects : List Object) : Prop :=
  (∃ o ∈ objects, o.name = asked) ∧ ∀ o ∈ objects, o.name = asked → o.excluded = false

instance (asked : String) (objects : List Object) : Decidable (Excludable asked objects) :=
  inferInstanceAs (Decidable ((∃ o ∈ objects, o.name = asked) ∧
    ∀ o ∈ objects, o.name = asked → o.excluded = false))

/-- Every script names the object asked about, which could still be excluded. -/
def Safe (s : Session) : Prop :=
  ∀ c ∈ s.sent, c.script = Panel.excludeScript c.asked ∧ Excludable c.asked c.objects

instance (s : Session) : Decidable s.Safe :=
  inferInstanceAs (Decidable (∀ c ∈ s.sent,
    c.script = Panel.excludeScript c.asked ∧ Excludable c.asked c.objects))

/-- A confirmation finds at the remembered index no entry at all, or the object
asked about with no entry of its name excluded. -/
def ConfirmsAsked (s : Session) (e : Event) : Prop :=
  s.running → e matches .click .ok → s.panel.confirmVisible → ∀ ob, 0 ≤ s.panel.pending →
    s.panel.objects[s.panel.pending.toNat]? = some ob →
      ob.name = s.asked ∧ ∀ o ∈ s.panel.objects, o.name = s.asked → o.excluded = false

/-- What the dialog shows is the name of the object asked about. -/
def Titled (s : Session) : Prop :=
  s.panel.confirmVisible → s.panel.confirmTitle = "Exclude " ++ Panel.displayName s.asked ++ "?"

theorem excludeScript_injective {m n : String}
    (h : Panel.excludeScript m = Panel.excludeScript n) : m = n :=
  (String.append_right_inj _).mp h

/-- Only a confirmation sends, and what it sends is the script of the entry at the
remembered index. -/
theorem handleEvent_sends (p : Panel) (t : Target) :
    (p.handleEvent t).2 = match t with
      | .ok => if p.pending < 0 then [] else
          (p.objects[p.pending.toNat]?.map fun ob => Panel.excludeScript ob.name).toList
      | _ => [] := by
  cases t with
  | cancel => rfl
  | exclude row =>
    simp only [Panel.handleEvent]
    split_ifs <;> rfl
  | ok =>
    simp only [Panel.handleEvent, Panel.doExclude]
    split_ifs
    · rfl
    · cases p.objects[p.pending.toNat]? <;> rfl

theorem sent_updated (s : Session) (p : Option Panel) : (s.updated p).sent = s.sent := by
  cases p <;> rfl

/-- A step other than a confirmation leaves the log as it is. -/
theorem sent_step {s : Session} {e : Event} (h : e ≠ .click .ok) : (s.step e).sent = s.sent := by
  unfold step
  split_ifs
  · cases e with
    | update status => exact sent_updated s _
    | sync full => exact sent_updated s _
    | opened full => exact sent_updated s _
    | closed => rfl
    | click t =>
      dsimp only [clicked]
      split_ifs
      · rw [handleEvent_sends]
        cases t with
        | ok => exact absurd rfl h
        | _ => simp
      · rfl
  · rfl

theorem sent_confirm (s : Session) :
    (s.step (.click .ok)).sent = s.sent ++
      if s.running ∧ s.panel.confirmVisible ∧ 0 ≤ s.panel.pending then
        (s.panel.objects[s.panel.pending.toNat]?.map fun ob =>
          ⟨Panel.excludeScript ob.name, s.asked, s.panel.objects⟩).toList
      else [] := by
  by_cases hr : s.running
  · by_cases hv : s.panel.confirmVisible
    · have hreach : s.reaches .ok = true := hv
      rw [step, if_pos hr]
      dsimp only [clicked]
      rw [if_pos hreach, handleEvent_sends]
      by_cases hp : s.panel.pending < 0
      · simp [hp]
      · simp only [hr, hv, true_and, not_lt.mp hp, hp, if_true, if_false]
        cases s.panel.objects[s.panel.pending.toNat]? <;> rfl
    · simp [step, hr, clicked, reaches, hv]
  · simp [step, hr]

/-- One step keeps the log safe exactly when a confirmation finds the object asked. -/
theorem safe_step_iff {s : Session} (h : s.Safe) (e : Event) :
    (s.step e).Safe ↔ s.ConfirmsAsked e := by
  by_cases he : e = .click .ok
  · subst he
    rw [Safe, sent_confirm]
    by_cases hc : s.running ∧ s.panel.confirmVisible ∧ 0 ≤ s.panel.pending
    · obtain ⟨hr, hv, hp⟩ := hc
      cases hob : s.panel.objects[s.panel.pending.toNat]? with
      | none =>
        refine ⟨fun _ _ _ _ ob _ hsome => ?_, fun _ c hc => h c (by simpa [hob] using hc)⟩
        rw [hob] at hsome
        cases hsome
      | some ob =>
        have hmem : ob ∈ s.panel.objects := List.mem_of_getElem? hob
        constructor
        · intro hsafe _ _ _ ob' _ hob'
          have hc := hsafe ⟨Panel.excludeScript ob.name, s.asked, s.panel.objects⟩
            (by simp [hr, hv, hp])
          rw [hob, Option.some.injEq] at hob'
          subst hob'
          exact ⟨excludeScript_injective hc.1, hc.2.2⟩
        · intro hask c hc
          obtain ⟨hname, hnone⟩ := hask hr rfl hv ob hp hob
          rw [List.mem_append] at hc
          rcases hc with hc | hc
          · exact h c hc
          · have hceq : c = ⟨Panel.excludeScript ob.name, s.asked, s.panel.objects⟩ := by
              simpa [hr, hv, hp] using hc
            subst hceq
            exact ⟨by rw [hname], ⟨ob, hmem, hname⟩, hnone⟩
    · rw [if_neg hc, List.append_nil]
      exact ⟨fun _ hr _ hv _ hp => absurd ⟨hr, hv, hp⟩ hc, fun _ => h⟩
  · rw [Safe, sent_step he]
    refine ⟨fun _ _ hok => ?_, fun _ => h⟩
    cases e with
    | click t =>
      cases t with
      | ok => exact absurd rfl he
      | _ => simp at hok
    | _ => simp at hok

theorem titled_updated {s : Session} (h : s.Titled) {p : Option Panel}
    (hp : ∀ q, p = some q → q.dialog = s.panel.dialog) : (s.updated p).Titled := by
  cases p with
  | none => exact h
  | some q =>
    have hd := hp q rfl
    simp only [Panel.dialog, Prod.mk.injEq] at hd
    obtain ⟨-, htitle, hvis⟩ := hd
    intro hv
    exact htitle.trans (h (hvis ▸ hv))

/-- A dialog is only ever opened for an entry of the list, under its name. -/
theorem titled_ask {s : Session} (hhid : s.panel.confirmVisible = false) (row : ℕ) :
    Titled { s with panel := s.panel.ask row
                    asked := s.askedAfter (s.panel.ask row) (.exclude row) } := by
  intro hv
  dsimp only [askedAfter] at hv ⊢
  rw [if_pos hv]
  cases hob : s.panel.objects[row]? with
  | none => simp [Panel.ask, hob, hhid] at hv
  | some ob =>
    by_cases hex : ob.excluded
    · simp [Panel.ask, hob, hex, hhid] at hv
    · have hrow : ¬ (row : ℤ) < 0 := by omega
      simp [Panel.ask, hob, hex, hrow]

theorem titled_clicked {s : Session} (h : s.Titled) (t : Target) : (s.clicked t).Titled := by
  unfold clicked
  split_ifs with hreach
  · cases t with
    | cancel => exact fun hv => absurd hv (by simp [Panel.handleEvent])
    | ok =>
      refine fun hv => absurd hv ?_
      simp only [Panel.handleEvent, Panel.doExclude]
      split_ifs
      · simp
      · cases s.panel.objects[s.panel.pending.toNat]? <;> simp [Panel.rebuild]
    | exclude row =>
      have hhid : s.panel.confirmVisible = false := by simpa [reaches] using hreach
      simp only [Panel.handleEvent]
      split_ifs
      · exact titled_ask hhid row
      · exact fun hv => absurd hv (by simp [hhid])
  · exact h

theorem titled_opened {s : Session} (h : s.Titled) (full : Json) :
    (s.updated (s.panel.foreground full)).Titled := by
  cases hf : s.panel.foreground full with
  | none => exact h
  | some q =>
    obtain ⟨r, -, rfl⟩ := Option.map_eq_some_iff.mp hf
    exact fun hv => absurd hv (by simp [updated])

theorem titled_step (s : Session) (e : Event) (h : s.Titled) : (s.step e).Titled := by
  unfold step
  split_ifs
  · cases e with
    | update status => exact titled_updated h fun q hq => Panel.consume_dialog hq
    | sync full => exact titled_updated h fun q hq => Panel.syncFromState_dialog hq
    | opened full => exact titled_opened h full
    | closed => exact fun hv => absurd hv (by simp)
    | click t => exact titled_clicked h t
  · exact h

/-- In every run of the panel the dialog shows the name of the object asked about;
every script sent names that object, still in the list and not excluded, exactly
when every confirmation finds it at the remembered index. -/
theorem safe_throughout_iff (es : List Event) :
    Throughout step Titled {} es ∧
      (Throughout step Safe {} es ↔ EachStep step ConfirmsAsked {} es) :=
  ⟨throughout_of_step titled_step (fun hv => absurd hv (by simp)) es,
    throughout_iff_eachStep (P := Safe) (fun _ e h => safe_step_iff h e) (by simp [Safe]) es⟩

/-- A status that lists objects by name only. -/
def listing (names : List String) : Json :=
  .obj [("objects", .arr (names.map fun n => .obj [("name", .str n)]))]

/-- The dialog asks about `cube`; meanwhile the list arrives in another order, and
the confirmation excludes `tower`. -/
theorem reordered_list_excludes_other :
    ¬ Throughout step Safe {} [.update (listing ["cube", "tower"]), .click (.exclude 0),
      .update (listing ["tower", "cube"]), .click .ok] := by
  intro h
  have hlast : Safe _ := h.2.2.2.2
  exact absurd hlast (by decide)

end Session
end PowerScreen.ExcludeObject
