import PowerScreen.Power.Panel
import PowerScreen.Library.Run

/-! # What the switches show

A switch shows the last status that Moonraker reported, turned once by every tap since then. Only a
reply that carries the status sets it right again, so a tap that is answered by an error leaves it
wrong.
-/
namespace PowerScreen.Power
open Library Library.Run

/-- The last status of a device in a list. -/
def reported : List (String × String) → String → Option String
  | [], _ => none
  | (name, status) :: rest, n => (reported rest n).or (if name = n then some status else none)

def deviceEntry (d : String × String) : Json := .obj [("device", .str d.1), ("status", .str d.2)]

/-- The answer that lists the devices. -/
def deviceList (ds : List (String × String)) : Json :=
  .obj [("result", .obj [("devices", .arr (ds.map deviceEntry))])]

inductive Reply where
  | success (statuses : List (String × String))
  | error (body : Json)

def Reply.statuses : Reply → List (String × String)
  | .success statuses => statuses
  | .error _ => []

def Reply.toJson : Reply → Json
  | .success statuses => .obj [("result", .obj (statuses.map fun d => (d.1, .str d.2)))]
  | .error body => .obj [("error", body)]

/-- The panel with the requests that wait for a reply, the status last reported for every device
and the number of taps since then. -/
structure Session where
  panel : Panel
  outstanding : List Request
  told : String → Option String
  taps : String → ℕ

def Session.start (ds : List (String × String)) : Session :=
  ⟨createDevices (deviceList ds) Panel.new, [], reported ds, fun _ => 0⟩

inductive Event where
  | tap (name : String)
  | refresh
  | reply (r : Reply)

/-- Replies come in the order of the requests. -/
def step (s : Session) : Event → Session
  | .tap name =>
    let p := s.panel.handleCallback name
    { s with
      panel := p.1
      outstanding := s.outstanding ++ p.2
      taps := fun n => if n = name then s.taps n + 1 else s.taps n }
  | .refresh =>
    let p := s.panel.foreground
    { s with panel := p.1, outstanding := s.outstanding ++ p.2 }
  | .reply r =>
    match s.outstanding with
    | [] => s
    | _ :: rest =>
      { panel := handleDeviceCallback r.toJson s.panel
        outstanding := rest
        told := fun n => (reported r.statuses n).or (s.told n)
        taps := fun n => if (reported r.statuses n).isSome then 0 else s.taps n }

/-- Without an outstanding request every device shows what was last reported for it. -/
def Truthful (s : Session) : Prop :=
  s.outstanding = [] → ∀ n d, s.panel.devices.lookup n = some d → ∃ status,
    s.told n = some status ∧ d.toggle = decide (status = "on") ∧ d.state = Badge.of (status = "on")

/-- A reply that leaves no request outstanding carries the status of every device that was tapped
an odd number of times. -/
def Settled (s : Session) : Event → Prop
  | .reply r => s.outstanding.length = 1 → ∀ n, (s.panel.devices.lookup n).isSome →
      reported r.statuses n = none → Even (s.taps n)
  | _ => True

@[simp] theorem lookup_setDevice (name n : String) (d : Device) (p : Panel) :
    (p.setDevice name d).devices.lookup n = if n = name then some d else p.devices.lookup n :=
  Assoc.lookup_insert n name d p.devices

/-- Devices that are listed show the status of the list. -/
theorem lookup_createDevices (ds : List (String × String)) (p : Panel) (n : String) :
    (untilException createDevice (ds.map deviceEntry) p).devices.lookup n =
      ((reported ds n).map fun status => setState (status = "on")).or (p.devices.lookup n) := by
  induction ds generalizing p with
  | nil => rfl
  | cons d ds ih =>
    have hcreate : createDevice (deviceEntry d) p =
        ((p.addRow d.1).setDevice d.1 (setState (d.2 = "on")), true) := rfl
    rw [List.map_cons, untilException, hcreate, if_pos rfl, ih, reported]
    cases reported ds n with
    | some status => rfl
    | none =>
      rw [Option.map_none, Option.none_or, Option.none_or, lookup_setDevice]
      by_cases hn : d.1 = n
      · rw [if_pos hn, if_pos hn.symm]
        rfl
      · have hrow : (p.addRow d.1).devices.lookup n = p.devices.lookup n := by
          rw [Panel.addRow]
          split_ifs
          · rfl
          · exact (lookup_setDevice d.1 n _ p).trans (if_neg (Ne.symm hn))
        rw [if_neg hn, if_neg (Ne.symm hn), hrow]
        rfl

/-- A reply sets the devices it names and no others. -/
theorem lookup_takeStatuses (ss : List (String × String)) (p : Panel) (n : String) :
    (untilException takeStatus (ss.map fun d => (d.1, Json.str d.2)) p).devices.lookup n =
      (p.devices.lookup n).map fun d =>
        ((reported ss n).map fun status => setState (status = "on")).getD d := by
  induction ss generalizing p with
  | nil =>
    cases hn : p.devices.lookup n <;> simp [untilException, reported, hn]
  | cons s ss ih =>
    rw [List.map_cons, untilException, reported]
    cases hs : p.devices.lookup s.1 with
    | none =>
      have htake : takeStatus (s.1, .str s.2) p = (p, true) := by rw [takeStatus, hs]
      rw [htake, if_pos rfl, ih]
      by_cases hn : s.1 = n
      · rw [← hn, hs]
        rfl
      · rw [if_neg hn, Option.or_none]
    | some d =>
      have htake : takeStatus (s.1, .str s.2) p =
          (p.setDevice s.1 (setState (s.2 = "on")), true) := by
        rw [takeStatus, hs]
        rfl
      rw [htake, if_pos rfl, ih, lookup_setDevice]
      by_cases hn : s.1 = n
      · rw [if_pos hn, if_pos hn.symm, ← hn, hs]
        cases reported ss s.1 <;> rfl
      · rw [if_neg hn, if_neg (Ne.symm hn), Option.or_none]

theorem lookup_handleDeviceCallback (r : Reply) (p : Panel) (n : String) :
    (handleDeviceCallback r.toJson p).devices.lookup n =
      (p.devices.lookup n).map fun d =>
        ((reported r.statuses n).map fun status => setState (status = "on")).getD d := by
  cases r with
  | success ss => exact lookup_takeStatuses ss p n
  | error body => exact lookup_takeStatuses [] p n

/-- What a device shows at any time. -/
def Turned (s : Session) : Prop :=
  ∀ n d, s.panel.devices.lookup n = some d → ∃ status, s.told n = some status ∧
    d = setState ((status = "on") != Nat.bodd (s.taps n))

theorem turned_start (ds : List (String × String)) : Turned (Session.start ds) := by
  intro n d hd
  have hlookup := lookup_createDevices ds Panel.new n
  have hstart : (Session.start ds).panel.devices.lookup n =
      (reported ds n).map fun status => setState (status = "on") := by
    exact hlookup.trans (Option.or_none)
  rw [hstart] at hd
  obtain ⟨status, hstatus, rfl⟩ := Option.map_eq_some_iff.mp hd
  exact ⟨status, hstatus, by simp [Session.start]⟩

theorem turned_tap {s : Session} (h : Turned s) (name : String) :
    Turned (step s (.tap name)) := by
  intro n d hd
  simp only [step, Panel.handleCallback] at hd ⊢
  cases hname : s.panel.devices.lookup name with
  | none =>
    rw [hname] at hd
    by_cases hn : n = name
    · rw [hn, hname] at hd
      cases hd
    · rw [if_neg hn]
      exact h n d hd
  | some old =>
    rw [hname, lookup_setDevice] at hd
    by_cases hn : n = name
    · rw [if_pos hn, Option.some_inj] at hd
      obtain ⟨status, htold, hold⟩ := h name old hname
      refine ⟨status, hn ▸ htold, ?_⟩
      rw [if_pos hn, Nat.bodd_succ, hn, ← hd, hold]
      have hnot (b c : Bool) : (!(b != c)) = (b != !c) := by
        cases b <;> cases c <;> rfl
      simp only [setState, hnot]
    · rw [if_neg hn] at hd
      rw [if_neg hn]
      exact h n d hd

theorem turned_reply {s : Session} (h : Turned s) (r : Reply) : Turned (step s (.reply r)) := by
  intro n d hd
  rw [step] at hd ⊢
  cases hout : s.outstanding with
  | nil =>
    rw [hout] at hd
    exact h n d hd
  | cons q rest =>
    rw [hout] at hd
    dsimp only at hd ⊢
    rw [lookup_handleDeviceCallback] at hd
    obtain ⟨old, hold, rfl⟩ := Option.map_eq_some_iff.mp hd
    cases hr : reported r.statuses n with
    | none =>
      obtain ⟨status, htold, hshown⟩ := h n old hold
      exact ⟨status, htold, hshown⟩
    | some status => exact ⟨status, rfl, by simp⟩

theorem turned_step (s : Session) (e : Event) (h : Turned s) : Turned (step s e) := by
  cases e with
  | tap name => exact turned_tap h name
  | refresh => exact h
  | reply r => exact turned_reply h r

/-- A switch is right after an even number of taps. -/
theorem truthful_iff {s : Session} (h : Turned s) : Truthful s ↔
    (s.outstanding = [] → ∀ n, (s.panel.devices.lookup n).isSome → Even (s.taps n)) := by
  refine imp_congr_right fun _ => forall_congr' fun n => ?_
  constructor
  · intro hshown hsome
    obtain ⟨d, hd⟩ := Option.isSome_iff_exists.mp hsome
    obtain ⟨status, htold, htoggle, -⟩ := hshown d hd
    obtain ⟨status', htold', rfl⟩ := h n d hd
    obtain rfl : status = status' := Option.some_inj.mp (htold.symm.trans htold')
    rw [Nat.even_iff, Nat.mod_two_of_bodd]
    simp only [setState] at htoggle
    cases hodd : Nat.bodd (s.taps n) with
    | false => rfl
    | true =>
      rw [hodd] at htoggle
      cases hon : decide (status = "on") <;> rw [hon] at htoggle <;> cases htoggle
  · intro heven d hd
    obtain ⟨status, htold, rfl⟩ := h n d hd
    have hodd : Nat.bodd (s.taps n) = false := by
      have hmod := Nat.even_iff.mp (heven (Option.isSome_iff_exists.mpr ⟨_, hd⟩))
      rw [Nat.mod_two_of_bodd] at hmod
      cases hb : Nat.bodd (s.taps n) with
      | false => rfl
      | true =>
        rw [hb] at hmod
        cases hmod
    refine ⟨status, htold, ?_, ?_⟩ <;> simp [setState, hodd]

/-- Which devices there are never changes. -/
theorem isSome_lookup_reply (r : Reply) (p : Panel) (n : String) :
    ((handleDeviceCallback r.toJson p).devices.lookup n).isSome = (p.devices.lookup n).isSome := by
  rw [lookup_handleDeviceCallback, Option.isSome_map]

theorem truthful_step_iff {s : Session} (e : Event) (hturned : Turned s) (h : Truthful s) :
    Truthful (step s e) ↔ Settled s e := by
  cases e with
  | tap name =>
    refine iff_of_true ?_ trivial
    cases hname : s.panel.devices.lookup name with
    | none =>
      rw [truthful_iff (turned_tap hturned name)]
      rw [truthful_iff hturned] at h
      simp only [step, Panel.handleCallback, hname, List.append_nil]
      intro hout n hn
      have hne : n ≠ name := by
        rintro rfl
        rw [hname] at hn
        cases hn
      rw [if_neg hne]
      exact h hout n hn
    | some d =>
      intro hout
      simp [step, Panel.handleCallback, hname] at hout
  | refresh =>
    refine iff_of_true (fun hout => ?_) trivial
    simp [step, Panel.foreground] at hout
  | reply r =>
    rw [truthful_iff (turned_reply hturned r), Settled]
    cases hout : s.outstanding with
    | nil =>
      have hsame : step s (.reply r) = s := by rw [step, hout]
      rw [hsame]
      refine iff_of_true ((truthful_iff hturned).mp h) fun hone => ?_
      cases hone
    | cons q rest =>
      simp only [step, hout, isSome_lookup_reply, List.length_cons, Nat.add_eq_right,
        List.length_eq_zero_iff]
      refine imp_congr_right fun _ => forall_congr' fun n => imp_congr_right fun _ => ?_
      cases reported r.statuses n with
      | none => simp
      | some status => simp

/-- For every list of devices and every sequence of taps, refreshes and replies. -/
theorem truthful_throughout_iff (ds : List (String × String)) (es : List Event) :
    Throughout step Truthful (Session.start ds) es ↔
      EachStep step Settled (Session.start ds) es := by
  refine throughout_iff_eachStep_of (fun s e hturned h => truthful_step_iff e hturned h) ?_
    (eachStep_of_invariant turned_step (turned_start ds) es)
  rw [truthful_iff (turned_start ds)]
  exact fun _ _ _ => Even.zero

/-- A device that refuses to be switched on. -/
theorem refused_tap_shown :
    ¬ Truthful (run step (Session.start [("psu", "off")]) [.tap "psu", .reply (.error .null)]) := by
  intro h
  obtain ⟨status, htold, htoggle, -⟩ := h rfl "psu" (setState true) (by decide)
  cases htold
  exact absurd htoggle (by decide)

end PowerScreen.Power
