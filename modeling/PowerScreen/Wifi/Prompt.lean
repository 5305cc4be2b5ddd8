import PowerScreen.Library.Run
import PowerScreen.Wifi.Panel

/-! # The network a password is asked for

The prompt names the network that was selected when it was opened, while a connection goes
to the network selected at its end. A visit is the panel together with the prompt under
which every letter of the password was typed, and a log of the passwords sent.
-/
namespace PowerScreen.Wifi
open Library Library.Run

/-- The saved networks are looked up before a supplicant's event takes the lock, so taps
may come in between. -/
inductive Event where
  | lookup (nets : String)
  | scanned (reply : String)
  | connected
  | row (index : ℕ)
  | connect (nid : String)
  | forget (nets : String)
  | scan
  | focused
  | defocused
  | insert (pos : ℕ) (c : Char)
  | erase (pos : ℕ)
  | ready (nid : String)
  | back

/-- A password on its way: the network it is sent to, whether a prompt is shown and which
one, and the prompts under which it was typed. -/
structure Sending where
  ssid : String
  shown : Bool
  prompt : String
  typedUnder : List String
deriving DecidableEq

structure Visit where
  panel : Panel := Panel.start
  typedUnder : List String := []
  sendings : List Sending := []

namespace Visit

/-- The panel goes on, and where the password is emptied nothing of it is left. -/
def goOn (s : Visit) (p : Panel) : Visit :=
  { s with panel := p, typedUnder := if p.password = [] then [] else s.typedUnder }

/-- The password that the key to confirm sends. -/
def sending (s : Visit) : List Sending :=
  if s.panel.password = [] then []
  else [⟨s.panel.selectedNetwork, s.panel.promptShown, s.panel.passwordLabel, s.typedUnder⟩]

variable (fmt : DebugFormat)

def step (s : Visit) : Event → Visit
  | .lookup nets => s.goOn (s.panel.findCurrentNetwork nets).1
  | .scanned reply => s.goOn (s.panel.showScan reply)
  | .connected => s.goOn s.panel.showConnected
  | .row index => s.goOn (s.panel.handleRow index)
  | .connect nid =>
    if s.panel.status.connectEnabled then s.goOn (s.panel.handleConnect fmt nid).1 else s
  | .forget nets => if s.panel.status.forgetShown then s.goOn (s.panel.handleForget nets).1 else s
  | .scan => s
  | .focused => if s.panel.promptShown then s.goOn { s.panel with keyboard := true } else s
  | .defocused => s.goOn { s.panel with keyboard := false }
  | .insert pos c =>
    if s.panel.keyboard then
      { s with
        panel := { s.panel with password := s.panel.password.insertIdx pos c }
        typedUnder := s.typedUnder.insertIdx pos s.panel.passwordLabel }
    else s
  | .erase pos =>
    if s.panel.keyboard then
      { s with
        panel := { s.panel with password := s.panel.password.eraseIdx pos }
        typedUnder := s.typedUnder.eraseIdx pos }
    else s
  | .ready nid =>
    if s.panel.keyboard then
      { s.goOn (s.panel.handleReady fmt nid).1 with sendings := s.sendings ++ s.sending }
    else s
  | .back => s.goOn s.panel.hidePasswordPrompt

def promptFor (ssid : String) : String := "Password for " ++ ssid

end Visit

/-- The prompt is shown, names the network, and was the one the password was typed under. -/
def Sending.Asked (c : Sending) : Prop :=
  c.shown ∧ c.prompt = Visit.promptFor c.ssid ∧ ∀ t ∈ c.typedUnder, t = Visit.promptFor c.ssid

namespace Visit

variable (fmt : DebugFormat)

def AllAsked (s : Visit) : Prop := ∀ c ∈ s.sendings, c.Asked

/-- The user returns to the password, types on and confirms. -/
def confirm (typed : List Char) (nid : String) : List Event :=
  .focused :: typed.map (.insert 0) ++ [.ready nid]

/-- Whatever is typed and confirmed from here is sent to the network it is asked for. -/
def SafeToConfirm (s : Visit) : Prop :=
  ∀ typed nid, (run (step fmt) s (confirm typed nid)).AllAsked

def opensPrompt (p : Panel) (n : Network) : Prop :=
  n.ssid ≠ p.curNetwork ∧ p.listNetworks.lookup n.ssid = none ∧ n.isSecure

/-- A tap on Connect or Forget while the prompt is open finds the selected network to be the
one the prompt names, unless it opens the prompt anew with nothing typed yet. -/
def Steady (s : Visit) : Event → Prop
  | .connect _ => s.panel.status.connectEnabled → s.panel.promptShown →
      ∀ n, s.panel.chosen = some n → s.panel.passwordLabel = promptFor n.ssid ∨
        (opensPrompt s.panel n ∧ s.panel.password = [])
  | .forget _ => s.panel.status.forgetShown → s.panel.promptShown →
      ∀ n, s.panel.chosen = some n → s.panel.passwordLabel = promptFor n.ssid
  | _ => True

/-- How the password, the keyboard and the prompt belong together. -/
structure Linked (s : Visit) : Prop where
  length : s.typedUnder.length = s.panel.password.length
  keyboard : s.panel.keyboard → s.panel.promptShown
  hidden : s.panel.promptShown = false → s.panel.password = []

/-- The open prompt names the selected network and is the one the password is typed under. -/
structure Matching (s : Visit) : Prop where
  asked : s.AllAsked
  named : s.panel.promptShown → s.panel.passwordLabel = promptFor s.panel.selectedNetwork
  typed : s.panel.promptShown → ∀ t ∈ s.typedUnder, t = s.panel.passwordLabel

/-- What a panel function may do to the prompt while it only looks elsewhere. -/
structure KeepsPrompt (p q : Panel) : Prop where
  shown : q.promptShown = p.promptShown
  label : q.passwordLabel = p.passwordLabel
  password : q.password = p.password
  keyboard : q.keyboard = p.keyboard
  selected : q.selectedNetwork = p.selectedNetwork

theorem KeepsPrompt.refl (p : Panel) : KeepsPrompt p p := ⟨rfl, rfl, rfl, rfl, rfl⟩

theorem KeepsPrompt.trans {p q r : Panel} (h : KeepsPrompt p q) (k : KeepsPrompt q r) :
    KeepsPrompt p r :=
  ⟨k.shown.trans h.shown, k.label.trans h.label, k.password.trans h.password,
    k.keyboard.trans h.keyboard, k.selected.trans h.selected⟩

theorem keepsPrompt_updateStatus (p : Panel) : KeepsPrompt p p.updateStatus :=
  ⟨rfl, rfl, rfl, rfl, rfl⟩

theorem keepsPrompt_rebuildList (p : Panel) : KeepsPrompt p p.rebuildList :=
  ⟨rfl, rfl, rfl, rfl, rfl⟩

theorem keepsPrompt_showScan (p : Panel) (reply : String) : KeepsPrompt p (p.showScan reply) :=
  ⟨rfl, rfl, rfl, rfl, rfl⟩

theorem keepsPrompt_showConnected (p : Panel) : KeepsPrompt p p.showConnected :=
  (keepsPrompt_rebuildList p).trans (keepsPrompt_updateStatus _)

theorem keepsPrompt_findCurrentNetwork (p : Panel) (nets : String) :
    KeepsPrompt p (p.findCurrentNetwork nets).1 := by
  have hfold : ∀ (lines : List (List Char)) (found : Panel × Bool), KeepsPrompt p found.1 →
      KeepsPrompt p (lines.foldl Panel.noteNetwork found).1 := by
    intro lines
    induction lines with
    | nil => exact fun _ h => h
    | cons line lines ih =>
      exact fun found h => ih _ (h.trans ⟨rfl, rfl, rfl, rfl, rfl⟩)
  exact hfold _ _ ⟨rfl, rfl, rfl, rfl, rfl⟩

theorem handleConnect_cases (p : Panel) (nid : String) :
    (p.chosen = none ∧ (p.handleConnect fmt nid).1 = p) ∨
      ∃ n, p.chosen = some n ∧
        ((opensPrompt p n ∧ (p.handleConnect fmt nid).1 =
            ({ p with selectedNetwork := n.ssid }).showPasswordPrompt) ∨
          (¬ opensPrompt p n ∧ (p.handleConnect fmt nid).1 =
            { p with selectedNetwork := n.ssid })) := by
  unfold Panel.handleConnect opensPrompt
  cases hchosen : p.chosen with
  | none => exact Or.inl ⟨rfl, rfl⟩
  | some n =>
    refine Or.inr ⟨n, rfl, ?_⟩
    by_cases hcur : n.ssid = p.curNetwork
    · exact Or.inr ⟨fun h => h.1 hcur, by simp [hcur]⟩
    · cases hsaved : p.listNetworks.lookup n.ssid with
      | some id => exact Or.inr ⟨fun h => by simp at h, by simp [hcur, hsaved]⟩
      | none =>
        by_cases hsec : n.isSecure
        · exact Or.inl ⟨⟨hcur, rfl, hsec⟩, by simp [hcur, hsaved, hsec]⟩
        · exact Or.inr ⟨fun h => hsec h.2.2, by simp [hcur, hsaved, hsec]⟩

theorem handleForget_cases (p : Panel) (nets : String) :
    (p.chosen = none ∧ (p.handleForget nets).1 = p) ∨
      ∃ n, p.chosen = some n ∧
        KeepsPrompt { p with selectedNetwork := n.ssid } (p.handleForget nets).1 := by
  unfold Panel.handleForget
  cases p.chosen with
  | none => exact Or.inl ⟨rfl, rfl⟩
  | some n =>
    refine Or.inr ⟨n, rfl, ?_⟩
    cases hsaved : p.listNetworks.lookup n.ssid with
    | none =>
      simp only [hsaved]
      exact KeepsPrompt.refl _
    | some id =>
      simp only [hsaved]
      exact ((keepsPrompt_findCurrentNetwork _ nets).trans (keepsPrompt_rebuildList _)).trans
        (keepsPrompt_updateStatus _)

theorem handleRow_cases (p : Panel) (index : ℕ) : p.handleRow index = p ∨
    ((p.handleRow index).promptShown = false ∧ (p.handleRow index).password = [] ∧
      (p.handleRow index).keyboard = false) := by
  unfold Panel.handleRow
  cases p.networks[index]? with
  | none => exact Or.inl rfl
  | some n => exact Or.inr ⟨rfl, rfl, rfl⟩

def Hidden (p : Panel) : Prop := p.promptShown = false ∧ p.password = [] ∧ p.keyboard = false

/-- What a step can do to the prompt, and what has to hold for it to be steady. -/
inductive Turn (s : Visit) : Visit → Prop → Prop
  | look {p : Panel} (h : KeepsPrompt s.panel p) : Turn s (s.goOn p) True
  | target {ssid : String} {p : Panel}
      (h : KeepsPrompt { s.panel with selectedNetwork := ssid } p) :
      Turn s (s.goOn p) (s.panel.promptShown → s.panel.passwordLabel = promptFor ssid)
  | ask (ssid : String) :
      Turn s (s.goOn ({ s.panel with selectedNetwork := ssid }).showPasswordPrompt)
        (s.panel.promptShown → s.panel.passwordLabel = promptFor ssid ∨ s.panel.password = [])
  | hide {p : Panel} (h : Hidden p) : Turn s (s.goOn p) True
  | keys {b : Bool} (h : b → s.panel.promptShown) :
      Turn s (s.goOn { s.panel with keyboard := b }) True
  | type {password : List Char} {typed : List String} (hkey : s.panel.keyboard)
      (hlen : s.typedUnder.length = s.panel.password.length → typed.length = password.length)
      (hmem : ∀ t ∈ typed, t = s.panel.passwordLabel ∨ t ∈ s.typedUnder) :
      Turn s { s with panel := { s.panel with password := password }, typedUnder := typed } True
  | send {p : Panel} (hkey : s.panel.keyboard) (h : Hidden p) :
      Turn s { s.goOn p with sendings := s.sendings ++ [⟨s.panel.selectedNetwork,
        s.panel.promptShown, s.panel.passwordLabel, s.typedUnder⟩] } True

theorem Linked.typedUnder_eq_nil_iff {s : Visit} (h : Linked s) :
    s.typedUnder = [] ↔ s.panel.password = [] := by
  rw [← List.length_eq_zero_iff, h.length, List.length_eq_zero_iff]

theorem goOn_typedUnder {s : Visit} (h : Linked s) {p : Panel}
    (hp : p.password = s.panel.password) : (s.goOn p).typedUnder = s.typedUnder := by
  by_cases hnil : p.password = []
  · rw [h.typedUnder_eq_nil_iff.mpr (hp.symm.trans hnil)]
    exact if_pos hnil
  · exact if_neg hnil

theorem goOn_eq {s : Visit} (h : Linked s) {p : Panel} (hp : p.password = s.panel.password) :
    s.goOn p = { s with panel := p } := by
  rw [Visit.mk.injEq]
  exact ⟨rfl, goOn_typedUnder h hp, rfl⟩

theorem goOn_panel {s : Visit} (h : Linked s) : s.goOn s.panel = s := goOn_eq h rfl

theorem mem_of_mem_insertIdx {ts : List String} {pos : ℕ} {t u : String}
    (h : t ∈ ts.insertIdx pos u) : t = u ∨ t ∈ ts := by
  by_cases hpos : pos ≤ ts.length
  · exact (List.mem_insertIdx hpos).mp h
  · rw [List.insertIdx_of_length_lt (Nat.lt_of_not_le hpos)] at h
    exact Or.inr h

theorem step_turn {s : Visit} (hs : Linked s) (e : Event) :
    ∃ steady, (Steady s e ↔ steady) ∧ Turn s (step fmt s e) steady := by
  have hstay : Turn s s True := by
    have h := Turn.look (KeepsPrompt.refl s.panel)
    rwa [goOn_panel hs] at h
  cases e with
  | lookup nets => exact ⟨_, Iff.rfl, .look (keepsPrompt_findCurrentNetwork _ nets)⟩
  | scanned reply => exact ⟨_, Iff.rfl, .look (keepsPrompt_showScan _ reply)⟩
  | connected => exact ⟨_, Iff.rfl, .look (keepsPrompt_showConnected _)⟩
  | row index =>
    rcases handleRow_cases s.panel index with heq | hhidden
    · rw [step, heq, goOn_panel hs]
      exact ⟨_, Iff.rfl, hstay⟩
    · exact ⟨_, Iff.rfl, .hide hhidden⟩
  | connect nid =>
    rw [step]
    by_cases henabled : s.panel.status.connectEnabled
    · rw [if_pos henabled]
      rcases handleConnect_cases fmt s.panel nid with
        ⟨hnone, heq⟩ | ⟨n, hn, ⟨hopens, heq⟩ | ⟨hopens, heq⟩⟩
      · rw [heq, goOn_panel hs]
        refine ⟨True, iff_true_intro ?_, hstay⟩
        intro _ _ n hn
        exact absurd (hnone.symm.trans hn) (by simp)
      · rw [heq]
        refine ⟨_, ?_, .ask n.ssid⟩
        simp [Steady, henabled, hn, hopens]
      · rw [heq]
        refine ⟨_, ?_, .target (KeepsPrompt.refl _)⟩
        simp [Steady, henabled, hn, hopens]
    · rw [if_neg henabled]
      exact ⟨True, iff_true_intro fun h => absurd h henabled, hstay⟩
  | forget nets =>
    rw [step]
    by_cases hforget : s.panel.status.forgetShown
    · rw [if_pos hforget]
      rcases handleForget_cases s.panel nets with ⟨hnone, heq⟩ | ⟨n, hn, hkeeps⟩
      · rw [heq, goOn_panel hs]
        refine ⟨True, iff_true_intro ?_, hstay⟩
        intro _ _ n hn
        exact absurd (hnone.symm.trans hn) (by simp)
      · refine ⟨_, ?_, .target hkeeps⟩
        simp [Steady, hforget, hn]
    · rw [if_neg hforget]
      exact ⟨True, iff_true_intro fun h => absurd h hforget, hstay⟩
  | scan => exact ⟨_, Iff.rfl, hstay⟩
  | focused =>
    rw [step]
    split_ifs with hshown
    · exact ⟨_, Iff.rfl, .keys fun _ => hshown⟩
    · exact ⟨_, Iff.rfl, hstay⟩
  | defocused => exact ⟨_, Iff.rfl, .keys fun h => absurd h (by decide)⟩
  | insert pos c =>
    rw [step]
    split_ifs with hkey
    · refine ⟨_, Iff.rfl, .type hkey (fun hlen => ?_) fun t ht => ?_⟩
      · simp only [List.length_insertIdx, hlen]
      · exact mem_of_mem_insertIdx ht
    · exact ⟨_, Iff.rfl, hstay⟩
  | erase pos =>
    rw [step]
    split_ifs with hkey
    · refine ⟨_, Iff.rfl, .type hkey (fun hlen => ?_) fun t ht => ?_⟩
      · simp only [List.length_eraseIdx, hlen]
      · exact Or.inr (List.mem_of_mem_eraseIdx ht)
    · exact ⟨_, Iff.rfl, hstay⟩
  | ready nid =>
    rw [step]
    split_ifs with hkey
    · by_cases hnil : s.panel.password = []
      · have hready : (s.panel.handleReady fmt nid).1 = s.panel := by
          rw [Panel.handleReady, if_pos hnil]
        rw [hready, goOn_panel hs, sending, if_pos hnil, List.append_nil]
        exact ⟨_, Iff.rfl, hstay⟩
      · rw [sending, if_neg hnil]
        refine ⟨_, Iff.rfl, .send hkey ?_⟩
        rw [Panel.handleReady, if_neg hnil]
        exact ⟨rfl, rfl, rfl⟩
    · exact ⟨_, Iff.rfl, hstay⟩
  | back => exact ⟨_, Iff.rfl, .hide ⟨rfl, rfl, rfl⟩⟩

end Visit

end PowerScreen.Wifi
