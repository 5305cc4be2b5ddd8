import PowerScreen.Library.Stacking

/-! # The overlays of the main panel

The panels that cover the screen are children of it, like the tab view; to open one
moves it to the foreground, to close it moves it behind everything, the console
apart, which is hidden. The title bar is written from a list of entries that the
panels push and the Back button pops. System and Power Update are two pages of one
panel.
-/
namespace PowerScreen.MainPanel
open Library Library.Stacking

inductive Overlay where
  | printStatus | fineTune | system | powerUpdate | wifi | console | excludeObject
  | bedMesh | belts | filament | fans | movement | inputShaper | limits | pidTune
  | powerDevices | printers | cfs | tmcMetrics | tmcAutotune
deriving DecidableEq

def Overlay.title : Overlay → String
  | .printStatus => "Print Status"
  | .fineTune => "Fine Tune"
  | .system => "System"
  | .powerUpdate => "Power Update"
  | .wifi => "Wi-Fi"
  | .console => "Console"
  | .excludeObject => "Exclude Object"
  | .bedMesh => "Bed Mesh"
  | .belts => "Belts / Shake"
  | .filament => "Filament"
  | .fans => "Fans"
  | .movement => "Movement"
  | .inputShaper => "Input Shaper"
  | .limits => "Limits"
  | .pidTune => "PID Tune"
  | .powerDevices => "Power Devices"
  | .printers => "Printers"
  | .cfs => "CFS"
  | .tmcMetrics => "TMC Metrics"
  | .tmcAutotune => "TMC Autotune"

/-- The overlay whose container shows it. -/
def Overlay.cont : Overlay → Overlay
  | .powerUpdate => .system
  | o => o

inductive Tab where
  | home | calibrations | files | settings
deriving DecidableEq

/-- Home shows the logo. -/
def Tab.title : Tab → Option String
  | .home => none
  | .calibrations => some "Calibrations"
  | .files => some "Files"
  | .settings => some "Settings"

/-- The children of the screen that can cover each other. -/
inductive Layer where
  | tabview
  | cont (o : Overlay)
deriving DecidableEq

structure Header where
  title : Option String
  backPill : Bool
deriving DecidableEq

def headerOf (t : Tab) : Option Overlay → Header
  | some o => ⟨some o.title, true⟩
  | none => ⟨t.title, false⟩

structure Screen where
  /-- From the foreground to the background. -/
  layers : List Layer
  consoleHidden : Bool := true
  /-- Power Update is the page shown by the container of System. -/
  updatesPage : Bool := false
  powerUpdateDirect : Bool := false
  tab : Tab := .home
  /-- The newest entry first. -/
  overlays : List Overlay := []
  header : Header := ⟨none, false⟩

/-- What lies in front of the tab view when every container shows its pages. -/
def uncovered (pages : Overlay → List Overlay) : List Layer → List Overlay
  | [] | .tabview :: _ => []
  | .cont c :: ls => pages c ++ uncovered pages ls

inductive Event where
  /-- A tile, a row, or a print that starts. -/
  | foreground (o : Overlay)
  /-- The About row of System. -/
  | about
  | back
  | tapTab (t : Tab)

namespace Screen

def moveForeground (s : Screen) (l : Layer) : Screen := { s with layers := toFront l s.layers }

def moveBackground (s : Screen) (l : Layer) : Screen := { s with layers := toBack l s.layers }

def updateHeader (s : Screen) : Screen := { s with header := headerOf s.tab s.overlays.head? }

def pushOverlay (s : Screen) (o : Overlay) : Screen :=
  ({ s with overlays := if s.overlays.head?.map Overlay.title = some o.title then s.overlays
      else o :: s.overlays } : Screen).updateHeader

def showTab (s : Screen) (updates : Bool) : Screen :=
  if updates then
    { (if s.updatesPage then s else s.pushOverlay .powerUpdate) with updatesPage := true }
  else { s with updatesPage := false }

def openPowerUpdate (s : Screen) : Screen :=
  ({ (s.moveForeground (.cont .system)).showTab false with powerUpdateDirect := true } :
    Screen).showTab true

def openConsole (s : Screen) : Screen :=
  (({ s with consoleHidden := false } : Screen).moveForeground (.cont .console)).pushOverlay
    .console

def foreground (s : Screen) : Overlay → Screen
  | .system => ((s.moveForeground (.cont .system)).showTab false).pushOverlay .system
  | .powerUpdate => s.openPowerUpdate
  | .console => s.openConsole
  | o => (s.moveForeground (.cont o)).pushOverlay o

/-- The callback an overlay gives with its title. -/
def onBack (s : Screen) : Overlay → Screen
  | .printStatus => ({ s.moveBackground (.cont .printStatus) with tab := .home } : Screen).updateHeader
  | .powerUpdate =>
    let s := s.showTab false
    if s.powerUpdateDirect then
      ({ s with powerUpdateDirect := false } : Screen).moveBackground (.cont .system)
    else s
  | .console => { s with consoleHidden := true }
  | o => s.moveBackground (.cont o)

def handleBackClick (s : Screen) : Screen :=
  match s.overlays with
  | [] => s
  | top :: rest => (({ s with overlays := rest } : Screen).onBack top).updateHeader

def handleTabClick (s : Screen) (t : Tab) : Screen :=
  ({ ({ s with tab := t, consoleHidden := true } : Screen).moveForeground .tabview with
    overlays := [] } : Screen).updateHeader

/-- What a container shows, its uppermost page first: under a Power Update that was
opened from System lies System. -/
def pages (s : Screen) : Overlay → List Overlay
  | .system =>
    if s.updatesPage then
      (if s.powerUpdateDirect then [.powerUpdate] else [.powerUpdate, .system])
    else [.system]
  | .powerUpdate => []
  | .console => if s.consoleHidden then [] else [.console]
  | o => [o]

/-- The overlays in front of the tab view, the foremost first. -/
def inFront (s : Screen) : List Overlay := uncovered s.pages s.layers

/-- A row can be tapped when its page is the foremost. -/
def step (s : Screen) : Event → Screen
  | .foreground o => s.foreground o
  | .about => if s.inFront.head? = some .system then s.showTab true else s
  | .back => s.handleBackClick
  | .tapTab t => s.handleTabClick t

end Screen

section Uncovered

variable {f g : Overlay → List Overlay}

/-- A change of the pages that respects concatenation carries over to the screen. -/
theorem uncovered_map {h : List Overlay → List Overlay} (hnil : h [] = [])
    (happ : ∀ xs ys, h (xs ++ ys) = h xs ++ h ys) (hg : ∀ c, g c = h (f c)) (ls : List Layer) :
    uncovered g ls = h (uncovered f ls) := by
  induction ls with
  | nil => exact hnil.symm
  | cons l ls ih =>
    cases l with
    | tabview => exact hnil.symm
    | cont c => rw [uncovered, uncovered, happ, hg, ih]

theorem uncovered_congr {ls : List Layer} (h : ∀ c, .cont c ∈ ls → f c = g c) :
    uncovered f ls = uncovered g ls := by
  induction ls with
  | nil => rfl
  | cons l ls ih =>
    cases l with
    | tabview => rfl
    | cont c =>
      rw [uncovered, uncovered, h c List.mem_cons_self,
        ih fun d hd => h d (List.mem_cons_of_mem _ hd)]

/-- Without a container its pages are not on the screen. -/
theorem uncovered_without (hf : ∀ c, ∀ o ∈ f c, o.cont = c) (c : Overlay) (ls : List Layer) :
    uncovered f (ls.filter (· ≠ .cont c)) = (uncovered f ls).filter (·.cont ≠ c) := by
  induction ls with
  | nil => rfl
  | cons l ls ih =>
    cases l with
    | tabview => rfl
    | cont d =>
      rw [uncovered, List.filter_append, ← ih]
      by_cases hd : d = c
      · have hnone : (f d).filter (·.cont ≠ c) = [] :=
          List.filter_eq_nil_iff.mpr fun o ho => by simp [hf d o ho, hd]
        rw [List.filter_cons_of_neg (by simp [hd]), hnone, List.nil_append]
      · have hall : (f d).filter (·.cont ≠ c) = f d :=
          List.filter_eq_self.mpr fun o ho => by simp [hf d o ho, hd]
        rw [List.filter_cons_of_pos (by simp [hd]), hall, uncovered]

theorem uncovered_append {ls : List Layer} (h : .tabview ∈ ls) (ms : List Layer) :
    uncovered f (ls ++ ms) = uncovered f ls := by
  induction ls with
  | nil => cases h
  | cons l ls ih =>
    cases l with
    | tabview => rfl
    | cont c =>
      have hmem : .tabview ∈ ls := by simpa using h
      rw [List.cons_append, uncovered, uncovered, ih hmem]

theorem exists_page_of_mem {o : Overlay} {ls : List Layer} (h : o ∈ uncovered f ls) :
    ∃ c, o ∈ f c := by
  induction ls with
  | nil => cases h
  | cons l ls ih =>
    cases l with
    | tabview => cases h
    | cont c => exact (List.mem_append.mp h).elim (fun h => ⟨c, h⟩) ih

theorem exists_page_of_head? {o : Overlay} {ls : List Layer}
    (h : (uncovered f ls).head? = some o) : ∃ c, (f c).head? = some o := by
  induction ls with
  | nil => cases h
  | cons l ls ih =>
    cases l with
    | tabview => cases h
    | cont c =>
      rw [uncovered, List.head?_append] at h
      cases hc : (f c).head? with
      | none => exact ih (by simpa [hc] using h)
      | some x => exact ⟨c, by simpa [hc] using h⟩

end Uncovered

namespace Screen

theorem cont_of_mem_pages {s : Screen} {c o : Overlay} (h : o ∈ s.pages c) : o.cont = c := by
  unfold pages at h
  split at h
  · split_ifs at h
    · rw [List.mem_singleton.mp h]
      rfl
    · rcases List.mem_pair.mp h with rfl | rfl <;> rfl
    · rw [List.mem_singleton.mp h]
      rfl
  · cases h
  · split_ifs at h
    · cases h
    · rw [List.mem_singleton.mp h]
      rfl
  · rename_i hp _
    rw [List.mem_singleton.mp h]
    unfold Overlay.cont
    split
    · exact absurd rfl hp
    · rfl

/-- The pages of an overlay do not matter behind the others. -/
theorem uncovered_filter_congr {s s' : Screen} {c : Overlay}
    (hp : ∀ d, d ≠ c → s'.pages d = s.pages d) :
    uncovered s'.pages (s.layers.filter (· ≠ .cont c)) =
      uncovered s.pages (s.layers.filter (· ≠ .cont c)) := by
  refine uncovered_congr fun d hd => hp d fun hdc => ?_
  simp [hdc] at hd

theorem inFront_toFront {s s' : Screen} {c : Overlay} (hl : s'.layers = toFront (.cont c) s.layers)
    (hp : ∀ d, d ≠ c → s'.pages d = s.pages d) :
    s'.inFront = s'.pages c ++ s.inFront.filter (·.cont ≠ c) := by
  rw [inFront, hl, toFront, uncovered, uncovered_filter_congr hp,
    uncovered_without fun _ _ => cont_of_mem_pages]
  rfl

theorem inFront_toBack {s s' : Screen} {c : Overlay} (htab : .tabview ∈ s.layers)
    (hl : s'.layers = toBack (.cont c) s.layers) (hp : ∀ d, d ≠ c → s'.pages d = s.pages d) :
    s'.inFront = s.inFront.filter (·.cont ≠ c) := by
  rw [inFront, hl, toBack, uncovered_append (List.mem_filter.mpr ⟨htab, by simp⟩),
    uncovered_filter_congr hp, uncovered_without fun _ _ => cont_of_mem_pages]
  rfl

theorem inFront_filter {s s' : Screen} {q : Overlay → Bool} (hl : s'.layers = s.layers)
    (hp : ∀ c, s'.pages c = (s.pages c).filter q) : s'.inFront = s.inFront.filter q := by
  rw [inFront, hl]
  exact uncovered_map rfl List.filter_append hp s.layers

theorem exists_page_of_mem_inFront {s : Screen} {o : Overlay} (h : o ∈ s.inFront) :
    o ∈ s.pages o.cont := by
  obtain ⟨c, hc⟩ := exists_page_of_mem h
  rwa [cont_of_mem_pages hc]

@[simp] theorem updateHeader_inFront (s : Screen) : s.updateHeader.inFront = s.inFront := rfl

theorem title_injective {a b : Overlay} (h : a.title = b.title) : a = b := by
  revert h
  cases a <;> cases b <;> decide

theorem pushOverlay_eq (s : Screen) (o : Overlay) :
    s.pushOverlay o = ({ s with overlays := push o s.overlays } : Screen).updateHeader := by
  have hiff : s.overlays.head?.map Overlay.title = some o.title ↔ s.overlays.head? = some o := by
    cases s.overlays with
    | nil => simp
    | cons a as => simpa using ⟨title_injective, fun h => by rw [h]⟩
  rw [pushOverlay, push]
  simp only [hiff]

/-- What opening an overlay does. -/
theorem foreground_fields (s : Screen) (o : Overlay) :
    (s.foreground o).layers = toFront (.cont o.cont) s.layers ∧
      (s.foreground o).overlays = push o s.overlays ∧
      (s.foreground o).header = headerOf (s.foreground o).tab (push o s.overlays).head? ∧
      (s.foreground o).pages o.cont = [o] ∧
      ∀ d, d ≠ o.cont → (s.foreground o).pages d = s.pages d := by
  cases o with
  | system =>
    rw [foreground, pushOverlay_eq]
    exact ⟨rfl, rfl, rfl, rfl, fun d hd => by
      cases d <;> first | rfl | exact absurd rfl hd⟩
  | powerUpdate =>
    have hpush : ∀ s : Screen, s.updatesPage = false → s.showTab true =
        { s.pushOverlay .powerUpdate with updatesPage := true } := fun s hs => by
      rw [showTab, if_pos rfl, if_neg (by simp [hs])]
    rw [foreground, openPowerUpdate, hpush _ rfl, pushOverlay_eq]
    exact ⟨rfl, rfl, rfl, rfl, fun d hd => by
      cases d <;> first | rfl | exact absurd rfl hd⟩
  | console =>
    rw [foreground, openConsole, pushOverlay_eq]
    exact ⟨rfl, rfl, rfl, rfl, fun d hd => by
      cases d <;> first | rfl | exact absurd rfl hd⟩
  | _ =>
    rw [foreground, pushOverlay_eq]
    · exact ⟨rfl, rfl, rfl, rfl, fun d hd => by cases d <;> rfl⟩
    all_goals exact nofun

end Screen
end PowerScreen.MainPanel
