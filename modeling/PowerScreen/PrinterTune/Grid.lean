import PowerScreen.Library.RowMajor
import PowerScreen.Library.Run
import PowerScreen.State.Store

/-! # The tiles of the calibration tab

Five of the eleven tiles depend on what the printer has. They are looked for with every first
report and every list of power devices, and the grid is filled anew with what was found.
-/
namespace PowerScreen.PrinterTune
open Library Library.Json Library.RowMajor Library.Run

inductive Button where
  | bedmesh
  | finetune
  | inputshaper
  | beltsCalibration
  | limits
  | tmcTune
  | tmcStatus
  | powerDevices
  | console
  | pidTune
  | nozzleClean
deriving DecidableEq

/-- How the nozzle is cleaned: by the filament box, or over the brush. -/
inductive NozzleCleanMode where
  | unavailable
  | box
  | brush
deriving DecidableEq

structure Available where
  tmcTune : Bool := false
  tmcStatus : Bool := false
  powerDevices : Bool := false
  nozzleClean : NozzleCleanMode := .unavailable
deriving DecidableEq

inductive RowHeight where
  | fr
  | pixels (h : ℕ)
deriving DecidableEq

structure Panel where
  available : Available := {}
  tmcTuneEnabled : Bool := false
  tile : Button → Tile := fun _ => {}
  /-- The grid rows up to their end mark, which takes one more entry of the six there are. -/
  gridRows : List RowHeight := [.fr, .fr]
  scrollable : Bool := false

/-- The tiles in their order. -/
def Available.buttons (a : Available) : List (Button × Bool) :=
  [(.bedmesh, true), (.finetune, true), (.inputshaper, true), (.beltsCalibration, true),
    (.limits, true), (.tmcTune, a.tmcTune), (.tmcStatus, a.tmcStatus),
    (.powerDevices, a.powerDevices), (.console, true), (.pidTune, true),
    (.nozzleClean, decide (a.nozzleClean ≠ .unavailable))]

namespace Panel

variable (overlayHeight : ℕ)

def relayout (p : Panel) : Panel :=
  let placed := placeAll 4 (p.tile, 0) p.available.buttons
  let rows := max 2 ((placed.2 + 3) / 4)
  { p with
    tile := placed.1
    gridRows := List.replicate rows
      (if 2 < rows then .pixels ((overlayHeight - 3 * 12) / 2) else .fr)
    scrollable := decide (2 < rows) }

/-- The panel when it has been built. -/
def create : Panel := ({} : Panel).relayout overlayHeight

/-- The answer with the power devices. -/
def setPowerDevices (p : Panel) (j : Doc) : Option Panel := do
  let devices ← getAt ["result", "devices"] j.json
  let available := devices.isArray && !devices.isEmpty
  if available ≠ p.available.powerDevices then
    return { p with available := { p.available with powerDevices := available } }.relayout
      overlayHeight
  else return p

def joinPath (dir file : String) : String :=
  if dir = "" ∨ dir.toList.getLast? = some '/' then dir ++ file else dir ++ "/" ++ file

def lower (name : String) : String := String.ofList (name.toList.map Char.toLower)

/-- What an object says about the tiles. -/
def scan (a : Available) (object : Json) : Available :=
  match object with
  | .str object =>
    let name := lower object
    { a with
      tmcStatus := a.tmcStatus || name = "gcode_macro _ps_load_module" || name = "tmcstatus"
      nozzleClean :=
        if name = "box" then .box
        else if name = "gcode_macro ps_nocfs_clean_brush" ∧ a.nozzleClean = .unavailable then
          .brush
        else a.nozzleClean }
  | _ => a

/-- `none` is the exception of a path that is no text, or of a pointer that meets a scalar. -/
def init (exists' : String → Bool) (s : State) (p : Panel) : Option Panel := do
  let kp ← s.getData ["printer_info", "klipper_path"]
  let tmcTune ← (if kp = .null then some false
    else kp.str?.map fun dir => exists' (joinPath dir "klippy/extras/motor_database.cfg"))
  let objects ← s.getData ["printer_objs", "objects"]
  let found := (if objects.isArray then objects.elements else []).foldl scan
    { p.available with tmcTune := tmcTune, tmcStatus := false, nozzleClean := .unavailable }
  return { p with available := found, tmcTuneEnabled := p.tmcTuneEnabled || tmcTune }.relayout
    overlayHeight

inductive Event where
  | init (exists' : String → Bool) (s : State)
  | powerDevices (j : Doc)

def handle (p : Panel) : Event → Option Panel
  | .init exists' s => p.init overlayHeight exists' s
  | .powerDevices j => p.setPowerDevices overlayHeight j

/-- After an exception there is no panel any more. -/
def step (p : Option Panel) (e : Event) : Option Panel := p.bind (handle overlayHeight · e)

end Panel

namespace Available

/-- The tiles that are there, in their order. -/
def shown (a : Available) : List Button := wanted a.buttons

theorem nodup_buttons (a : Available) : (a.buttons.map Prod.fst).Nodup := by
  change [Button.bedmesh, .finetune, .inputshaper, .beltsCalibration, .limits, .tmcTune,
    .tmcStatus, .powerDevices, .console, .pidTune, .nozzleClean].Nodup
  decide

theorem nodup_shown (a : Available) : a.shown.Nodup :=
  a.nodup_buttons.sublist (List.filter_sublist.map Prod.fst)

theorem mem_buttons (a : Available) (b : Button) : (b, decide (b ∈ a.shown)) ∈ a.buttons := by
  have hmem : b ∈ a.buttons.map Prod.fst := by
    change b ∈ [Button.bedmesh, .finetune, .inputshaper, .beltsCalibration, .limits, .tmcTune,
      .tmcStatus, .powerDevices, .console, .pidTune, .nozzleClean]
    cases b <;> decide
  obtain ⟨⟨b', wants⟩, he, hb⟩ := List.mem_map.mp hmem
  cases hb
  have hwants : decide (b' ∈ a.shown) = wants := by
    cases wants with
    | true => exact decide_eq_true (List.mem_map.mpr ⟨(b', true), by simpa using he, rfl⟩)
    | false =>
      refine decide_eq_false fun hshown => ?_
      obtain ⟨e, he', hb⟩ := List.mem_map.mp hshown
      obtain ⟨he', hwants⟩ := List.mem_filter.mp he'
      have heq := List.inj_on_of_nodup_map a.nodup_buttons he he' hb.symm
      rw [← heq] at hwants
      cases hwants
  rw [hwants]
  exact he

theorem length_shown_le (a : Available) : a.shown.length ≤ 11 := by
  rw [shown, wanted, List.length_map]
  exact List.length_filter_le _ a.buttons

end Available

/-- The grid shows what there is: the tiles fill it from its first cell on, row by row and
each in a cell of its own, and it has as many rows as that takes, but two at least. -/
structure Laid (p : Panel) : Prop where
  hidden : ∀ b, (p.tile b).hidden = !decide (b ∈ p.available.shown)
  cells : p.available.shown.map (fun b => (p.tile b).cell) =
    (List.range p.available.shown.length).map (RowMajor.cell 4)
  distinct : ∀ b ∈ p.available.shown, ∀ c ∈ p.available.shown,
    (p.tile b).cell = (p.tile c).cell → b = c
  inside : ∀ b ∈ p.available.shown,
    (p.tile b).cell.1 < 4 ∧ (p.tile b).cell.2 < p.gridRows.length
  rows : p.gridRows.length = if 8 < p.available.shown.length then 3 else 2
  scrollable : p.scrollable = decide (8 < p.available.shown.length)
  enabled : p.available.tmcTune → p.tmcTuneEnabled

theorem laid_relayout (overlayHeight : ℕ) {p : Panel}
    (h : p.available.tmcTune → p.tmcTuneEnabled) : Laid (p.relayout overlayHeight) := by
  have hnodup := p.available.nodup_buttons
  have hcount : (placeAll 4 (p.tile, 0) p.available.buttons).2 = p.available.shown.length :=
    (placeAll_count _ _).trans (Nat.zero_add _)
  have hle := p.available.length_shown_le
  have hcells : p.available.shown.map (fun b => ((p.relayout overlayHeight).tile b).cell) =
      (List.range p.available.shown.length).map (RowMajor.cell 4) := by
    rw [List.range_eq_range']
    exact map_cell_placeAll hnodup (p.tile, 0)
  have hrows : (p.relayout overlayHeight).gridRows.length =
      max 2 ((p.available.shown.length + 3) / 4) := by
    rw [← hcount]
    exact List.length_replicate
  have hcell : ∀ b ∈ p.available.shown, ∃ i < p.available.shown.length,
      ((p.relayout overlayHeight).tile b).cell = RowMajor.cell 4 i := by
    intro b hb
    have hmem := List.mem_map_of_mem (f := fun b => ((p.relayout overlayHeight).tile b).cell) hb
    rw [hcells] at hmem
    obtain ⟨i, hi, hcell⟩ := List.mem_map.mp hmem
    exact ⟨i, List.mem_range.mp hi, hcell.symm⟩
  refine ⟨fun b => hidden_placeAll hnodup (p.available.mem_buttons b) (p.tile, 0), hcells, ?_,
    fun b hb => ?_, ?_, ?_, h⟩
  · have hinj : (p.available.shown.map
        (fun b => ((p.relayout overlayHeight).tile b).cell)).Nodup := by
      rw [hcells]
      exact List.nodup_range.map (cell_injective 4)
    exact fun b hb c hc hbc => List.inj_on_of_nodup_map hinj hb hc hbc
  · obtain ⟨i, hi, hcell⟩ := hcell b hb
    rw [hcell, hrows]
    exact ⟨Nat.mod_lt i (by decide), lt_max_of_lt_right (snd_cell_lt (by decide) hi)⟩
  · rw [hrows]
    change _ = if 8 < p.available.shown.length then 3 else 2
    split_ifs <;> omega
  · change decide (2 < max 2 (((placeAll 4 (p.tile, 0) p.available.buttons).2 + 3) / 4)) =
      decide (8 < p.available.shown.length)
    rw [hcount, decide_eq_decide]
    omega

section Found

/-- The names of the printer's objects, in small letters. -/
def objectNames (objects : List Json) : List String :=
  objects.filterMap fun o => o.str?.map Panel.lower

/-- In which order the objects are listed does not matter. -/
theorem foldl_scan (objects : List Json) (a : Available) : objects.foldl Panel.scan a =
    { a with
      tmcStatus := a.tmcStatus || decide ("gcode_macro _ps_load_module" ∈ objectNames objects ∨
        "tmcstatus" ∈ objectNames objects)
      nozzleClean := if "box" ∈ objectNames objects then .box
        else if a.nozzleClean = .unavailable ∧
            "gcode_macro ps_nocfs_clean_brush" ∈ objectNames objects then .brush
          else a.nozzleClean } := by
  induction objects generalizing a with
  | nil => simp [objectNames]
  | cons o objects ih =>
    rw [List.foldl_cons, ih]
    cases o with
    | str name =>
      have hnames : objectNames (.str name :: objects) =
          Panel.lower name :: objectNames objects := rfl
      rw [hnames, Panel.scan]
      simp only [List.mem_cons]
      refine congrArg₂ (fun t n => { a with tmcStatus := t, nozzleClean := n }) ?_ ?_
      · by_cases hload : Panel.lower name = "gcode_macro _ps_load_module"
        · simp [hload]
        · by_cases htmc : Panel.lower name = "tmcstatus"
          · simp [htmc]
          · simp [hload, htmc, Ne.symm hload, Ne.symm htmc]
      · by_cases hbox : Panel.lower name = "box"
        · simp [hbox]
        · by_cases hbrush : Panel.lower name = "gcode_macro ps_nocfs_clean_brush"
          · by_cases hnone : a.nozzleClean = .unavailable <;> simp [hbrush, hnone]
          · simp [hbox, hbrush, Ne.symm hbox, Ne.symm hbrush]
    | _ => rfl

/-- The tiles there should be, by the last first report and the last list of power devices. -/
def Available.step (a : Available) : Panel.Event → Available
  | .init exists' s =>
    let names := (s.getData ["printer_objs", "objects"]).elim [] fun objects =>
      objectNames (if objects.isArray then objects.elements else [])
    { a with
      tmcTune := (s.getData ["printer_info", "klipper_path"]).elim false fun kp =>
        kp.str?.elim false fun dir =>
          exists' (Panel.joinPath dir "klippy/extras/motor_database.cfg")
      tmcStatus := decide ("gcode_macro _ps_load_module" ∈ names ∨ "tmcstatus" ∈ names)
      nozzleClean := if "box" ∈ names then .box
        else if "gcode_macro ps_nocfs_clean_brush" ∈ names then .brush else .unavailable }
  | .powerDevices j => { a with
      powerDevices := (getAt ["result", "devices"] j.json).elim false fun devices =>
        devices.isArray && !devices.isEmpty }

variable {overlayHeight : ℕ}

theorem available_init {exists' : String → Bool} {s : State} {p q : Panel}
    (h : p.init overlayHeight exists' s = some q) :
    q.available = p.available.step (.init exists' s) ∧ (Laid p → Laid q) := by
  simp only [Panel.init, Option.bind_eq_bind, Option.bind_eq_some_iff] at h
  obtain ⟨kp, hkp, tmcTune, htmc, objects, hobjects, h⟩ := h
  cases h
  rw [foldl_scan]
  have htune : tmcTune = kp.str?.elim false fun dir =>
      exists' (Panel.joinPath dir "klippy/extras/motor_database.cfg") := by
    split_ifs at htmc with hnull
    · rw [hnull]
      exact (Option.some.inj htmc).symm
    · obtain ⟨dir, hdir, rfl⟩ := Option.map_eq_some_iff.mp htmc
      rw [hdir]
      rfl
  constructor
  · rw [Available.step, hkp, hobjects]
    simp only [Panel.relayout, Option.elim_some, htune, Bool.false_or, true_and]
    congr
  · intro hp
    refine laid_relayout overlayHeight fun htune => ?_
    dsimp only at htune ⊢
    rw [htune, Bool.or_true]

theorem available_setPowerDevices {j : Doc} {p q : Panel}
    (h : p.setPowerDevices overlayHeight j = some q) :
    q.available = p.available.step (.powerDevices j) ∧ (Laid p → Laid q) := by
  simp only [Panel.setPowerDevices, Option.bind_eq_bind, Option.bind_eq_some_iff] at h
  obtain ⟨devices, hdevices, h⟩ := h
  rw [Available.step, hdevices, Option.elim_some]
  split_ifs at h with hne
  · cases h
    exact ⟨rfl, fun hp => laid_relayout overlayHeight hp.enabled⟩
  · cases h
    rw [not_not.mp hne]
    exact ⟨rfl, id⟩

/-- After every run the tab has a tile for what the printer has, and they are laid out. -/
theorem grid_of_run (overlayHeight : ℕ) (es : List Panel.Event) (p : Panel)
    (h : run (Panel.step overlayHeight) (some (Panel.create overlayHeight)) es = some p) :
    p.available = run Available.step {} es ∧ Laid p := by
  have hlaid : Laid (Panel.create overlayHeight) := laid_relayout overlayHeight fun h => h
  have hrun : ∀ (es : List Panel.Event) (p₀ : Panel), Laid p₀ →
      run (Panel.step overlayHeight) (some p₀) es = some p →
        p.available = run Available.step p₀.available es ∧ Laid p := by
    intro es
    induction es with
    | nil =>
      intro p₀ hp₀ h
      cases h
      exact ⟨rfl, hp₀⟩
    | cons e es ih =>
      intro p₀ hp₀ h
      rw [run_cons] at h
      cases hstep : Panel.step overlayHeight (some p₀) e with
      | none =>
        have hnone : run (Panel.step overlayHeight) none es = none :=
          run_of_step (P := fun o => o = none) (fun o e ho => by rw [ho]; rfl) rfl es
        rw [hstep, hnone] at h
        cases h
      | some p₁ =>
        rw [hstep] at h
        have hone : p₁.available = p₀.available.step e ∧ (Laid p₀ → Laid p₁) := by
          cases e with
          | init exists' s => exact available_init hstep
          | powerDevices j => exact available_setPowerDevices hstep
        rw [run_cons, ← hone.1]
        exact ih p₁ (hone.2 hp₀) h
  exact hrun es _ hlaid h

/-- A printer with the filament box and an outlet. -/
def boxAndOutlet : List Panel.Event :=
  [.init (fun _ => false)
      ⟨[("printer_objs", .obj [("objects", .arr [.str "tmcstatus", .str "BOX", .num (.int 1)])])],
        by decide⟩,
    .powerDevices ⟨.obj [("result", .obj [("devices", .arr [.obj []])])], by decide⟩]

theorem grid_of_run_box : ∃ p, run (Panel.step 436) (some (Panel.create 436)) boxAndOutlet = some p ∧
    (p.tile .nozzleClean).cell = (1, 2) ∧
    p.available = run Available.step {} boxAndOutlet ∧ Laid p := by
  have hcell : (run (Panel.step 436) (some (Panel.create 436)) boxAndOutlet).map
      (fun p => (p.tile .nozzleClean).cell) = some (1, 2) := by decide
  obtain ⟨p, hp, hcell⟩ := Option.map_eq_some_iff.mp hcell
  exact ⟨p, hp, hcell, grid_of_run 436 boxAndOutlet p hp⟩

end Found

end PowerScreen.PrinterTune
