import Mathlib.Tactic

/-! # Runs of an event-driven machine

A machine is a total step function on a state and an event; a run is the list of
its events. A safety property of every visited state is traded here for a guard
on each step: the guard holds of every event, in the state that receives it,
exactly when the property is never lost.
-/
namespace PowerScreen.Library.Run

variable {σ ε : Type*} (step : σ → ε → σ)

def run (s : σ) (es : List ε) : σ := es.foldl step s

@[simp] theorem run_nil (s : σ) : run step s [] = s := rfl

@[simp] theorem run_cons (s : σ) (e : ε) (es : List ε) :
    run step s (e :: es) = run step (step s e) es := rfl

theorem run_append (s : σ) (es fs : List ε) :
    run step s (es ++ fs) = run step (run step s es) fs := List.foldl_append

/-- `P` holds of the first state and after every event. -/
def Throughout (P : σ → Prop) : σ → List ε → Prop
  | s, [] => P s
  | s, e :: es => P s ∧ Throughout P (step s e) es

/-- `C` holds of every event together with the state that receives it. -/
def EachStep (C : σ → ε → Prop) : σ → List ε → Prop
  | _, [] => True
  | s, e :: es => C s e ∧ EachStep C (step s e) es

variable {step}

/-- A view of the state that follows each step follows the run. -/
theorem run_map {τ : Type*} {step' : τ → ε → τ} {f : σ → τ}
    (h : ∀ s e, f (step s e) = step' (f s) e) (s : σ) (es : List ε) :
    f (run step s es) = run step' (f s) es := by
  induction es generalizing s with
  | nil => rfl
  | cons e es ih => rw [run_cons, run_cons, ih, h]

theorem Throughout.head {P : σ → Prop} {s : σ} {es : List ε}
    (h : Throughout step P s es) : P s := by
  cases es with
  | nil => exact h
  | cons e es => exact h.1

theorem throughout_iff_prefix {P : σ → Prop} {s : σ} {es : List ε} :
    Throughout step P s es ↔ ∀ fs, fs <+: es → P (run step s fs) := by
  induction es generalizing s with
  | nil => simp [Throughout]
  | cons e es ih =>
    rw [Throughout, ih]
    constructor
    · rintro ⟨hs, hes⟩ fs hfs
      rcases List.prefix_cons_iff.mp hfs with rfl | ⟨gs, rfl, hgs⟩
      · exact hs
      · exact hes gs hgs
    · intro h
      exact ⟨h [] (List.nil_prefix), fun gs hgs =>
        h (e :: gs) (List.cons_prefix_cons.mpr ⟨rfl, hgs⟩)⟩

theorem EachStep.mono {C D : σ → ε → Prop} (h : ∀ s e, C s e → D s e) {s : σ} {es : List ε}
    (hC : EachStep step C s es) : EachStep step D s es := by
  induction es generalizing s with
  | nil => trivial
  | cons e es ih => exact ⟨h _ _ hC.1, ih hC.2⟩

theorem eachStep_of_forall {C : σ → ε → Prop} (h : ∀ s e, C s e) (s : σ) (es : List ε) :
    EachStep step C s es := by
  induction es generalizing s with
  | nil => trivial
  | cons e es ih => exact ⟨h s e, ih _⟩

theorem eachStep_of_invariant {I : σ → Prop} (h : ∀ s e, I s → I (step s e)) {s : σ}
    (hs : I s) (es : List ε) : EachStep step (fun s _ => I s) s es := by
  induction es generalizing s with
  | nil => trivial
  | cons e es ih => exact ⟨hs, ih (h s e hs)⟩

/-- Induction over a run: an invariant kept by every step holds throughout. -/
theorem throughout_of_step {P : σ → Prop} (h : ∀ s e, P s → P (step s e)) {s : σ}
    (hs : P s) (es : List ε) : Throughout step P s es := by
  induction es generalizing s with
  | nil => exact hs
  | cons e es ih => exact ⟨hs, ih (h s e hs)⟩

theorem run_of_step {P : σ → Prop} (h : ∀ s e, P s → P (step s e)) {s : σ}
    (hs : P s) (es : List ε) : P (run step s es) :=
  throughout_iff_prefix.mp (throughout_of_step h hs es) es List.prefix_rfl

/-- An invariant that events of one kind keep holds after any run of them. -/
theorem run_of_forall {Q : ε → Prop} {I : σ → Prop} (h : ∀ s e, Q e → I s → I (step s e)) {s : σ}
    (hs : I s) {es : List ε} (hes : ∀ e ∈ es, Q e) : I (run step s es) := by
  induction es generalizing s with
  | nil => exact hs
  | cons e es ih =>
    exact ih (h s e (hes e List.mem_cons_self) hs) fun f hf => hes f (List.mem_cons_of_mem e hf)

/-- The exact guard of a property. `B` collects what is known of every step of the
run beforehand; under it a step from a good state stays good iff its guard holds. -/
theorem throughout_iff_eachStep_of {B C : σ → ε → Prop} {P : σ → Prop}
    (h : ∀ s e, B s e → P s → (P (step s e) ↔ C s e)) {s : σ} (hs : P s) {es : List ε}
    (hB : EachStep step B s es) : Throughout step P s es ↔ EachStep step C s es := by
  induction es generalizing s with
  | nil => exact ⟨fun _ => trivial, fun _ => hs⟩
  | cons e es ih =>
    have hstep := h s e hB.1 hs
    constructor
    · rintro ⟨-, hes⟩
      have hP : P (step s e) := hes.head
      exact ⟨hstep.mp hP, (ih hP hB.2).mp hes⟩
    · rintro ⟨hC, hes⟩
      have hP : P (step s e) := hstep.mpr hC
      exact ⟨hs, (ih hP hB.2).mpr hes⟩

/-- The same for a property `P` that is kept by an invariant `I` stronger than itself. -/
theorem throughout_iff_eachStep_inv {B C : σ → ε → Prop} {I P : σ → Prop}
    (hP : ∀ s, I s → P s) (hkeep : ∀ s e, B s e → I s → C s e → I (step s e))
    (hneed : ∀ s e, B s e → I s → P (step s e) → C s e) {s : σ} (hs : I s) {es : List ε}
    (hB : EachStep step B s es) : Throughout step P s es ↔ EachStep step C s es := by
  induction es generalizing s with
  | nil => exact ⟨fun _ => trivial, fun _ => hP s hs⟩
  | cons e es ih =>
    constructor
    · rintro ⟨-, hes⟩
      have hC : C s e := hneed s e hB.1 hs hes.head
      exact ⟨hC, (ih (hkeep s e hB.1 hs hC) hB.2).mp hes⟩
    · rintro ⟨hC, hes⟩
      exact ⟨hP s hs, (ih (hkeep s e hB.1 hs hC) hB.2).mpr hes⟩

/-- Under guards that keep an invariant, every step of a run starts from it. -/
theorem EachStep.with_invariant {C : σ → ε → Prop} {I : σ → Prop}
    (h : ∀ s e, I s → C s e → I (step s e)) {s : σ} (hs : I s) {es : List ε}
    (hC : EachStep step C s es) : EachStep step (fun s e => I s ∧ C s e) s es := by
  induction es generalizing s with
  | nil => trivial
  | cons e es ih => exact ⟨⟨hs, hC.1⟩, ih (h s e hs hC.1) hC.2⟩

/-- Where they end is from it too. -/
theorem run_of_eachStep {C : σ → ε → Prop} {I : σ → Prop}
    (h : ∀ s e, I s → C s e → I (step s e)) {s : σ} (hs : I s) {es : List ε}
    (hC : EachStep step C s es) : I (run step s es) := by
  induction es generalizing s with
  | nil => exact hs
  | cons e es ih => exact ih (h s e hs hC.1) hC.2

/-- Two guards that agree wherever an invariant holds which the second of them keeps. -/
theorem eachStep_iff_of_invariant {C D : σ → ε → Prop} {I : σ → Prop}
    (h : ∀ s e, I s → (C s e ↔ D s e)) (hkeep : ∀ s e, I s → D s e → I (step s e)) {s : σ}
    (hs : I s) (es : List ε) : EachStep step C s es ↔ EachStep step D s es := by
  induction es generalizing s with
  | nil => exact Iff.rfl
  | cons e es ih =>
    constructor
    · rintro ⟨hC, hes⟩
      have hD := (h s e hs).mp hC
      exact ⟨hD, (ih (hkeep s e hs hD)).mp hes⟩
    · rintro ⟨hD, hes⟩
      exact ⟨(h s e hs).mpr hD, (ih (hkeep s e hs hD)).mpr hes⟩

theorem EachStep.and {C D : σ → ε → Prop} {s : σ} {es : List ε} (hC : EachStep step C s es)
    (hD : EachStep step D s es) : EachStep step (fun s e => C s e ∧ D s e) s es := by
  induction es generalizing s with
  | nil => trivial
  | cons e es ih => exact ⟨⟨hC.1, hD.1⟩, ih hC.2 hD.2⟩

theorem throughout_iff_eachStep {C : σ → ε → Prop} {P : σ → Prop}
    (h : ∀ s e, P s → (P (step s e) ↔ C s e)) {s : σ} (hs : P s) (es : List ε) :
    Throughout step P s es ↔ EachStep step C s es :=
  throughout_iff_eachStep_of (B := fun _ _ => True) (fun s e _ => h s e) hs
    (eachStep_of_forall (fun _ _ => trivial) s es)

end PowerScreen.Library.Run
