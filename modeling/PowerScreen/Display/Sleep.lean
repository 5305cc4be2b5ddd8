import PowerScreen.Library.Run

/-! # Display sleep

The loop reads the setting once, before its first iteration, and scales it to milliseconds in 32
bits; each iteration compares the result with the inactive time, as unsigned numbers. The System
panel changes the setting in the configuration only.
-/
namespace PowerScreen.Display
open Library.Run

/-- What the loop keeps, beside `display_sleep_sec` as it is stored. -/
structure Loop where
  stored : Int32
  displaySleep : Int32
  isSleeping : Bool

def Loop.start (stored : Int32) : Loop := ⟨stored, stored * 1000, false⟩

/-- One iteration, given `lv_disp_get_inactive_time`. -/
def Loop.iterate (s : Loop) (inactive : UInt32) : Loop :=
  if s.displaySleep ≠ -1 then
    { s with isSleeping := decide (s.displaySleep.toUInt32 < inactive) }
  else s

inductive Event where
  | set (stored : Int32)
  | iterate (inactive : UInt32)

def Loop.step (s : Loop) : Event → Loop
  | .set stored => { s with stored := stored }
  | .iterate inactive => s.iterate inactive

/-- After an iteration the display sleeps iff the setting stored at that time says so. -/
def FollowsSetting (s : Loop) : Event → Prop
  | .set _ => True
  | .iterate inactive => (s.iterate inactive).isSleeping ↔
      s.stored ≠ -1 ∧ s.stored.toInt * 1000 < inactive.toNat

/-- The limit in milliseconds that a loop has which starts with this setting. -/
def limit (begun : Int32) : ℤ := begun.toInt * 1000 % 2 ^ 32

/-- The inactive time does not come between the limit of the start and that of the stored
setting. -/
def OutsideLimits (begun : Int32) (s : Loop) : Event → Prop
  | .set _ => True
  | .iterate inactive =>
    if s.stored = -1 then inactive.toNat ≤ limit begun
    else ¬ (min (limit begun) (s.stored.toInt * 1000) < inactive.toNat ∧
      inactive.toNat ≤ max (limit begun) (s.stored.toInt * 1000))

/-- A word read without its sign. -/
theorem toNat_eq_toInt_emod {w : ℕ} (b : BitVec w) : (b.toNat : ℤ) = b.toInt % (2 ^ w : ℕ) := by
  rw [BitVec.toInt_eq_toNat_bmod, Int.bmod_emod]
  exact (Int.emod_eq_of_lt (Int.natCast_nonneg _) (Int.ofNat_lt.mpr b.isLt)).symm

theorem toNat_scaled (begun : Int32) : ((begun * 1000).toUInt32.toNat : ℤ) = limit begun := by
  have hnat : ((begun * 1000).toUInt32.toNat : ℤ) = (begun * 1000).toInt % 2 ^ 32 :=
    toNat_eq_toInt_emod (begun * 1000).toBitVec
  rw [hnat, Int32.toInt_mul]
  exact Int.bmod_emod

/-- The sentinel is compared after scaling: no setting compares equal to it. -/
theorem scaled_ne (begun : Int32) : begun * 1000 ≠ -1 := by
  intro h
  have hint : limit begun = ((-1 : Int32).toUInt32.toNat : ℤ) := by rw [← toNat_scaled, h]
  have hones : ((-1 : Int32).toUInt32.toNat : ℤ) = 4294967295 := by decide
  rw [limit, hones] at hint
  omega

theorem iterate_of_scaled {s : Loop} {begun : Int32} (hs : s.displaySleep = begun * 1000)
    (inactive : UInt32) : (s.iterate inactive).isSleeping ↔ limit begun < inactive.toNat := by
  rw [Loop.iterate, hs, if_pos (scaled_ne begun), ← toNat_scaled, decide_eq_true_eq,
    UInt32.lt_iff_toNat_lt, Int.ofNat_lt]

/-- What the loop computed at its start stays as it is. -/
theorem displaySleep_step (s : Loop) (e : Event) : (s.step e).displaySleep = s.displaySleep := by
  cases e with
  | set stored => rfl
  | iterate inactive =>
    rw [Loop.step, Loop.iterate]
    split_ifs <;> rfl

theorem followsSetting_iff {s : Loop} {begun : Int32} (hs : s.displaySleep = begun * 1000)
    (e : Event) : FollowsSetting s e ↔ OutsideLimits begun s e := by
  cases e with
  | set stored => exact Iff.rfl
  | iterate inactive =>
    rw [FollowsSetting, OutsideLimits, iterate_of_scaled hs]
    split_ifs with hnever
    · simp only [hnever, ne_eq, not_true_eq_false, false_and, iff_false, not_lt]
    · simp only [hnever, ne_eq, not_false_eq_true, true_and]
      omega

/-- From the start of the loop, for every setting then and every run. -/
theorem followsSetting_throughout_iff (begun : Int32) (es : List Event) :
    EachStep Loop.step FollowsSetting (Loop.start begun) es ↔
      EachStep Loop.step (OutsideLimits begun) (Loop.start begun) es :=
  eachStep_iff_of_invariant (I := fun s => s.displaySleep = begun * 1000)
    (fun _ e hs => followsSetting_iff hs e)
    (fun s e hs _ => (displaySleep_step s e).trans hs) rfl es

/-- The setting is changed from never to five minutes; ten minutes later the display is on. -/
theorem changed_setting_ignored :
    ¬ EachStep Loop.step FollowsSetting (Loop.start (-1)) [.set 300, .iterate 600000] := by
  rintro ⟨-, hawake, -⟩
  exact absurd (hawake.mpr ⟨by decide, by decide⟩) (by decide)

end PowerScreen.Display
