import PowerScreen.MainPanel.Sensors
import PowerScreen.PrintStatus.Targets
import PowerScreen.State.Fields

/-! # What the temperature cards show

The reply to the subscription and the notifications that follow it are read by the same loop
over the cards. A card keeps the last value it was told, and leaves its labels alone where
nothing changes.
-/
namespace PowerScreen.MainPanel
open Library Library.Json
open PrintStatus (Arith arith? intOf intOf_eq_none_iff intOf_eq_some_iff)

/-- The labels of a card with the values they were written for. -/
structure Display where
  value : ℤ := -1
  target : ℤ := -1
  valueText : String := "--"
  targetText : String := "/ --"
deriving DecidableEq

namespace Display

def degrees (t : ℤ) : String := toString t ++ "°"

def updateTarget (d : Display) (target : ℤ) : Display :=
  if target < 0 then d
  else { d with target := target
                targetText := if 0 < target then "/ " ++ degrees target else "/ --" }

def updateValue (d : Display) (value : ℤ) : Display :=
  if d.value ≠ value then { d with value := value, valueText := degrees value } else d

/-- The labels are those of the values. A card that has not been told a temperature is blank,
and stays so for one degree below zero. -/
structure Written (d : Display) : Prop where
  value : d.valueText = degrees d.value ∨ d.value = -1 ∧ d.valueText = "--"
  target : d.targetText = if 0 < d.target then "/ " ++ degrees d.target else "/ --"

theorem written_blank : Written {} := ⟨Or.inr ⟨rfl, rfl⟩, rfl⟩

theorem Written.updateTarget {d : Display} (h : d.Written) (target : ℤ) :
    (d.updateTarget target).Written := by
  unfold Display.updateTarget
  split_ifs with hneg hpos
  · exact h
  · exact ⟨h.value, by dsimp only; rw [if_pos hpos]⟩
  · exact ⟨h.value, by dsimp only; rw [if_neg hpos]⟩

theorem Written.updateValue {d : Display} (h : d.Written) (value : ℤ) :
    (d.updateValue value).Written := by
  unfold Display.updateValue
  split_ifs with hne
  · exact ⟨Or.inl rfl, h.target⟩
  · exact h

theorem value_updateValue (d : Display) (value : ℤ) : (d.updateValue value).value = value := by
  unfold Display.updateValue
  split_ifs with hne
  · rfl
  · exact not_not.mp hne

@[simp] theorem target_updateValue (d : Display) (value : ℤ) :
    (d.updateValue value).target = d.target := by
  unfold Display.updateValue
  split_ifs <;> rfl

@[simp] theorem value_updateTarget (d : Display) (target : ℤ) :
    (d.updateTarget target).value = d.value := by
  unfold Display.updateTarget
  split_ifs <;> rfl

theorem target_updateTarget (d : Display) (target : ℤ) :
    (d.updateTarget target).target = if target < 0 then d.target else target := by
  unfold Display.updateTarget
  split_ifs <;> rfl

end Display

variable (A : Arith)

/-- One pass of the loop; `read` is how a field of an object is found in the message. -/
def updateCard (read : String → String → Option Json) (card : TempCard × Display) :
    Option (TempCard × Display) := do
  let target ← intOf A (← read card.1.key "target")
  let value ← intOf A (← read card.1.key "temperature")
  let d := target.elim card.2 card.2.updateTarget
  return (card.1, value.elim d d.updateValue)

/-- A field of an object in a message, by the text of a pointer. -/
def readAt (base : String) (d : Doc) (o f : String) : Option Json :=
  (parsePointer (base ++ o ++ "/" ++ f)).bind (getAt · d.json)

/-- The card shows what the store holds of its sensor. A negative target is passed over. -/
structure Follows (s : State) (card : TempCard × Display) : Prop where
  value : ∀ n, arith? (s.field card.1.key "temperature") = some n → card.2.value = A.int n
  target : ∀ n, arith? (s.field card.1.key "target") = some n → 0 ≤ A.int n →
    card.2.target = A.int n

variable {A}

/-- A number in the store after a report is the one the report carries, or was there before. -/
theorem arith?_field_receive {s : State} {r : Report} {o f : String} {x : Option ℤ}
    (hx : intOf A ((r.status.field? o f).getD .null) = some x) {n : Library.Num}
    (hn : arith? (((s.receive r).getD s).field o f) = some n) :
    x = some (A.int n) ∨
      x = none ∧ r.status.field? o f = none ∧ arith? (s.field o f) = some n := by
  rw [State.field_receive] at hn
  cases hv : r.status.field? o f with
  | none =>
    rw [hv] at hx hn
    cases hx
    exact Or.inr ⟨rfl, rfl, hn⟩
  | some v =>
    rw [hv, Option.getD_some] at hx
    rw [hv] at hn
    dsimp only at hn
    split_ifs at hn with hnull
    · cases hn
    · cases x with
      | none => exact absurd ((intOf_eq_none_iff v).mp hx) hnull
      | some k =>
        obtain ⟨m, hm, rfl⟩ := (intOf_eq_some_iff v k).mp hx
        have hscalar : v.isObject = false := by cases v <;> first | rfl | cases hm
        rw [mergePatch_of_not_object _ hscalar, hm] at hn
        rw [Option.some.inj hn]
        exact Or.inl rfl

/-- What a report says of the two fields of a card. -/
structure Reads (read : String → String → Option Json) (st : Status) (key : String) : Prop where
  value : read key "temperature" = some ((st.field? key "temperature").getD .null)
  target : read key "target" = some ((st.field? key "target").getD .null)

theorem reads_notification (st : Status) (t : ℚ) {key : String} (h : IsName key) :
    Reads (readAt "/params/0/" (st.notification t)) st key :=
  ⟨st.read_eq t h (by decide), st.read_eq t h (by decide)⟩

theorem readAt_subscribeReply (st : Status) (id : ℕ) (t : ℚ) {o f : String} (ho : IsName o)
    (hf : IsName f) : readAt "/result/status/" (st.subscribeReply id t) o f =
      some ((st.field? o f).getD .null) := by
  have hparse : parsePointer ("/result/status/" ++ o ++ "/" ++ f) =
      some ["result", "status", o, f] :=
    parsePointer_spelled (by
      simp [ho.toSpelled, hf.toSpelled, (by decide : Spelled "result"),
        (by decide : Spelled "status")]) (by simp)
  have hroot : getAt ["result", "status", o, f] (st.subscribeReply id t).json =
      getAt [o, f] st.json := rfl
  rw [readAt, hparse, Option.bind_some, hroot, Status.json, getAt_cons_obj, st.lookup_json,
    Status.field?]
  cases st.objects.lookup o with
  | none =>
    have hnull : Json.null.IsRecord := Or.inl rfl
    exact hnull.getAt hf.key []
  | some fs => rfl

theorem reads_subscribeReply (st : Status) (id : ℕ) (t : ℚ) {key : String} (h : IsName key) :
    Reads (readAt "/result/status/" (st.subscribeReply id t)) st key :=
  ⟨readAt_subscribeReply st id t h (by decide), readAt_subscribeReply st id t h (by decide)⟩

/-- A card follows the store through a report where it did before, and where the report
carries the field. -/
theorem follows_update {s : State} {r : Report} {card card' : TempCard × Display}
    {read : String → String → Option Json} (hread : Reads read r.status card.1.key)
    (h : Follows A s card ∨ ∀ f ∈ ["temperature", "target"],
      s.field card.1.key f ≠ .null → r.status.field? card.1.key f ≠ none)
    (hu : updateCard A read card = some card') :
    Follows A ((s.receive r).getD s) card' := by
  simp only [updateCard, hread.value, hread.target, Option.bind_eq_bind, Option.bind_some,
    Option.bind_eq_some_iff] at hu
  obtain ⟨target, htarget, value, hvalue, hu⟩ := hu
  cases hu
  -- A field that the report leaves alone has a number in the store already.
  have hold {f : String} (hf : f ∈ ["temperature", "target"]) {n : Library.Num}
      (hnone : r.status.field? card.1.key f = none)
      (hn : arith? (s.field card.1.key f) = some n) : Follows A s card :=
    h.resolve_right fun hall => hall f hf (fun hnull => by rw [hnull] at hn; cases hn) hnone
  constructor
  · intro n hn
    rcases arith?_field_receive hvalue hn with rfl | ⟨rfl, hnone, hn⟩
    · exact Display.value_updateValue _ _
    · have hval := (hold (by simp) hnone hn).value n hn
      cases target <;> simpa using hval
  · intro n hn hpos
    have htar : (target.elim card.2 card.2.updateTarget).target = A.int n := by
      rcases arith?_field_receive htarget hn with rfl | ⟨rfl, hnone, hn⟩
      · rw [Option.elim_some, Display.target_updateTarget, if_neg hpos.not_gt]
      · exact (hold (by simp) hnone hn).target n hn hpos
    cases value
    · exact htar
    · simpa using htar

theorem key_updateCard {read : String → String → Option Json} {card card' : TempCard × Display}
    (hu : updateCard A read card = some card') : card'.1 = card.1 := by
  simp only [updateCard, Option.bind_eq_bind, Option.bind_eq_some_iff] at hu
  obtain ⟨_, _, _, _, _, _, _, _, hu⟩ := hu
  cases hu
  rfl

theorem written_updateCard {read : String → String → Option Json}
    {card card' : TempCard × Display} (h : card.2.Written)
    (hu : updateCard A read card = some card') : card'.2.Written := by
  simp only [updateCard, Option.bind_eq_bind, Option.bind_eq_some_iff] at hu
  obtain ⟨_, _, target, _, _, _, value, _, hu⟩ := hu
  cases hu
  have htarget : (target.elim card.2 card.2.updateTarget).Written := by
    cases target with
    | none => exact h
    | some t => exact h.updateTarget t
  cases value with
  | none => exact htarget
  | some v => exact htarget.updateValue v

end PowerScreen.MainPanel
