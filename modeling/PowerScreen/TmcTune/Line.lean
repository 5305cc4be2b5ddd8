import Mathlib.Tactic.IntervalCases
import PowerScreen.TmcTune.Handler

/-! # The line of a stepper

What a line of G-code carries of the choices of the user, and what the panel shows of
a driver whose section has been written from it.
-/
namespace PowerScreen.TmcTune
open Library

theorem findIdx?_map_eq {motors : List String} {name : String} {i : ℕ}
    (h : (motors.map afterSpace).findIdx? (· = name) = some i) :
    ∃ s, motors[i]? = some s ∧ afterSpace s = name := by
  obtain ⟨hi, hp, -⟩ := List.findIdx?_eq_some_iff_getElem.mp h
  rw [List.length_map] at hi
  exact ⟨motors[i], List.getElem?_eq_getElem hi, by simpa using hp⟩

/-- The text shown for a stored name is that name, or that there is none. -/
theorem motorText_motorIdx {c : Container} {name : String} (h : c.motorIdx = motorIdx c.motors name) :
    c.motorText = name ∨ c.motorText = "Not Configured" := by
  rw [Container.motorText, h, motorIdx]
  cases hf : (c.motors.map afterSpace).findIdx? (· = name) with
  | none => exact Or.inr rfl
  | some i =>
    obtain ⟨s, hs, hname⟩ := findIdx?_map_eq hf
    exact Or.inl (by simp [hs, hname])

theorem motorText_motorIdx_of_mem {c : Container} {name : String}
    (h : c.motorIdx = motorIdx c.motors name) (hmem : name ∈ c.motors.map afterSpace) :
    c.motorText = name := by
  rw [Container.motorText, h, motorIdx]
  cases hf : (c.motors.map afterSpace).findIdx? (· = name) with
  | none =>
    have hnot := List.findIdx?_eq_none_iff.mp hf name hmem
    simp at hnot
  | some i =>
    obtain ⟨s, hs, hname⟩ := findIdx?_map_eq hf
    simp [hs, hname]

/-- Neither a quote nor a character that a line of G-code gives a meaning. -/
def Plain (s : String) : Prop := ∀ c ∈ s.toList, c ∉ ['"', '\\', ';', '#', '*', '\n']

instance (s : String) : Decidable (Plain s) := List.decidableBAll _ _

/-- Quoted parameters without special characters reach the handler as they stand. -/
def PassesQuoted (gcmdGet : String → String → Option String) : Prop :=
  ∀ sect pairs, Plain sect → Plain pairs →
    gcmdGet (saveLine sect pairs) "SECTION" = some sect ∧
      gcmdGet (saveLine sect pairs) "KEY_VALUE" = some pairs

theorem container_fields {motors : List String} {config : List (String × Json)} {key : String}
    {c : Container} (h : container motors config key = some c) :
    c.name = afterSpace key ∧ c.motors = motors ∧
      c.sgRange = (tmcSgRange.lookup (beforeSpace key)).getD (0, 0) ∧
      ∃ stall, virtualEndstop config (afterSpace key) = some stall ∧
        c.hasSg = (stall && (tmcSgRange.lookup (beforeSpace key)).isSome) := by
  obtain ⟨stall, hstall, h⟩ := Option.bind_eq_some_iff.mp h
  obtain ⟨shown, -, h⟩ := Option.bind_eq_some_iff.mp h
  cases h
  exact ⟨rfl, rfl, rfl, stall, hstall, rfl⟩

/-- What the panel shows of a driver whose section was written. -/
theorem container_written {motors : List String} {config : List (String × Json)} {key : String}
    {c : Container} (h : container motors config key = some c) (d : List (String × String)) :
    container motors (written config (afterSpace key) d) key =
      (tuned motors c.sgRange (some (sectionJson d))).map fun shown =>
        { c with
          motorIdx := shown.1, goalIdx := shown.2.1, threshold := inRange c.sgRange shown.2.2 } := by
  have hlookup : (tunedConfig (written config (afterSpace key) d)).lookup (afterSpace key) =
      some (sectionJson d) := by
    rw [lookup_tunedConfig, written, Assoc.lookup_insert_self]
  obtain ⟨stall, hstall, h⟩ := Option.bind_eq_some_iff.mp h
  obtain ⟨shown, -, h⟩ := Option.bind_eq_some_iff.mp h
  cases h
  rw [container, virtualEndstop_written, hstall, hlookup]
  cases tuned motors ((tmcSgRange.lookup (beforeSpace key)).getD (0, 0)) (some (sectionJson d)) <;>
    rfl

theorem toList_selectedStr (s : String) : (selectedStr s).toList = s.toList.take 127 :=
  String.toList_ofList

theorem selectedStr_eq_self {s : String} (h : s.toList.length ≤ 127) : selectedStr s = s := by
  rw [← String.toList_inj, toList_selectedStr, List.take_of_length_le h]

/-- Only the reserved text is cut to itself. -/
theorem selectedStr_eq_iff {s : String} :
    selectedStr s = "Not Configured" ↔ s = "Not Configured" := by
  constructor
  · intro h
    by_cases hs : s.toList.length ≤ 127
    · rwa [selectedStr_eq_self hs] at h
    · have hlen := congrArg (fun s : String => s.toList.length) h
      simp only [toList_selectedStr, List.length_take] at hlen
      have hshort : "Not Configured".toList.length = 14 := by decide
      omega
  · rintro rfl
    exact selectedStr_eq_self (by decide)

theorem selectedStr_eq_self_iff {s : String} : selectedStr s = s ↔ s.toList.length ≤ 127 := by
  refine ⟨fun h => ?_, selectedStr_eq_self⟩
  have hlen := congrArg (fun s : String => s.toList.length) h
  simp only [toList_selectedStr, List.length_take] at hlen
  omega

theorem separated_selectedStr {s : String} (h : Separated s) : Separated (selectedStr s) :=
  ⟨fun hc => h.1 (List.mem_of_mem_take (toList_selectedStr s ▸ hc)),
    fun hc => h.2 (List.mem_of_mem_take (toList_selectedStr s ▸ hc))⟩

theorem plain_append {s t : String} (hs : Plain s) (ht : Plain t) : Plain (s ++ t) := by
  intro c hc
  rw [String.toList_append] at hc
  exact (List.mem_append.mp hc).elim (hs c) (ht c)


/-- The two ranges of the drivers. -/
theorem sgRange_cases {key : String} {r : ℤ × ℤ} (h : tmcSgRange.lookup key = some r) :
    r = (0, 255) ∨ r = (-64, 63) := by
  have hmem := Assoc.mem_of_lookup h
  simp only [tmcSgRange, List.mem_cons, List.not_mem_nil, or_false, Prod.mk.injEq] at hmem
  rcases hmem with ⟨-, h⟩ | ⟨-, h⟩ | ⟨-, h⟩ | ⟨-, h⟩ | ⟨-, h⟩
  · exact Or.inr h
  · exact Or.inl h
  all_goals exact Or.inr h

theorem separated_toString (z : ℤ) : Separated (toString z) := by
  constructor
  all_goals
    intro h
    rcases Decimal.eq_or_isDigit_of_mem h with h | h
    · exact absurd h (by decide)
    · exact absurd h (by decide)

theorem plain_toString (z : ℤ) : Plain (toString z) := by
  intro c hc
  rcases Decimal.eq_or_isDigit_of_mem hc with rfl | h
  · decide
  · intro hmem
    simp only [List.mem_cons, List.not_mem_nil, or_false] at hmem
    rcases hmem with rfl | rfl | rfl | rfl | rfl | rfl <;> exact absurd h (by decide)

/-- What is read from a section that has the motor and the goal. -/
theorem tuned_sectionJson {motors : List String} {r : ℤ × ℤ} {el : Json} {motor goal : String}
    {sg : Option ℤ} (hm : Json.getAt ["motor"] el = some (.str motor))
    (hg : Json.getAt ["tuning_goal"] el = some (.str goal))
    (hs : ((Json.getAt ["sg4_thrs"] el).bind
      (Json.optional (·.str?.bind Decimal.stoi))) = some sg) :
    tuned motors r (some el) = some (motorIdx motors motor, (goalIdxMap.lookup goal).getD 0,
      (sg.map toInt16).getD (defaultThreshold r)) := by
  obtain ⟨j, hj, hsg⟩ := Option.bind_eq_some_iff.mp hs
  have hstr : ∀ v, Json.optional Json.str? (.str v) = some (some v) := fun _ => rfl
  rw [tuned, hm, hg, hj]
  simp only [Option.bind_eq_bind, Option.bind_some, hstr, hsg]
  rfl

/-- The motor that is shown is a stored one. -/
theorem tuned_motor {motors : List String} {r : ℤ × ℤ} {d : List (String × String)}
    {shown : ℕ × ℕ × ℤ} (h : tuned motors r (some (sectionJson d)) = some shown) :
    shown.1 = 0 ∨ ∃ v, ("motor", v) ∈ d ∧ shown.1 = motorIdx motors v := by
  rw [tuned, getAt_sectionJson, Option.bind_eq_bind, Option.bind_some] at h
  obtain ⟨motor, hmotor, h⟩ := Option.bind_eq_some_iff.mp h
  obtain ⟨goal, -, h⟩ := Option.bind_eq_some_iff.mp h
  obtain ⟨sgthrs, -, h⟩ := Option.bind_eq_some_iff.mp h
  obtain ⟨sg, -, h⟩ := Option.bind_eq_some_iff.mp h
  obtain ⟨z, -, h⟩ := Option.bind_eq_some_iff.mp h
  cases h
  rcases optional_get_sectionJson (d := d) (k := "motor") with hnull | ⟨v, hv, hget⟩
  · rw [hnull] at hmotor
    cases hmotor
    exact Or.inl rfl
  · rw [hget] at hmotor
    cases hmotor
    exact Or.inr ⟨v, hv, rfl⟩

/-- The pairs of the line, as the user chose them. -/
def pairsList (c : Container) : List (String × String) :=
  ("motor", selectedStr c.motorText) :: ("tuning_goal", selectedStr c.goalText) ::
    if c.hasSg then [(c.thresholdKey, toString c.threshold)] else []

theorem eq_of_mem_pairsList {c : Container} {v : String} (h : ("motor", v) ∈ pairsList c) :
    v = selectedStr c.motorText := by
  unfold pairsList Container.thresholdKey at h
  split_ifs at h <;> simpa using h

theorem toList_keyValues (c : Container) : c.keyValues.toList = joined (pairsList c) := by
  unfold Container.keyValues pairsList
  split_ifs
  · simp [joined, String.toList_append]
  · simp [joined, String.toList_append]

theorem separated_thresholdKey (c : Container) : Separated c.thresholdKey := by
  unfold Container.thresholdKey
  split_ifs <;> exact ⟨by decide, by decide⟩

theorem goalText_eq {c : Container} (h : c.goalIdx < 4) :
    selectedStr c.goalText = c.goalText ∧ Separated c.goalText ∧ Plain c.goalText ∧
      goalIdxMap.lookup c.goalText = some c.goalIdx := by
  unfold Container.goalText
  generalize c.goalIdx = g at h
  interval_cases g
  all_goals exact ⟨selectedStr_eq_self (by decide), ⟨by decide, by decide⟩, by decide, by decide⟩

/-- A motor without separators in its name can be taken from the line. -/
theorem pairsOf_keyValues {c : Container} (hg : c.goalIdx < 4)
    (hm : Separated (selectedStr c.motorText)) : pairsOf c.keyValues = some (pairsList c) := by
  refine pairsOf_of_toList (List.cons_ne_nil _ _) (fun kv hkv => ?_) (toList_keyValues c)
  obtain ⟨hcut, hgoal, -⟩ := goalText_eq hg
  have hmotor : Separated "motor" := ⟨by decide, by decide⟩
  have htuning : Separated "tuning_goal" := ⟨by decide, by decide⟩
  rcases List.mem_cons.mp hkv with rfl | hkv
  · exact ⟨hmotor, hm⟩
  rcases List.mem_cons.mp hkv with rfl | hkv
  · refine ⟨htuning, ?_⟩
    rw [hcut]
    exact hgoal
  split_ifs at hkv
  · rw [List.mem_singleton.mp hkv]
    exact ⟨separated_thresholdKey c, separated_toString _⟩
  · cases hkv


theorem plain_selectedStr {s : String} (h : Plain s) : Plain (selectedStr s) := fun c hc =>
  h c (List.mem_of_mem_take (toList_selectedStr s ▸ hc))

theorem plain_thresholdKey (c : Container) : Plain c.thresholdKey := by
  unfold Container.thresholdKey
  split_ifs <;> decide

theorem plain_keyValues {c : Container} (hg : c.goalIdx < 4) (hm : Plain c.motorText) :
    Plain c.keyValues := by
  obtain ⟨hcut, -, hgoal, -⟩ := goalText_eq hg
  have hmotor : Plain "motor:" := by decide
  have htuning : Plain ",tuning_goal:" := by decide
  have hcomma : Plain "," := by decide
  have hcolon : Plain ":" := by decide
  have hempty : Plain "" := by decide
  rw [Container.keyValues, hcut]
  refine plain_append (plain_append (plain_append (plain_append hmotor
    (plain_selectedStr hm)) htuning) hgoal) ?_
  split_ifs
  · exact plain_append (plain_append (plain_append hcomma (plain_thresholdKey c)) hcolon)
      (plain_toString _)
  · exact hempty

/-- The handler gets what the panel wrote. -/
theorem cmd_getConfigMacro {gcmdGet : String → String → Option String} (hget : PassesQuoted gcmdGet)
    {c : Container} (hg : c.goalIdx < 4) (hname : Plain c.name) (hm : Plain c.motorText)
    (hnamed : c.motorText ≠ "Not Configured") (config : List (String × Json)) :
    cmdPowerscreenSaveConfig config (gcmdGet c.getConfigMacro) =
      (pairsOf c.keyValues).map (written config c.name) := by
  have hauto : Plain "autotune_tmc " := by decide
  have hsave : c.getConfigMacro = saveLine (sectionOf c.name) c.keyValues :=
    if_neg (selectedStr_eq_iff.not.mpr hnamed)
  obtain ⟨hsect, hpairs⟩ := hget (sectionOf c.name) c.keyValues (plain_append hauto hname)
    (plain_keyValues hg hm)
  have hne : ¬(sectionOf c.name = "" ∨ c.keyValues = "") := by
    rintro (h | h)
    · have hlist := congrArg String.toList h
      rw [toList_sectionOf] at hlist
      simp at hlist
    · have hlist := congrArg String.toList h
      rw [toList_keyValues, pairsList] at hlist
      split_ifs at hlist <;> simp [joined] at hlist
  rw [hsave, cmdPowerscreenSaveConfig, hsect, hpairs]
  exact if_neg hne

/-- The threshold that is read back: the stored one only under the name `sg4_thrs`. -/
theorem tuned_pairsList {motors : List String} {c : Container} (hg : c.goalIdx < 4)
    (hcut : selectedStr c.motorText = c.motorText)
    (hint : c.hasSg → -2 ^ 15 ≤ c.threshold ∧ c.threshold < 2 ^ 15) :
    tuned motors c.sgRange (some (sectionJson (pairsList c))) =
      some (motorIdx motors c.motorText, c.goalIdx,
        if c.hasSg ∧ c.sgRange.1 = 0 then c.threshold else defaultThreshold c.sgRange) := by
  obtain ⟨hgcut, -, -, hgoal⟩ := goalText_eq hg
  have hnull : Json.optional (·.str?.bind Decimal.stoi) .null = some none := rfl
  have hm : Json.getAt ["motor"] (sectionJson (pairsList c)) = some (.str c.motorText) := by
    rw [getAt_sectionJson, pairsList, hcut, Container.thresholdKey]
    split_ifs <;> simp [sectionJson, Json.get, Json.get?, Json.members, Assoc.lookup_insert]
  have ht : Json.getAt ["tuning_goal"] (sectionJson (pairsList c)) = some (.str c.goalText) := by
    rw [getAt_sectionJson, pairsList, hgcut, Container.thresholdKey]
    split_ifs <;> simp [sectionJson, Json.get, Json.get?, Json.members, Assoc.lookup_insert]
  by_cases hsg : c.hasSg ∧ c.sgRange.1 = 0
  · have hbound := hint hsg.1
    have hround : toInt16 c.threshold = c.threshold := by
      unfold toInt16
      omega
    have hstoi : Decimal.stoi (toString c.threshold) = some c.threshold :=
      Decimal.stoi_toString (by omega)
    have hoptional : Json.optional (·.str?.bind Decimal.stoi) (.str (toString c.threshold)) =
        some (some c.threshold) := by
      change (if Json.str (toString c.threshold) = .null then some none
        else (Decimal.stoi (toString c.threshold)).map some) = _
      rw [if_neg (by simp), hstoi]
      rfl
    have hget : (sectionJson (pairsList c)).get "sg4_thrs" = .str (toString c.threshold) := by
      simp [pairsList, Container.thresholdKey, hsg, sectionJson, Json.get, Json.get?,
        Json.members]
    rw [tuned_sectionJson hm ht (by rw [getAt_sectionJson, Option.bind_some, hget, hoptional]),
      hgoal, if_pos hsg, Option.map_some, Option.getD_some, Option.getD_some, hround]
  · have hget : (sectionJson (pairsList c)).get "sg4_thrs" = .null := by
      rw [pairsList, Container.thresholdKey]
      rw [not_and] at hsg
      split_ifs with h h' <;>
        simp_all [sectionJson, Json.get, Json.get?, Json.members, Assoc.lookup_insert]
    rw [tuned_sectionJson hm ht (by rw [getAt_sectionJson, Option.bind_some, hget, hnull]),
      hgoal, if_neg hsg]
    rfl

end PowerScreen.TmcTune
