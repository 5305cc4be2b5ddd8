import PowerScreen.Library.Fields
import PowerScreen.TmcTune.Panel

/-! # What the save handler does to the configuration

The handler takes the pairs of the line apart at commas and colons and replaces one
section; what the panel reads of all other sections stays.
-/
namespace PowerScreen.TmcTune
open Library

theorem toList_sectionOf (name : String) :
    (sectionOf name).toList = "autotune_tmc ".toList ++ name.toList := String.toList_append

theorem afterSpace_sectionOf (name : String) : afterSpace (sectionOf name) = name := by
  rw [afterSpace, toList_sectionOf, if_pos (List.mem_append_left _ (by decide))]
  exact String.ofList_toList

theorem eq_sectionOf {key : String} (h : "autotune_tmc ".toList <+: key.toList) :
    key = sectionOf (afterSpace key) := by
  obtain ⟨name, hname⟩ := h
  have hkey : key = sectionOf (String.ofList name) := by
    refine String.toList_inj.mp ?_
    rw [← hname, toList_sectionOf, String.toList_ofList (l := name)]
  rw [hkey, afterSpace_sectionOf]

/-- The panel finds the section of a stepper by its name. -/
theorem lookup_tunedConfig (config : List (String × Json)) (name : String) :
    (tunedConfig config).lookup name = config.lookup (sectionOf name) := by
  induction config with
  | nil => rfl
  | cons el config ih =>
    obtain ⟨key, value⟩ := el
    rw [Assoc.lookup_cons, ← ih, tunedConfig, List.filterMap_cons]
    by_cases h : "autotune_tmc ".toList <+: key.toList
    · have hkey := eq_sectionOf h
      have hiff : name = afterSpace key ↔ sectionOf name = key :=
        ⟨fun hn => by rw [hn, ← hkey], fun hs => by rw [← hs, afterSpace_sectionOf]⟩
      rw [if_pos h]
      dsimp only
      rw [Assoc.lookup_cons]
      simp only [hiff]
      rfl
    · have hne : sectionOf name ≠ key := fun hs => h ⟨name.toList, by
        rw [← toList_sectionOf, hs]⟩
      rw [if_neg h, if_neg hne]
      rfl

/-- The configuration after the section of a stepper was written. -/
abbrev written (config : List (String × Json)) (name : String) (d : List (String × String)) :
    List (String × Json) :=
  Assoc.insert (sectionOf name) (sectionJson d) (Assoc.erase (sectionOf name) config)

theorem lookup_written_of_ne {k name : String} (h : k ≠ sectionOf name)
    (config : List (String × Json)) (d : List (String × String)) :
    (written config name d).lookup k = config.lookup k := by
  rw [written, Assoc.lookup_insert_of_ne h, Assoc.lookup_erase, if_neg h]

/-- The end stop is read from another section. -/
theorem virtualEndstop_written (config : List (String × Json)) (name : String)
    (d : List (String × String)) :
    virtualEndstop (written config name d) name = virtualEndstop config name := by
  have hpath : ("/" ++ name ++ "/endstop_pin").toList =
      '/' :: (name.toList ++ '/' :: "endstop_pin".toList) := by
    simp [String.toList_append]
  obtain ⟨p, ps, hsplit, hlen⟩ := Json.splitOn_head '/' name.toList "endstop_pin".toList
  have hread : ∀ tokens, Json.parsePointer ("/" ++ name ++ "/endstop_pin") = some tokens →
      Json.getAt tokens (.obj (written config name d)) = Json.getAt tokens (.obj config) := by
    intro tokens ht
    rw [Json.parsePointer, hpath] at ht
    change (Json.splitOn '/' (name.toList ++ '/' :: "endstop_pin".toList)).mapM
      (fun t => (Json.unescape t).map String.ofList) = some tokens at ht
    rw [hsplit, List.mapM_cons] at ht
    obtain ⟨k, hk, ht⟩ := Option.bind_eq_some_iff.mp ht
    obtain ⟨t, hunescape, rfl⟩ := Option.map_eq_some_iff.mp hk
    obtain ⟨ts, -, ht⟩ := Option.bind_eq_some_iff.mp ht
    cases ht
    have hshort : t.length ≤ name.toList.length := (Json.length_of_unescape hunescape).trans hlen
    have hne : String.ofList t ≠ sectionOf name := fun heq => by
      have hlong := congrArg (fun s : String => s.toList.length) heq
      simp only [String.toList_ofList (l := t), toList_sectionOf, List.length_append] at hlong
      have hpre : "autotune_tmc ".toList.length = 13 := by decide
      omega
    rw [Json.getAt_cons_obj, Json.getAt_cons_obj, lookup_written_of_ne hne]
  unfold virtualEndstop
  cases ht : Json.parsePointer ("/" ++ name ++ "/endstop_pin") with
  | none => rfl
  | some tokens => simp only [Option.bind_eq_bind, Option.bind_some, hread tokens ht]

theorem key_ne_sectionOf {config : List (String × Json)} {key : String}
    (h : key ∈ configuredSteppers config) (name : String) : key ≠ sectionOf name := by
  rintro rfl
  have hpre := (of_decide_eq_true (List.mem_filter.mp h).2).1
  rw [toList_sectionOf] at hpre
  obtain ⟨t, ht⟩ := hpre
  simp at ht

theorem mem_configuredSteppers_written {config : List (String × Json)} {key name : String}
    (h : key ∈ configuredSteppers config) (d : List (String × String)) :
    key ∈ configuredSteppers (written config name d) := by
  obtain ⟨hmem, hkey⟩ := List.mem_filter.mp h
  refine List.mem_filter.mpr ⟨Assoc.isSome_lookup_iff.mp ?_, hkey⟩
  rw [lookup_written_of_ne (key_ne_sectionOf h name)]
  exact Assoc.isSome_lookup_iff.mpr hmem

/-- What the handler stores has neither separator. -/
theorem separators_not_mem {pairs : String} {d : List (String × String)} (h : pairsOf pairs = some d)
    {kv : String × String} (hkv : kv ∈ d) : ',' ∉ kv.2.toList ∧ ':' ∉ kv.2.toList := by
  obtain ⟨s, hs, hsplit⟩ := exists_of_mem_mapM h hkv
  split at hsplit
  · rename_i k v heq
    cases hsplit
    rw [String.toList_ofList]
    have hv : v ∈ Json.splitOn ':' s := by simp [heq]
    exact ⟨fun hc => Json.not_mem_of_mem_splitOn hs (Json.mem_of_mem_splitOn hv hc),
      Json.not_mem_of_mem_splitOn hv⟩
  · cases hsplit

theorem lookup_foldl_insert {d : List (String × String)} {ms : List (String × Json)} {k : String}
    {j : Json} (h : (d.foldl (fun ms kv => Assoc.insert kv.1 (.str kv.2) ms) ms).lookup k = some j) :
    (∃ v, (k, v) ∈ d ∧ j = .str v) ∨ ms.lookup k = some j := by
  induction d generalizing ms with
  | nil => exact Or.inr h
  | cons kv d ih =>
    rcases ih h with ⟨v, hv, rfl⟩ | h
    · exact Or.inl ⟨v, List.mem_cons_of_mem _ hv, rfl⟩
    · rw [Assoc.lookup_insert] at h
      split_ifs at h with hk
      · cases h
        exact Or.inl ⟨kv.2, by simp [hk], rfl⟩
      · exact Or.inr h

theorem getAt_sectionJson (d : List (String × String)) (k : String) :
    Json.getAt [k] (sectionJson d) = some ((sectionJson d).get k) := rfl

theorem optional_get_sectionJson {d : List (String × String)} {k : String} :
    (sectionJson d).get k = .null ∨ ∃ v, (k, v) ∈ d ∧ (sectionJson d).get k = .str v := by
  cases hk : (sectionJson d).get? k with
  | none => exact Or.inl (by rw [Json.get, hk]; rfl)
  | some j =>
    obtain ⟨v, hv, rfl⟩ | h := lookup_foldl_insert hk
    · exact Or.inr ⟨v, hv, by rw [Json.get, hk]; rfl⟩
    · cases h

/-- A text that the handler can take apart. -/
def Separated (s : String) : Prop := ',' ∉ s.toList ∧ ':' ∉ s.toList

def joined : List (String × String) → List Char
  | [] => []
  | [kv] => kv.1.toList ++ ':' :: kv.2.toList
  | kv :: d => kv.1.toList ++ ':' :: kv.2.toList ++ ',' :: joined d

theorem splitOn_pair {k v : String} (hk : Separated k) (hv : Separated v) :
    Json.splitOn ':' (k.toList ++ ':' :: v.toList) = [k.toList, v.toList] := by
  rw [Json.splitOn_append hk.2, Json.splitOn_of_not_mem hv.2]

/-- The handler finds the pairs that were joined. -/
theorem pairsOf_of_toList {s : String} {d : List (String × String)} (hne : d ≠ [])
    (h : ∀ kv ∈ d, Separated kv.1 ∧ Separated kv.2) (hs : s.toList = joined d) :
    pairsOf s = some d := by
  rw [pairsOf, hs]
  clear hs
  induction d with
  | nil => exact absurd rfl hne
  | cons kv d ih =>
    obtain ⟨hk, hv⟩ := h kv List.mem_cons_self
    have hnot : ',' ∉ kv.1.toList ++ ':' :: kv.2.toList := by simp [hk.1, hv.1]
    cases d with
    | nil =>
      rw [joined, Json.splitOn_of_not_mem hnot, List.mapM_cons, splitOn_pair hk hv]
      simp [String.ofList_toList]
    | cons kv' d =>
      have hrest := ih (List.cons_ne_nil _ _) fun kv hkv => h kv (List.mem_cons_of_mem _ hkv)
      rw [joined, Json.splitOn_append hnot, List.mapM_cons, hrest, splitOn_pair hk hv]
      · simp [String.ofList_toList]
      · exact nofun

end PowerScreen.TmcTune
