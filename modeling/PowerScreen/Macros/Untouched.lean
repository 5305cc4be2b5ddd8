import PowerScreen.Macros.Defaults

/-! # Running a macro with its fields untouched

The fields show what was found as defaults. Klipper reads what is sent as the macro would
have set it where the first reference to a parameter is followed by its literal and by
nothing that is taken for more.
-/
namespace PowerScreen.Macros
open Library

/-- `params.X|default(L)` stands somewhere in the text. -/
def Sets (X : List Char) (L : Literal) (t : List Char) : Prop :=
  ∃ u b, u <:+ t ∧ Refers "params.".toList X (direct L b) u

/-- The filter `default` is applied to the parameter somewhere in the text. -/
def HasDefault (X t : List Char) : Prop := ∃ r u, u <:+ t ∧ Refers "params.".toList X r u ∧
  ∃ w w' rest, r = w ++ '|' :: (w' ++ ("default".toList ++ rest)) ∧
    (∀ c ∈ w ++ w', isBlank c) ∧ ∀ c ∈ rest.head?, isWord c = false

/-- The first line that has the parameter as its first one, so spelled, goes on with this text. -/
def Decides (X s r t : List Char) : Prop := ∃ ls l ls', lines t = ls ++ l :: ls' ∧
  Leads s X r l ∧ ∀ m ∈ ls, ∀ s' r', ¬ Leads s' X r' m

/-- What is found for a parameter is read as this value: its own literal, with nothing that is
taken for more and escapes that are read alike, or else the first default on the line. -/
def ReadsAs (E : Escapes) (X s r v : List Char) : Prop :=
  (∃ L b, (s = "params.".toList ∧ r = direct L b ∧ Printable L) ∧ Clean E L b ∧ L.value E = v) ∨
  (¬ ∃ L b, s = "params.".toList ∧ r = direct L b ∧ Printable L) ∧
    ∃ a, FirstDefault r a ∧ klipperParams (X ++ '=' :: cut a) = some [(X, v)]

/-- The code of a macro reads as it is shown. -/
structure Harmless (E : Escapes) (t : List Char) : Prop where
  literal : ∀ X L, Sets X L t → ∃ s r, Decides X s r t ∧ ReadsAs E X s r (L.value E)
  unset : ∀ X, Occurs X t → ¬ HasDefault X t → ∀ s r, Decides X s r t → ∀ a, ¬ FirstDefault r a

/-- Running the item changes nothing: a literal default is sent as its value, a parameter without
a default is not sent, and what is read one by one is read so in the whole command. -/
structure Untouched (E : Escapes) (gcode : String) (i : MacroItem) : Prop where
  literal : ∀ (X : String) L, Sets X.toList L gcode.toList →
    ∃ p ∈ i.sent, p.1 = X ∧ klipperParams (keyValue p) = some [(X.toList, L.value E)]
  unset : ∀ X : String, Occurs X.toList gcode.toList → ¬ HasDefault X.toList gcode.toList →
    X ∉ i.sent.map Prod.fst
  whole : ∀ ps, List.Forall₂ (fun p kv => klipperParams (keyValue p) = some [kv]) i.sent ps →
    ∃ args, i.handleSendMacro = i.macroLabel.toList ++ args ∧ klipperParams args = some ps

/-- Every item of the panel, as it is shown. -/
def Replays (E : Escapes) (m : Json) (items : List MacroItem) : Prop :=
  ∃ macros left, parseMacros m = some (macros, left) ∧
    List.Forall₂ (fun e i => ∀ gcode, IsMacro m e.1 gcode → Untouched E gcode i) macros items

theorem lookup_references {gcode X : String} {r : List Char} :
    (references gcode).lookup X = some r ↔ ∃ s, Decides X.toList s r gcode.toList := by
  have hline {l : List Char} (hl : l ∈ lines gcode.toList) {r : List Char} :
      ((paramRegex.search l).map Prod.fst).map (fun p => (String.ofList p.1, p.2)) = some (X, r) ↔
        ∃ s, Leads s X.toList r l := by
    rw [← search_paramRegex (not_isLineEnd_of_mem_lines hl), Option.map_eq_some_iff]
    constructor
    · rintro ⟨⟨Y, r'⟩, hs, heq⟩
      cases heq
      rw [hs, String.toList_ofList]
    · exact fun h => ⟨_, h, by rw [String.ofList_toList]⟩
  have hrefs : references gcode = (lines gcode.toList).filterMap fun l =>
      ((paramRegex.search l).map Prod.fst).map fun p => (String.ofList p.1, p.2) := by
    rw [references, paramMatches, paramRegex_linewise.scan_eq, List.map_filterMap]
    rfl
  rw [hrefs, Assoc.lookup_filterMap_eq_some]
  constructor
  · rintro ⟨ls, l, ls', hsplit, hl, hfirst⟩
    obtain ⟨s, hs⟩ := (hline (by rw [hsplit]; simp)).mp hl
    refine ⟨s, ls, l, ls', hsplit, hs, fun m hm s' r' h => hfirst m hm r' ?_⟩
    exact (hline (by rw [hsplit]; simp [hm])).mpr ⟨s', h⟩
  · rintro ⟨s, ls, l, ls', hsplit, hs, hfirst⟩
    refine ⟨ls, l, ls', hsplit, (hline (by rw [hsplit]; simp)).mpr ⟨s, hs⟩, fun m hm r' h => ?_⟩
    obtain ⟨s', hs'⟩ := (hline (by rw [hsplit]; simp [hm])).mp h
    exact hfirst m hm s' r' hs'

section Decided

variable {X s r t : List Char}

theorem Decides.unique {s' r' : List Char} (h : Decides X s r t) (h' : Decides X s' r' t) :
    r = r' := by
  have hlook {s r : List Char} (h : Decides X s r t) :
      (references (String.ofList t)).lookup (String.ofList X) = some r :=
    lookup_references.mpr ⟨s, by rwa [String.toList_ofList, String.toList_ofList]⟩
  exact Option.some.inj ((hlook h).symm.trans (hlook h'))

theorem Decides.leads (h : Decides X s r t) : ∃ l ∈ lines t, Leads s X r l := by
  obtain ⟨ls, l, ls', hsplit, hl, -⟩ := h
  exact ⟨l, by rw [hsplit]; simp, hl⟩

theorem Decides.word (h : Decides X s r t) : ∀ c ∈ X, isWord c := by
  obtain ⟨l, -, -, u, -, hr, -⟩ := h.leads
  exact hr.word

theorem Decides.line (h : Decides X s r t) : ∀ c ∈ r, isLineEnd c = false := by
  obtain ⟨l, hl, -, u, hu, hr, -⟩ := h.leads
  have hsuffix : r <:+ l := List.IsSuffix.trans ⟨s ++ X, hr.text.symm⟩ hu
  exact fun c hc => not_isLineEnd_of_mem_lines hl c (hsuffix.subset hc)

/-- A literal directly behind the deciding reference is one that the macro sets. -/
theorem Decides.sets {L : Literal} {b : List Char}
    (h : Decides X "params.".toList (direct L b) t) : Sets X L t := by
  obtain ⟨l, hl, -, u, hu, hr, -⟩ := h.leads
  obtain ⟨a, z, rfl, hz⟩ := exists_of_mem_lines hl
  obtain ⟨c, rfl⟩ := hu
  have htext : direct L b ++ z = direct L (b ++ z) := by
    unfold direct
    generalize "|default(".toList = opening
    simp
  refine ⟨u ++ z, b ++ z, ⟨a ++ c, by simp⟩, ?_⟩
  rw [← htext]
  exact hr.extend hz

end Decided

theorem macroParams_sorted (gcode : String) : Assoc.Sorted (macroParams gcode) := by
  unfold macroParams
  have hfold : ∀ (rs : List (String × List Char)) (ps : Params), Assoc.Sorted ps →
      Assoc.Sorted (rs.foldl (fun ps p =>
        Assoc.insertNew p.1 (String.ofList (defaultValue p.2)) ps) ps) := by
    intro rs
    induction rs with
    | nil => exact fun _ h => h
    | cons p rs ih => exact fun ps h => ih _ (h.insertNew _ _)
  exact hfold _ [] List.Pairwise.nil

theorem mem_macroParams_iff {gcode : String} {p : String × String} : p ∈ macroParams gcode ↔
    ∃ s r, Decides p.1.toList s r gcode.toList ∧ p.2 = String.ofList (defaultValue r) := by
  have hlook : p ∈ macroParams gcode ↔ (macroParams gcode).lookup p.1 = some p.2 :=
    ⟨Assoc.lookup_of_mem (macroParams_sorted gcode), Assoc.mem_of_lookup⟩
  rw [hlook, lookup_macroParams, Option.map_eq_some_iff]
  constructor
  · rintro ⟨r, hr, heq⟩
    obtain ⟨s, hs⟩ := lookup_references.mp hr
    exact ⟨s, r, hs, heq.symm⟩
  · rintro ⟨s, r, hs, heq⟩
    exact ⟨r, lookup_references.mpr ⟨s, hs⟩, heq.symm⟩

theorem defaultValue_of_first {r a : List Char} (h : FirstDefault r a) : defaultValue r = a := by
  rw [defaultValue, firstDefault_iff.mp h, Option.getD_some]

theorem defaultValue_eq_nil {r : List Char} (h : ∀ a, ¬ FirstDefault r a) :
    defaultValue r = [] := by
  unfold defaultValue
  cases hs : (defaultValueRegex.search r).map Prod.fst with
  | none => rfl
  | some a => exact absurd (firstDefault_iff.mpr hs) (h a)

theorem cString_of_word {X : String} (hX : ∀ c ∈ X.toList, isWord c) : cString X = X := by
  have hall : X.toList.takeWhile (fun c => decide (c ≠ '\x00')) = X.toList :=
    List.takeWhile_eq_self_iff.mpr fun c hc => decide_eq_true fun h =>
      absurd (hX c hc) (by rw [h]; decide)
  rw [cString, hall, String.ofList_toList]

theorem cString_ofList (t : List Char) : cString (String.ofList t) = String.ofList (cut t) := by
  rw [cString, String.toList_ofList, cut]

section Item

variable {gcode : String} {p : String × String} (name : String) (hide : Bool)

/-- What is sent are the defaults that were found. -/
theorem mem_sent : p ∈ (MacroItem.create name (macroParams gcode) hide).sent ↔
    ∃ s r a, Decides p.1.toList s r gcode.toList ∧ FirstDefault r a ∧
      p.2 = String.ofList (cut a) := by
  rw [MacroItem.sent, List.mem_filter, MacroItem.create, List.mem_map]
  constructor
  · rintro ⟨⟨e, he, rfl⟩, hne⟩
    obtain ⟨s, r, hs, hvalue⟩ := mem_macroParams_iff.mp he
    have hname := cString_of_word hs.word
    by_cases hdefault : ∃ a, FirstDefault r a
    · obtain ⟨a, ha⟩ := hdefault
      refine ⟨s, r, a, by rwa [hname], ha, ?_⟩
      rw [hvalue, defaultValue_of_first ha, cString_ofList]
    · rw [hvalue, defaultValue_eq_nil fun a ha => hdefault ⟨a, ha⟩, cString_ofList] at hne
      exact absurd rfl (of_decide_eq_true hne)
  · rintro ⟨s, r, a, hs, ha, hvalue⟩
    refine ⟨⟨(p.1, String.ofList a), mem_macroParams_iff.mpr ⟨s, r, hs, ?_⟩, ?_⟩, ?_⟩
    · rw [defaultValue_of_first ha]
    · rw [cString_of_word hs.word, cString_ofList, ← hvalue]
    · refine decide_eq_true fun hnil => cut_ne_nil ha ?_
      rw [hvalue] at hnil
      exact String.ofList_eq_empty_iff.mp hnil

/-- Sent defaults that are read one by one are read so in the whole command. -/
theorem whole_command (i : MacroItem) {ps : List (List Char × List Char)}
    (h : List.Forall₂ (fun p kv => klipperParams (keyValue p) = some [kv]) i.sent ps) :
    ∃ args, i.handleSendMacro = i.macroLabel.toList ++ args ∧ klipperParams args = some ps := by
  obtain ⟨args, hargs, heq⟩ := handleSendMacro_eq i
  exact ⟨args, hargs, by
    rw [heq, klipperParams_intercalate (List.forall₂_map_left_iff.mpr h)]⟩

variable {E : Escapes}

theorem keyValue_eq {X t : List Char} :
    keyValue (String.ofList X, String.ofList t) = X ++ '=' :: t := by
  rw [keyValue, String.toList_ofList, String.toList_ofList]

/-- What decides on a parameter is sent for it, and nothing else. -/
theorem sent_iff {X s r a : List Char} (hX : Decides X s r gcode.toList) (ha : FirstDefault r a) :
    p ∈ (MacroItem.create name (macroParams gcode) hide).sent ∧ p.1 = String.ofList X ↔
      p = (String.ofList X, String.ofList (cut a)) := by
  rw [mem_sent]
  constructor
  · rintro ⟨⟨s', r', a', hs', ha', hvalue⟩, hname⟩
    rw [hname, String.toList_ofList] at hs'
    obtain rfl := hX.unique hs'
    obtain rfl := firstDefault_unique ha ha'
    exact Prod.ext hname hvalue
  · rintro rfl
    exact ⟨⟨s, r, a, by rwa [String.toList_ofList], ha, rfl⟩, rfl⟩

theorem mem_direct {L : Literal} {b : List Char} {c : Char} (hc : c ∈ L.text) :
    c ∈ direct L b :=
  List.mem_append_right _ (List.mem_append_left _ hc)

theorem untouched_iff_harmless :
    Untouched E gcode (MacroItem.create name (macroParams gcode) hide) ↔ Harmless E gcode.toList := by
  constructor
  · rintro ⟨hliteral, hunset, -⟩
    have hread {X : List Char} {L : Literal} (hL : Sets X L gcode.toList) :
        ∃ s r a, Decides X s r gcode.toList ∧ FirstDefault r a ∧
          klipperParams (X ++ '=' :: cut a) = some [(X, L.value E)] := by
      obtain ⟨p, hp, hname, hparams⟩ := hliteral (String.ofList X) L (by rwa [String.toList_ofList])
      obtain ⟨s, r, a, hs, ha, hvalue⟩ := (mem_sent name hide).mp hp
      rw [hname, String.toList_ofList] at hs
      refine ⟨s, r, a, hs, ha, ?_⟩
      rw [← Prod.mk.eta (p := p), hname, hvalue, keyValue_eq, String.toList_ofList] at hparams
      exact hparams
    refine ⟨fun X L hL => ?_, fun X hX hno s r hs a ha => ?_⟩
    · obtain ⟨s, r, a, hs, ha, hparams⟩ := hread hL
      refine ⟨s, r, hs, ?_⟩
      by_cases hdirect : ∃ L' b, s = "params.".toList ∧ r = direct L' b ∧ Printable L'
      · obtain ⟨L', b, rfl, rfl, hprint⟩ := hdirect
        refine Or.inl ⟨L', b, ⟨rfl, rfl, hprint⟩, ?_⟩
        obtain ⟨s', r', a', hs', ha', hparams'⟩ := hread hs.sets
        obtain rfl := hs.unique hs'
        obtain rfl := firstDefault_unique ha ha'
        obtain rfl := firstDefault_unique ha (firstDefault_direct hprint (fun c hc =>
          hs.line c (mem_direct hc)) b)
        refine ⟨(klipperParams_literal_iff E hs.word hprint b).mp hparams', ?_⟩
        rw [hparams, Option.some_inj] at hparams'
        exact (Prod.mk.inj (List.cons.inj hparams').1).2.symm
      · exact Or.inr ⟨hdirect, a, ha, hparams⟩
    · refine hunset (String.ofList X) (by rwa [String.toList_ofList])
        (by rwa [String.toList_ofList]) ?_
      obtain ⟨hp, hname⟩ := (sent_iff name hide hs ha).mpr rfl
      exact List.mem_map_of_mem (f := Prod.fst) hp
  · rintro ⟨hliteral, hunset⟩
    refine ⟨fun X L hL => ?_, fun X hX hno hmem => ?_, fun ps => whole_command _⟩
    · obtain ⟨s, r, hs, hreads⟩ := hliteral _ L hL
      have hfound : ∃ a, FirstDefault r a ∧
          klipperParams (X.toList ++ '=' :: cut a) = some [(X.toList, L.value E)] := by
        rcases hreads with ⟨L', b, ⟨rfl, rfl, hprint⟩, hclean, hvalue⟩ | ⟨-, hfound⟩
        · refine ⟨_, firstDefault_direct hprint (fun c hc => hs.line c (mem_direct hc)) b, ?_⟩
          rw [← hvalue]
          exact (klipperParams_literal_iff E hs.word hprint b).mpr hclean
        · exact hfound
      obtain ⟨a, ha, hparams⟩ := hfound
      obtain ⟨hp, hname⟩ := (sent_iff name hide hs ha).mpr rfl
      refine ⟨_, hp, by rw [String.ofList_toList], ?_⟩
      rwa [keyValue_eq]
    · obtain ⟨p, hp, rfl⟩ := List.mem_map.mp hmem
      obtain ⟨s, r, a, hs, ha, -⟩ := (mem_sent name hide).mp hp
      exact hunset _ hX hno s r hs a ha

end Item

section Pairs

variable {α β : Type*} {R S : α → β → Prop} {l : List α} {l' : List β}

theorem exists_of_forall₂ (h : List.Forall₂ R l l') (h' : List.Forall₂ S l l') {a : α}
    (ha : a ∈ l) : ∃ b, R a b ∧ S a b := by
  induction h with
  | nil => cases ha
  | cons hr _ ih =>
    cases h' with
    | cons hs h' =>
      rcases List.mem_cons.mp ha with rfl | ha
      · exact ⟨_, hr, hs⟩
      · exact ih h' ha

theorem forall₂_of_mem (h : List.Forall₂ R l l') (hRS : ∀ a ∈ l, ∀ b, R a b → S a b) :
    List.Forall₂ S l l' := by
  induction h with
  | nil => exact .nil
  | cons hr _ ih =>
    exact .cons (hRS _ List.mem_cons_self _ hr)
      (ih fun a ha => hRS a (List.mem_cons_of_mem _ ha))

end Pairs

/-- The panel replays its macros where their items are untouched, hidden or not. -/
theorem replays_iff (E : Escapes) {m settings left settings' : Json} {items : List MacroItem}
    (hm : IsConfig m) (hitems : populate m settings = some (items, left, settings')) :
    Replays E m items ↔ ∀ name gcode, IsMacro m name gcode →
      Untouched E gcode (MacroItem.create name (macroParams gcode) false) := by
  have hhide {gcode name : String} {ps : Params} {hide hide' : Bool}
      (h : Untouched E gcode (MacroItem.create name ps hide)) :
      Untouched E gcode (MacroItem.create name ps hide') := ⟨h.literal, h.unset, h.whole⟩
  obtain ⟨macros, left', hparse, hsorted, hlook⟩ := lookup_parseMacros hm
  have hnull : m ≠ .null := by
    rintro rfl
    exact absurd hm.isObject (by decide)
  rw [populate, if_neg hnull, hparse, Option.bind_some] at hitems
  obtain ⟨⟨items', left''⟩, hcreate, heq⟩ := Option.map_eq_some_iff.mp hitems
  cases heq
  have hforall := createItems_eq hcreate
  constructor
  · rintro ⟨macros', left₂, hparse', huntouched⟩ name gcode hmacro
    rw [hparse] at hparse'
    cases hparse'
    have he : (name, macroParams gcode) ∈ macros :=
      Assoc.mem_of_lookup (by rw [hlook, isMacro_iff.mp hmacro, Option.map_some])
    obtain ⟨i, ⟨hide, rfl⟩, hi⟩ := exists_of_forall₂ hforall huntouched he
    exact hhide (hi gcode hmacro)
  · intro huntouched
    refine ⟨macros, left', hparse, forall₂_of_mem hforall fun e he i hi gcode hmacro => ?_⟩
    obtain ⟨hide, rfl⟩ := hi
    have hparams := Assoc.lookup_of_mem hsorted he
    rw [hlook, isMacro_iff.mp hmacro, Option.map_some, Option.some_inj] at hparams
    rw [← hparams]
    exact hhide (huntouched e.1 gcode hmacro)

/-- Running the macros with their fields untouched changes nothing exactly where the code of each
reads as it is shown. -/
theorem untouched_iff (E : Escapes) {m settings left settings' : Json} {items : List MacroItem}
    (hm : IsConfig m) (hitems : populate m settings = some (items, left, settings')) :
    Replays E m items ↔ ∀ name gcode, IsMacro m name gcode → Harmless E gcode.toList := by
  rw [replays_iff E hm hitems]
  exact forall_congr' fun name => forall_congr' fun gcode => forall_congr' fun _ =>
    untouched_iff_harmless name false

/-- A template without escapes by letters and digits. -/
def noEscapes : Escapes where
  read _ := none
  consumes h := by cases h

theorem untouched_single : ∃ items left settings',
    populate (withMacro "params.X") .null = some (items, left, settings') ∧
      Replays noEscapes (withMacro "params.X") items := by
  have hsome : (populate (withMacro "params.X") .null).isSome := by decide +kernel
  obtain ⟨⟨items, left, settings'⟩, hitems⟩ := Option.isSome_iff_exists.mp hsome
  refine ⟨items, left, settings', hitems,
    (untouched_iff noEscapes (withMacro_isConfig _) hitems).mpr fun name gcode h => ?_⟩
  obtain ⟨-, rfl⟩ := isMacro_withMacro.mp h
  have hspells : Spells "params.".toList := by
    unfold Spells
    decide
  constructor
  · rintro X L ⟨u, b, hu, hr⟩
    obtain ⟨-, -, hdirect, -⟩ := refers_single hspells hu hr
    cases hdirect
  · rintro X - - s r hs a ⟨u, v, hu, -, hv, -⟩
    obtain ⟨l, hl, hspelled, w, hw, hr, -⟩ := hs.leads
    have hline : lines "params.X".toList = ["params.X".toList] := by decide
    rw [hline, List.mem_singleton] at hl
    obtain ⟨-, -, rfl, -⟩ := refers_single hspelled (hl ▸ hw) hr
    rw [List.suffix_nil.mp hu] at hv
    cases hv

/-- The text goes on to a quote of another filter. -/
theorem default_taken_too_far : ¬ ∀ (E : Escapes) (m settings left settings' : Json)
    (items : List MacroItem), IsConfig m →
      populate m settings = some (items, left, settings') → Replays E m items := by
  intro h
  have hsome : (populate (withMacro "\x7bparams.A|default(\"x\")|replace(\"y\", \"z\")\x7d")
    .null).isSome := by decide +kernel
  obtain ⟨⟨items, left, settings'⟩, hitems⟩ := Option.isSome_iff_exists.mp hsome
  have huntouched := (replays_iff noEscapes (withMacro_isConfig _) hitems).mp
    (h noEscapes _ _ _ _ _ (withMacro_isConfig _) hitems) _ _
      (isMacro_withMacro.mpr ⟨rfl, rfl⟩)
  obtain ⟨p, hp, -, hparams⟩ := huntouched.literal "A"
    (.quoted '"' ['x'] (by decide) (.char (by decide) (by decide) .nil))
    ⟨"params.A|default(\"x\")|replace(\"y\", \"z\")\x7d".toList,
      "|replace(\"y\", \"z\")\x7d".toList, by decide, by decide, by decide,
      List.forall_mem_singleton.mpr (by decide), fun c hc => by cases hc; decide⟩
  have hsent : (MacroItem.create "PS_TEST"
      (macroParams "\x7bparams.A|default(\"x\")|replace(\"y\", \"z\")\x7d") false).sent =
        [("A", "\"x\")|replace(\"y\", \"z\"")] := by decide +kernel
  rw [hsent, List.mem_singleton] at hp
  have hnone : klipperParams (keyValue ("A", "\"x\")|replace(\"y\", \"z\"")) = none := by
    decide +kernel
  rw [hp, hnone] at hparams
  cases hparams

end PowerScreen.Macros
