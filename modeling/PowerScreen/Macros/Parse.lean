import PowerScreen.Library.Fields
import PowerScreen.Library.JsonPointer
import PowerScreen.Macros.Patterns

/-! # Finding the parameters of the macros

`parse_macros` goes through the sections of Klipper's configuration. The pattern for a
parameter takes the rest of the line along, so a parameter is found only where it is the
first one on some line.
-/
namespace PowerScreen.Macros
open Library

/-- Parameters with their defaults, empty for none. -/
abbrev Params := List (String × String)

/-- The matches as the loop over them reads them: a name and the rest of its line. -/
def references (gcode : String) : List (String × List Char) :=
  (paramMatches gcode.toList).map fun p => (String.ofList p.1, p.2)

def macroParams (gcode : String) : Params :=
  (references gcode).foldl
    (fun ps p => Assoc.insertNew p.1 (String.ofList (defaultValue p.2)) ps) []

/-- One turn of the loop over the sections: the macros, and the section's value as the access
to its code leaves it. -/
def parseSection (macros : List (String × Params)) (key : String) (value : Json) :
    Option (List (String × Params) × Json) :=
  if "gcode_macro ".toList.isPrefixOf key.toList then
    (Json.modifyAt id ["gcode"] value).bind fun left =>
      (Json.getAt ["gcode"] value).bind fun gcode =>
        if gcode = .null then some (macros, left)
        else match fields ' ' key.toList with
          | _ :: name :: _ =>
            if name.head? = some '_' then some (macros, left)
            else gcode.str?.map fun text =>
              (Assoc.insertNew (String.ofList name) (macroParams text) macros, left)
          | _ => some (macros, left)
  else some (macros, value)

def parseSections : List (String × Json) → List (String × Params) →
    Option (List (String × Params) × List (String × Json))
  | [], macros => some (macros, [])
  | (key, value) :: rest, macros => (parseSection macros key value).bind fun r =>
    (parseSections rest r.1).map fun r' => (r'.1, (key, r.2) :: r'.2)

/-- The macros, and the configuration that is left; `none` is an exception. A value that is no
object has no such sections. -/
def parseMacros (m : Json) : Option (List (String × Params) × Json) :=
  match m with
  | .obj sections => (parseSections sections []).map fun r => (r.1, .obj r.2)
  | m => some ([], m)

/-- The configuration as Klipper reports it: options are texts, and a macro has a name
without blanks. -/
structure IsConfig (m : Json) : Prop where
  sorted : m.Sorted
  isObject : m.isObject
  options : ∀ s ∈ m.members, ∃ os : List (String × String),
    s.2 = .obj (os.map fun o => (o.1, .str o.2))
  named : ∀ s ∈ m.members, ∀ name, s.1 = "gcode_macro " ++ name → name ≠ "" ∧ ' ' ∉ name.toList

/-- A macro that is not hidden by an underscore, and its code. -/
structure IsMacro (m : Json) (name gcode : String) : Prop where
  shown : name.toList.head? ≠ some '_'
  code : ∃ v, m.get? ("gcode_macro " ++ name) = some v ∧ v.get? "gcode" = some (.str gcode)

/-- The parameters of a macro are those that its code refers to, and no other section has an
entry. -/
def Discovers (m : Json) : Prop := ∃ macros left, parseMacros m = some (macros, left) ∧
  (∀ name gcode, IsMacro m name gcode → ∃ ps, macros.lookup name = some ps ∧
    ∀ X : String, X ∈ ps.map Prod.fst ↔ Occurs X.toList gcode.toList) ∧
  ∀ name ∈ macros.map Prod.fst, ∃ gcode, IsMacro m name gcode

/-- Each parameter is the first one on some line, and what is first on a line is also found
under its own spelling. -/
structure Exposed (t : List Char) : Prop where
  leads : ∀ X, Occurs X t → ∃ l ∈ lines t, ∃ s r, Leads s X r l
  spelled : ∀ l ∈ lines t, ∀ s X r, Leads s X r l → Occurs X t

theorem mem_references {gcode X : String} {r : List Char} :
    (X, r) ∈ references gcode ↔ ∃ l ∈ lines gcode.toList, ∃ s, Leads s X.toList r l := by
  rw [← mem_paramMatches, references, List.mem_map]
  constructor
  · rintro ⟨⟨Y, r'⟩, hmem, heq⟩
    cases heq
    rwa [String.toList_ofList]
  · exact fun h => ⟨_, h, by rw [String.ofList_toList]⟩

theorem lookup_map {α β : Type*} (ps : List (String × α)) (f : α → β) (X : String) :
    (ps.map fun p => (p.1, f p.2)).lookup X = (ps.lookup X).map f := by
  induction ps with
  | nil => rfl
  | cons p ps ih =>
    obtain ⟨Y, r⟩ := p
    rw [List.map_cons, Assoc.lookup_cons, ih, Assoc.lookup_cons]
    split_ifs <;> rfl

/-- The first reference to a parameter decides on its default. -/
theorem lookup_macroParams (gcode X : String) : (macroParams gcode).lookup X =
    ((references gcode).lookup X).map fun r => String.ofList (defaultValue r) := by
  have hfold : macroParams gcode =
      ((references gcode).map fun p => (p.1, String.ofList (defaultValue p.2))).foldl
        (fun ps e => Assoc.insertNew e.1 e.2 ps) [] := by
    rw [List.foldl_map]
    rfl
  rw [hfold, Assoc.lookup_foldl_insertNew, List.lookup_nil, Option.none_or]
  exact lookup_map (references gcode) (fun r => String.ofList (defaultValue r)) X

theorem mem_macroParams {gcode X : String} : X ∈ (macroParams gcode).map Prod.fst ↔
    ∃ l ∈ lines gcode.toList, ∃ s r, Leads s X.toList r l := by
  rw [← Assoc.isSome_lookup_iff, lookup_macroParams, Option.isSome_map, Assoc.isSome_lookup_iff]
  constructor
  · intro h
    obtain ⟨⟨Y, r⟩, hmem, rfl⟩ := List.mem_map.mp h
    obtain ⟨l, hl, s, hs⟩ := mem_references.mp hmem
    exact ⟨l, hl, s, r, hs⟩
  · rintro ⟨l, hl, s, r, hs⟩
    exact List.mem_map_of_mem (mem_references.mpr ⟨l, hl, s, hs⟩)

/-- The code of a shown macro. -/
def code (ms : List (String × Json)) (name : String) : Option String :=
  if name.toList.head? = some '_' then none
  else ((ms.lookup ("gcode_macro " ++ name)).bind (·.get? "gcode")).bind Json.str?

theorem isMacro_iff {m : Json} {name gcode : String} :
    IsMacro m name gcode ↔ code m.members name = some gcode := by
  unfold code
  constructor
  · rintro ⟨hshown, v, hv, hg⟩
    have hv' : m.members.lookup ("gcode_macro " ++ name) = some v := hv
    rw [if_neg hshown, hv', Option.bind_some, hg]
    rfl
  · intro h
    split_ifs at h with hshown
    obtain ⟨g, hg, hstr⟩ := Option.bind_eq_some_iff.mp h
    obtain ⟨v, hv, hvg⟩ := Option.bind_eq_some_iff.mp hg
    cases g with
    | str _ =>
      cases hstr
      exact ⟨hshown, v, hv, hvg⟩
    | _ => cases hstr

theorem fields_macroKey {name : String} (hne : name ≠ "") (hblank : ' ' ∉ name.toList) :
    fields ' ' ("gcode_macro " ++ name).toList = ["gcode_macro".toList, name.toList] := by
  have htext : ("gcode_macro " ++ name).toList = "gcode_macro".toList ++ ' ' :: name.toList := by
    rw [String.toList_append]
    rfl
  have hnil : name.toList ≠ [] := fun h => hne (String.toList_inj.mp h)
  rw [htext, fields_append_cons (by decide), fields_of_not_mem hblank hnil]

theorem isPrefixOf_macroKey {key : String} :
    "gcode_macro ".toList.isPrefixOf key.toList ↔ ∃ name, key = "gcode_macro " ++ name := by
  rw [List.isPrefixOf_iff_prefix]
  constructor
  · rintro ⟨t, ht⟩
    have hkey : ("gcode_macro " ++ String.ofList t).toList = key.toList := by
      rw [← ht, String.toList_append]
      exact congrArg _ String.toList_ofList
    exact ⟨_, String.toList_inj.mp hkey.symm⟩
  · rintro ⟨name, rfl⟩
    exact ⟨name.toList, String.toList_append.symm⟩

theorem macroKey_inj {a b : String} : "gcode_macro " ++ a = "gcode_macro " ++ b ↔ a = b := by
  rw [← String.toList_inj, String.toList_append, String.toList_append, List.append_cancel_left_eq,
    String.toList_inj]

/-- What one section adds. -/
theorem lookup_parseSection (macros : List (String × Params)) (os : List (String × String))
    {key : String} (hname : ∀ name, key = "gcode_macro " ++ name →
      name ≠ "" ∧ ' ' ∉ name.toList) :
    ∃ macros' left, parseSection macros key (.obj (os.map fun o => (o.1, .str o.2))) =
      some (macros', left) ∧ (Assoc.Sorted macros → Assoc.Sorted macros') ∧
        ∀ name, macros'.lookup name = (macros.lookup name).or
          ((code [(key, .obj (os.map fun o => (o.1, .str o.2)))] name).map macroParams) := by
  have hoption : (os.map fun o => (o.1, Json.str o.2)).lookup "gcode" =
      (os.lookup "gcode").map Json.str := lookup_map os Json.str "gcode"
  have hcode (name : String) : code [(key, .obj (os.map fun o => (o.1, .str o.2)))] name =
      if name.toList.head? = some '_' then none
      else if "gcode_macro " ++ name = key then os.lookup "gcode" else none := by
    rw [code, Assoc.lookup_cons, List.lookup_nil]
    split_ifs with hshown hkey
    · rfl
    · rw [Option.bind_some, Json.get?, Json.members, hoption]
      cases os.lookup "gcode" <;> rfl
    · rfl
  simp only [hcode]
  by_cases hpre : "gcode_macro ".toList.isPrefixOf key.toList
  · obtain ⟨name, rfl⟩ := isPrefixOf_macroKey.mp hpre
    obtain ⟨hne, hblank⟩ := hname name rfl
    simp only [macroKey_inj]
    rw [parseSection, if_pos hpre, fields_macroKey hne hblank, Json.modifyAt_cons_obj,
      Json.getAt_cons_obj, hoption]
    cases hg : os.lookup "gcode" with
    | none => exact ⟨macros, _, rfl, id, fun other => by
        rw [ite_self, ite_self, Option.map_none, Option.or_none]⟩
    | some gcode =>
      by_cases hshown : name.toList.head? = some '_'
      · refine ⟨macros, _, if_pos hshown, id, fun other => ?_⟩
        split_ifs with h1 h2
        · rw [Option.map_none, Option.or_none]
        · exact absurd (h2 ▸ hshown) h1
        · rw [Option.map_none, Option.or_none]
      · refine ⟨_, _, if_neg hshown, fun h => h.insertNew _ _, fun other => ?_⟩
        rw [String.ofList_toList, Assoc.lookup_insertNew]
        by_cases hother : other = name
        · rw [hother, if_pos rfl, if_neg hshown, if_pos rfl, Option.map_some]
        · rw [if_neg hother, if_neg hother, ite_self, Option.map_none]
  · refine ⟨macros, .obj (os.map fun o => (o.1, .str o.2)), by rw [parseSection, if_neg hpre],
      id, fun name => ?_⟩
    have hne : "gcode_macro " ++ name ≠ key := fun h =>
      hpre (isPrefixOf_macroKey.mpr ⟨name, h.symm⟩)
    rw [if_neg hne, ite_self, Option.map_none, Option.or_none]

/-- The macros found under a name, over all sections. -/
theorem lookup_parseSections {ms : List (String × Json)} (hs : Assoc.Sorted ms)
    (hoptions : ∀ s ∈ ms, ∃ os : List (String × String),
      s.2 = .obj (os.map fun o => (o.1, .str o.2)))
    (hnamed : ∀ s ∈ ms, ∀ name, s.1 = "gcode_macro " ++ name → name ≠ "" ∧ ' ' ∉ name.toList)
    (macros : List (String × Params)) :
    ∃ macros' left, parseSections ms macros = some (macros', left) ∧
      (Assoc.Sorted macros → Assoc.Sorted macros') ∧ ∀ name,
        macros'.lookup name = (macros.lookup name).or ((code ms name).map macroParams) := by
  induction ms generalizing macros with
  | nil => exact ⟨macros, [], rfl, id, fun name => by simp [code]⟩
  | cons s ms ih =>
    obtain ⟨key, v⟩ := s
    obtain ⟨os, hv⟩ := hoptions (key, v) List.mem_cons_self
    obtain rfl : v = .obj (os.map fun o => (o.1, .str o.2)) := hv
    obtain ⟨macros₁, left₁, hparse₁, hsorted₁, hlook₁⟩ :=
      lookup_parseSection macros os (hnamed (key, _) List.mem_cons_self)
    obtain ⟨macros₂, left₂, hparse₂, hsorted₂, hlook₂⟩ := ih (List.pairwise_cons.mp hs).2
      (fun s h => hoptions s (List.mem_cons_of_mem _ h))
      (fun s h => hnamed s (List.mem_cons_of_mem _ h)) macros₁
    refine ⟨macros₂, (key, left₁) :: left₂, ?_, hsorted₂ ∘ hsorted₁, fun name => ?_⟩
    · rw [parseSections, hparse₁, Option.bind_some, hparse₂, Option.map_some]
    · rw [hlook₂, hlook₁, Option.or_assoc, ← Option.map_or]
      congr 2
      unfold code
      split_ifs with hshown
      · rfl
      · rw [Assoc.lookup_cons, List.lookup_nil, Assoc.lookup_cons]
        split_ifs with hkey
        · have hnone : ms.lookup key = none := by
            rw [Assoc.lookup_eq_none_iff]
            intro hmem
            obtain ⟨m, hm, rfl⟩ := List.mem_map.mp hmem
            exact lt_irrefl _ ((List.pairwise_cons.mp hs).1 m hm)
          rw [hkey, hnone, Option.bind_none, Option.bind_none, Option.or_none]
        · rw [Option.bind_none, Option.bind_none, Option.none_or]

section Config

variable {m : Json} (hm : IsConfig m)
include hm

/-- What `parse_macros` has under a name are the parameters of the macro of that name. -/
theorem lookup_parseMacros : ∃ macros left, parseMacros m = some (macros, left) ∧
    Assoc.Sorted macros ∧
      ∀ name, macros.lookup name = (code m.members name).map macroParams := by
  cases m with
  | obj ms =>
    obtain ⟨macros, left, hparse, hsorted, hlook⟩ :=
      lookup_parseSections hm.sorted.members hm.options hm.named []
    have hsections : parseSections ms [] = some (macros, left) := hparse
    refine ⟨macros, .obj left, by rw [parseMacros, hsections, Option.map_some],
      hsorted List.Pairwise.nil, fun name => ?_⟩
    rw [hlook, List.lookup_nil, Option.none_or]
  | _ => exact absurd hm.isObject (by simp [Json.isObject])

/-- Every parameter of every macro is found exactly where each is the first on some line, in its
own spelling. -/
theorem parameters_found_iff : Discovers m ↔
    ∀ name gcode, IsMacro m name gcode → Exposed gcode.toList := by
  obtain ⟨macros, left, hparse, -, hlook⟩ := lookup_parseMacros hm
  constructor
  · rintro ⟨macros', left', hparse', hfound, -⟩ name gcode hmacro
    rw [hparse] at hparse'
    cases hparse'
    obtain ⟨ps, hps, hkeys⟩ := hfound name gcode hmacro
    rw [hlook, isMacro_iff.mp hmacro, Option.map_some, Option.some_inj] at hps
    subst hps
    have hkeys' (X : List Char) : (∃ l ∈ lines gcode.toList, ∃ s r, Leads s X r l) ↔
        Occurs X gcode.toList := by
      have h := hkeys (String.ofList X)
      rwa [mem_macroParams, String.toList_ofList] at h
    exact ⟨fun X => (hkeys' X).mpr, fun l hl s X r h => (hkeys' X).mp ⟨l, hl, s, r, h⟩⟩
  · intro hexposed
    refine ⟨macros, left, hparse, fun name gcode hmacro => ?_, fun name hname => ?_⟩
    · refine ⟨macroParams gcode, by rw [hlook, isMacro_iff.mp hmacro, Option.map_some],
        fun X => ?_⟩
      have h := hexposed name gcode hmacro
      rw [mem_macroParams]
      exact ⟨fun ⟨l, hl, s, r, hr⟩ => h.spelled l hl s _ r hr, h.leads X.toList⟩
    · obtain ⟨ps, hps⟩ := Option.isSome_iff_exists.mp (Assoc.isSome_lookup_iff.mpr hname)
      rw [hlook] at hps
      obtain ⟨gcode, hcode, -⟩ := Option.map_eq_some_iff.mp hps
      exact ⟨gcode, isMacro_iff.mpr hcode⟩

end Config

/-- A configuration with one macro. -/
def withMacro (gcode : String) : Json :=
  .obj [("gcode_macro PS_TEST", .obj [("gcode", .str gcode)])]

theorem withMacro_isConfig (gcode : String) : IsConfig (withMacro gcode) where
  sorted := by simp [withMacro, Json.Sorted, Json.SortedMembers]
  isObject := rfl
  options s hs := ⟨[("gcode", gcode)], by rw [List.mem_singleton.mp hs]; rfl⟩
  named s hs name hname := by
    rw [List.mem_singleton.mp hs] at hname
    obtain rfl : "PS_TEST" = name := macroKey_inj.mp hname
    exact ⟨by decide, by decide⟩

theorem isMacro_withMacro {gcode name gcode' : String} :
    IsMacro (withMacro gcode) name gcode' ↔ name = "PS_TEST" ∧ gcode' = gcode := by
  have hkey : "gcode_macro " ++ name = "gcode_macro PS_TEST" ↔ name = "PS_TEST" :=
    macroKey_inj (b := "PS_TEST")
  constructor
  · rintro ⟨hshown, v, hv, hg⟩
    have hv' : [("gcode_macro PS_TEST", Json.obj [("gcode", .str gcode)])].lookup
      ("gcode_macro " ++ name) = some v := hv
    rw [Assoc.lookup_cons] at hv'
    split_ifs at hv' with h
    · cases hv'
      cases hg
      exact ⟨hkey.mp h, rfl⟩
    · cases hv'
  · rintro ⟨rfl, rfl⟩
    exact ⟨by decide, _, rfl, rfl⟩

/-- The text of one reference has no other. -/
theorem refers_single {s X r u : List Char} (hs : Spells s) (hu : u <:+ "params.X".toList)
    (h : Refers s X r u) :
    s = "params.".toList ∧ X = ['X'] ∧ r = [] ∧ u = "params.X".toList := by
  have hX : 0 < X.length := List.length_pos_iff.mpr h.ne
  have hlen : u.length = 7 + X.length + r.length := by
    rw [h.text, List.length_append, List.length_append, hs.length]
  have hu8 : u.length ≤ 8 := hu.length_le
  have heq : u = "params.X".toList := hu.eq_of_length (by
    have h8 : "params.X".toList.length = 8 := rfl
    omega)
  have hr : r = [] := List.length_eq_zero_iff.mp (by omega)
  have htext : s ++ X = "params.".toList ++ ['X'] := by
    have h' := h.text
    rw [hr, List.append_nil, heq] at h'
    exact h'.symm
  obtain ⟨hs', hX'⟩ := List.append_inj htext hs.length
  exact ⟨hs', hX', hr, heq⟩

theorem parameters_found_single : Discovers (withMacro "params.X") := by
  refine (parameters_found_iff (withMacro_isConfig _)).mpr fun name gcode h => ?_
  obtain ⟨-, rfl⟩ := isMacro_withMacro.mp h
  have hline : lines "params.X".toList = ["params.X".toList] := by decide
  have hself : Refers "params.".toList ['X'] [] "params.X".toList :=
    ⟨by decide, by decide, List.forall_mem_singleton.mpr (by decide), fun c hc => by cases hc⟩
  have hspells : Spells "params.".toList := by
    unfold Spells
    decide
  constructor
  · rintro X ⟨r, u, hu, hr⟩
    obtain ⟨-, rfl, -, -⟩ := refers_single hspells hu hr
    refine ⟨_, hline ▸ List.mem_singleton_self _, "params.".toList, [], hspells, _, List.suffix_rfl,
      hself, fun v hv hlt => absurd hv.length_le (Nat.not_le_of_lt hlt)⟩
  · rintro l hl s X r ⟨hs, u, hu, hr, -⟩
    rw [hline, List.mem_singleton] at hl
    subst hl
    obtain ⟨-, rfl, -, -⟩ := refers_single hs hu hr
    exact ⟨[], _, List.suffix_rfl, hself⟩

/-- Of two parameters on a line the second is missed. -/
theorem second_parameter_missed : ¬ ∀ m, IsConfig m → Discovers m := by
  intro h
  obtain ⟨macros, left, hparse, hfound, -⟩ :=
    h _ (withMacro_isConfig "G1 X{params.X} Y{params.Y}")
  have hlook : (parseMacros (withMacro "G1 X{params.X} Y{params.Y}")).map (fun r =>
      ((r.1.lookup "PS_TEST").getD []).map Prod.fst) = some ["X"] := by decide
  obtain ⟨ps, hps, hkeys⟩ := hfound _ _ (isMacro_withMacro.mpr ⟨rfl, rfl⟩)
  rw [hparse, Option.map_some, hps, Option.getD_some, Option.some_inj] at hlook
  have hrefers : Refers "params.".toList ['Y'] ['}'] "params.Y\x7d".toList := by
    refine ⟨by decide, by decide, List.forall_mem_singleton.mpr (by decide), fun c hc => ?_⟩
    cases hc
    decide
  have hY := (hkeys "Y").mpr ⟨['}'], "params.Y\x7d".toList, by decide, hrefers⟩
  rw [hlook] at hY
  exact absurd hY (by decide)

end PowerScreen.Macros
