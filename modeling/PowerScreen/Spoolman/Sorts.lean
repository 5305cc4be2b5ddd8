import PowerScreen.Spoolman.Rows

/-! # Sorting by a column

The table shows a missing field as empty or zero, the comparisons need it. They are made as soon as
there are two spools, hidden ones included.
-/
namespace PowerScreen.Spoolman
open Library

variable (fixed1 : ℚ → String) (S : ComparisonSort.StdSort)

/-- The cells of a row that show the spool. -/
def dataTexts (r : Row) : List String :=
  [(r .id).text, (r .name).text, (r .material).text, (r .weight).text, (r .length).text]

def Spool.texts (s : Spool) : List String :=
  [s.id.repr, s.name, s.material, fixed1 s.remainingWeight ++ " g", fixed1 s.remainingLen ++ " m"]

/-- The table shows the spools that are not hidden, in the order of the list; all of them can be
displayed. -/
structure Panel.Displays (p : Panel) (ss : List Spool) : Prop where
  readable : ∀ el ∈ p.spools.values, (readSpool (!p.showArchived) el).isSome
  spools : ss.Perm (visible (!p.showArchived) p.spools.values)
  rows : p.table.tail.map dataTexts = ss.map (Spool.texts fixed1)

/-- The order of what a column displays. -/
def Column.le (a b : Spool) : Column → Prop
  | .id => a.id ≤ b.id
  | .name => a.name ≤ b.name
  | .material => a.material ≤ b.material
  | .weight => a.remainingWeight ≤ b.remainingWeight
  | .length => a.remainingLen ≤ b.remainingLen

/-- A click on a header ends without an exception and shows the same spools ordered by its column,
one way or the other. -/
def SortsRight (c : Column) (p : Panel) (ss : List Spool) : Prop :=
  (p.handleHeader fixed1 S c).2 = true ∧ ∃ ss', (p.handleHeader fixed1 S c).1.Displays fixed1 ss' ∧
    ss'.Perm ss ∧ ss'.Pairwise fun a b => if p.reversed c then c.le b a else c.le a b

/-- A spool has the fields that the comparison of a column reads. -/
def Column.has (el : Json) : Column → Bool
  | .id => (readId el).isSome
  | .name => (nameKey el).isSome
  | .material => (materialKey el).isSome
  | .weight => (weightKey el).isSome
  | .length => (lengthKey el).isSome

section Comparisons

variable {κ : Type*} [LinearOrder κ]

theorem sort_compareBy_isSome_iff (reversed : Bool) (key : Json → Option κ) (xs : List Json) :
    (S.sort (compareBy reversed key) xs).isSome ↔ xs.length ≤ 1 ∨ ∀ x ∈ xs, (key x).isSome := by
  cases reversed with
  | false => exact ComparisonSort.sort_isSome_iff S
  | true =>
    refine (ComparisonSort.sort_isSome_iff S).trans ?_
    simp only [Option.isSome_map]

theorem sort_compareBy_spec {reversed : Bool} {key : Json → Option κ} {xs ys : List Json}
    (h : S.sort (compareBy reversed key) xs = some ys) : ys.Perm xs ∧
      ys.Pairwise fun a b => ∀ x y, key a = some x → key b = some y →
        if reversed then y ≤ x else x ≤ y := by
  cases reversed with
  | false =>
    obtain ⟨hperm, hsorted⟩ := ComparisonSort.sort_spec S h
    exact ⟨hperm, hsorted⟩
  | true =>
    obtain ⟨hperm, hsorted⟩ := ComparisonSort.sort_spec S h
    refine ⟨hperm, hsorted.imp fun {a b} hab x y hx hy => ?_⟩
    exact hab (OrderDual.toDual x) (OrderDual.toDual y) (by rw [hx]; rfl) (by rw [hy]; rfl)

end Comparisons

/-- A field that the comparison reads is displayed as it is. -/
theorem fieldOr_of_fieldOf {α : Type*} {f : Json → Option α} (hnull : f .null = none)
    {path : List String} {d x : α} {el : Json} (h : fieldOf f path el = some x) :
    fieldOr f path d el = some x := by
  obtain ⟨j, hj, hx⟩ := Option.bind_eq_some_iff.mp h
  have hne : j ≠ .null := by
    rintro rfl
    rw [hnull] at hx
    cases hx
  rw [fieldOr, hj, Option.bind_some, Json.optional, if_neg hne, hx]
  rfl

/-- The fields of a spool that is displayed. -/
theorem fields_of_readSpool {skipArchive : Bool} {el : Json} {s : Spool}
    (h : readSpool skipArchive el = some (some s)) : readId el = some s.id ∧
      (∃ vendor filamentName, fieldOr Json.str? vendorPath "" el = some vendor ∧
        fieldOr Json.str? namePath "" el = some filamentName ∧
        s.name = spoolName vendor filamentName) ∧
      fieldOr Json.str? materialPath "" el = some s.material ∧
      fieldOr double? ["remaining_weight"] 0 el = some s.remainingWeight ∧
      ∃ len, fieldOr double? ["remaining_length"] 0 el = some len ∧ s.remainingLen = len / 1000 := by
  simp only [readSpool, Option.bind_eq_bind, Option.bind_eq_some_iff] at h
  obtain ⟨archived, -, h⟩ := h
  split_ifs at h with hskip
  · cases Option.some_inj.mp h
  obtain ⟨id, hid, h⟩ := Option.bind_eq_some_iff.mp h
  obtain ⟨vendor, hvendor, h⟩ := Option.bind_eq_some_iff.mp h
  obtain ⟨filamentName, hname, h⟩ := Option.bind_eq_some_iff.mp h
  obtain ⟨material, hmaterial, h⟩ := Option.bind_eq_some_iff.mp h
  obtain ⟨weight, hweight, h⟩ := Option.bind_eq_some_iff.mp h
  obtain ⟨len, hlen, h⟩ := Option.bind_eq_some_iff.mp h
  obtain rfl := Option.some_inj.mp (Option.some_inj.mp h)
  exact ⟨hid, ⟨vendor, filamentName, hvendor, hname, rfl⟩, hmaterial, hweight, len, hlen, rfl⟩

/-- What the comparisons read orders what the rows display: the value of a spool is what is read,
or grows with it. -/
theorem le_of_readSpool {κ κ' : Type*} [Preorder κ] [Preorder κ'] {c : Column} {value : Spool → κ'}
    (hc : ∀ s s', value s ≤ value s' → c.le s s') {f : κ → κ'} (hf : Monotone f)
    {key : Json → Option κ} {skipArchive : Bool}
    (hvalue : ∀ {el s x}, readSpool skipArchive el = some (some s) → key el = some x →
      value s = f x)
    {reversed : Bool} {ys : List Json} (hall : ∀ el ∈ ys, (key el).isSome)
    (hsorted : ys.Pairwise fun a b => ∀ x y, key a = some x → key b = some y →
      if reversed then y ≤ x else x ≤ y) :
    (visible skipArchive ys).Pairwise fun a b => if reversed then c.le b a else c.le a b := by
  have hle {el el' : Json} {s s' : Spool} {x x' : κ} (hs : readSpool skipArchive el = some (some s))
      (hs' : readSpool skipArchive el' = some (some s')) (hx : key el = some x)
      (hx' : key el' = some x') (h : x ≤ x') : c.le s s' := by
    refine hc s s' ?_
    rw [hvalue hs hx, hvalue hs' hx']
    exact hf h
  rw [visible, List.pairwise_filterMap]
  refine hsorted.imp_of_mem fun {a b} ha hb hab s hs s' hs' => ?_
  obtain ⟨x, hx⟩ := Option.isSome_iff_exists.mp (hall a ha)
  obtain ⟨y, hy⟩ := Option.isSome_iff_exists.mp (hall b hb)
  have hxy := hab x y hx hy
  rw [Option.join_eq_some_iff] at hs hs'
  cases reversed with
  | false => exact hle hs hs' hx hy hxy
  | true => exact hle hs' hs hy hx hxy

theorem id_of_readSpool {skipArchive : Bool} {el : Json} {s : Spool} {x : ℕ}
    (hs : readSpool skipArchive el = some (some s)) (hx : readId el = some x) : s.id = x := by
  obtain ⟨hid, -⟩ := fields_of_readSpool hs
  rw [hx, Option.some_inj] at hid
  exact hid.symm

theorem name_of_readSpool {skipArchive : Bool} {el : Json} {s : Spool} {x : String}
    (hs : readSpool skipArchive el = some (some s)) (hx : nameKey el = some x) : s.name = x := by
  obtain ⟨-, ⟨vendor, filamentName, hvendor, hname, heq⟩, -⟩ := fields_of_readSpool hs
  obtain ⟨vendor', hvendor', hx'⟩ := Option.bind_eq_some_iff.mp hx
  obtain ⟨filamentName', hname', rfl⟩ := Option.map_eq_some_iff.mp hx'
  rw [fieldOr_of_fieldOf rfl hvendor', Option.some_inj] at hvendor
  rw [fieldOr_of_fieldOf rfl hname', Option.some_inj] at hname
  rw [heq, hvendor, hname]

theorem material_of_readSpool {skipArchive : Bool} {el : Json} {s : Spool} {x : String}
    (hs : readSpool skipArchive el = some (some s)) (hx : materialKey el = some x) :
    s.material = x := by
  obtain ⟨-, -, hmaterial, -⟩ := fields_of_readSpool hs
  rw [fieldOr_of_fieldOf rfl hx, Option.some_inj] at hmaterial
  exact hmaterial.symm

theorem weight_of_readSpool {skipArchive : Bool} {el : Json} {s : Spool} {x : ℚ}
    (hs : readSpool skipArchive el = some (some s)) (hx : weightKey el = some x) :
    s.remainingWeight = x := by
  obtain ⟨-, -, -, hweight, -⟩ := fields_of_readSpool hs
  rw [fieldOr_of_fieldOf rfl hx, Option.some_inj] at hweight
  exact hweight.symm

theorem length_of_readSpool {skipArchive : Bool} {el : Json} {s : Spool} {x : ℚ}
    (hs : readSpool skipArchive el = some (some s)) (hx : lengthKey el = some x) :
    s.remainingLen = x / 1000 := by
  obtain ⟨-, -, -, -, len, hlen, heq⟩ := fields_of_readSpool hs
  rw [fieldOr_of_fieldOf rfl hx, Option.some_inj] at hlen
  rw [heq, hlen]

/-- The sort of a column fails on two spools or more of which one lacks what it reads. -/
theorem sort_column_isSome_iff (c : Column) (reversed : Bool) (xs : List Json) :
    (S.sort (c.compare reversed) xs).isSome ↔ xs.length ≤ 1 ∨ ∀ x ∈ xs, c.has x := by
  cases c with
  | id => exact sort_compareBy_isSome_iff S reversed readId xs
  | name => exact sort_compareBy_isSome_iff S reversed nameKey xs
  | material => exact sort_compareBy_isSome_iff S reversed materialKey xs
  | weight => exact sort_compareBy_isSome_iff S reversed weightKey xs
  | length => exact sort_compareBy_isSome_iff S reversed lengthKey xs

theorem sort_column_spec {c : Column} {reversed : Bool} {xs ys : List Json}
    (h : S.sort (c.compare reversed) xs = some ys) (skipArchive : Bool) : ys.Perm xs ∧
      (visible skipArchive ys).Pairwise fun a b => if reversed then c.le b a else c.le a b := by
  have hperm : ys.Perm xs := by
    cases c <;> exact (sort_compareBy_spec S h).1
  refine ⟨hperm, ?_⟩
  rcases (sort_column_isSome_iff S c reversed xs).mp (Option.isSome_of_eq_some h) with hshort | hall
  · exact ComparisonSort.pairwise_of_length_le_one
      ((List.length_filterMap_le _ _).trans (hperm.length_eq.trans_le hshort))
  have hhas : ∀ el ∈ ys, c.has el := fun el hel => hall el (hperm.mem_iff.mp hel)
  cases c with
  | id =>
    exact le_of_readSpool (fun _ _ => id) monotone_id id_of_readSpool hhas
      (sort_compareBy_spec S h).2
  | name =>
    exact le_of_readSpool (fun _ _ => id) monotone_id name_of_readSpool hhas
      (sort_compareBy_spec S h).2
  | material =>
    exact le_of_readSpool (fun _ _ => id) monotone_id material_of_readSpool hhas
      (sort_compareBy_spec S h).2
  | weight =>
    exact le_of_readSpool (fun _ _ => id) monotone_id weight_of_readSpool hhas
      (sort_compareBy_spec S h).2
  | length =>
    have hdiv : Monotone fun len : ℚ => len / 1000 := fun _ _ hle =>
      div_le_div_of_nonneg_right hle (by norm_num)
    exact le_of_readSpool (fun _ _ => id) hdiv length_of_readSpool hhas
      (sort_compareBy_spec S h).2

/-- The five texts of a row do not depend on what it held. -/
theorem dataTexts_fillRow (activeId : ℕ) (s : Spool) (r : Row) :
    dataTexts (fillRow fixed1 activeId s r) = s.texts fixed1 := rfl

/-- Filling the table displays the spools in the order given. -/
theorem displays_populateSpools {p : Panel} (hne : p.spools.members.isEmpty = false)
    {els : List Json} (hperm : els.Perm p.spools.values)
    (h : ∀ el ∈ p.spools.values, (readSpool (!p.showArchived) el).isSome) :
    (p.populateSpools fixed1 els).2 = true ∧
      (p.populateSpools fixed1 els).1.Displays fixed1 (visible (!p.showArchived) els) := by
  rw [populateSpools_eq fixed1 hne fun el hel => h el (hperm.mem_iff.mp hel)]
  refine ⟨rfl, h, hperm.filterMap _, ?_⟩
  exact map_tail_filled fixed1 dataTexts (Spool.texts fixed1) fun i s _ =>
    dataTexts_fillRow fixed1 p.activeId s _

/-- Without spools nothing is done. -/
theorem displays_of_isEmpty {p : Panel} (hempty : p.spools.members.isEmpty) {ss : List Spool}
    (h : p.Displays fixed1 ss) (els : List Json) : (p.populateSpools fixed1 els).2 = true ∧
      (p.populateSpools fixed1 els).1.Displays fixed1 ss := by
  rw [Panel.populateSpools, if_pos hempty]
  exact ⟨rfl, h⟩

/-- For every list of spools that can be displayed, every column and every sort. -/
theorem sortsRight_iff {p : Panel} {ss : List Spool} (h : p.Displays fixed1 ss) (c : Column) :
    SortsRight fixed1 S c p ss ↔
      p.spools.members.length ≤ 1 ∨ ∀ el ∈ p.spools.values, c.has el := by
  have hlength : p.spools.values.length = p.spools.members.length := List.length_map _
  rw [← hlength, ← sort_column_isSome_iff S c (p.reversed c)]
  constructor
  · rintro ⟨hdone, -⟩
    rw [Panel.handleHeader, Panel.resort] at hdone
    cases hsort : S.sort (c.compare (p.reversed c)) p.spools.values with
    | none =>
      rw [hsort] at hdone
      cases hdone
    | some ys => rfl
  · intro hsome
    obtain ⟨ys, hys⟩ := Option.isSome_iff_exists.mp hsome
    obtain ⟨hperm, hordered⟩ := sort_column_spec S hys (!p.showArchived)
    rw [SortsRight, Panel.handleHeader, Panel.resort, hys]
    cases hempty : p.spools.members.isEmpty with
    | true =>
      have hnil : ss = [] := by
        have hvalues : p.spools.values = [] := by
          rw [Spools.values, List.isEmpty_iff.mp hempty]
          rfl
        have hperm' := h.spools
        rw [hvalues] at hperm'
        exact hperm'.eq_nil
      obtain ⟨hdone, hshown⟩ := displays_of_isEmpty fixed1
        (p := { p with sortedBy := (p.sortedBy ^^^ c.bit) &&& c.bit }) hempty
        ⟨h.readable, h.spools, h.rows⟩ ys
      exact ⟨hdone, ss, hshown, List.Perm.refl _, hnil ▸ List.Pairwise.nil⟩
    | false =>
      obtain ⟨hdone, hshown⟩ := displays_populateSpools fixed1
        (p := { p with sortedBy := (p.sortedBy ^^^ c.bit) &&& c.bit }) hempty hperm h.readable
      exact ⟨hdone, _, hshown, (hperm.filterMap _).trans h.spools.symm, hordered⟩

def spoolsReply (els : List Json) : Json := .obj [("result", .arr els)]

/-- A spool with an id only. -/
def bareSpool (id : ℤ) : Json := .obj [("archived", .bool false), ("id", .num (.int id))]

def panelOf (els : List Json) : Panel :=
  (Panel.new.handleSpools (fun _ => "") ComparisonSort.insertionSort (spoolsReply els)).1

theorem sortsRight_single : (panelOf [bareSpool 3]).Displays (fun _ => "")
      [⟨3, false, " - ", "", 0, 0⟩] ∧
    (SortsRight (fun _ => "") ComparisonSort.insertionSort .material (panelOf [bareSpool 3])
        [⟨3, false, " - ", "", 0, 0⟩] ↔
      (panelOf [bareSpool 3]).spools.members.length ≤ 1 ∨
        ∀ el ∈ (panelOf [bareSpool 3]).spools.values, Column.has el .material) := by
  have h : (panelOf [bareSpool 3]).Displays (fun _ => "") [⟨3, false, " - ", "", 0, 0⟩] :=
    ⟨by decide +kernel, List.Perm.of_eq (by decide +kernel), by decide +kernel⟩
  exact ⟨h, sortsRight_iff _ _ h .material⟩

/-- Two spools without a material can be displayed and not sorted by it. -/
theorem missing_material_ends_sort : (panelOf [bareSpool 3, bareSpool 4]).Displays (fun _ => "")
      [⟨3, false, " - ", "", 0, 0⟩, ⟨4, false, " - ", "", 0, 0⟩] ∧
    ¬ SortsRight (fun _ => "") ComparisonSort.insertionSort .material
      (panelOf [bareSpool 3, bareSpool 4])
      [⟨3, false, " - ", "", 0, 0⟩, ⟨4, false, " - ", "", 0, 0⟩] := by
  refine ⟨⟨by decide +kernel, List.Perm.of_eq (by decide +kernel), by decide +kernel⟩, ?_⟩
  rintro ⟨hdone, -⟩
  exact absurd hdone (by decide)

end PowerScreen.Spoolman
