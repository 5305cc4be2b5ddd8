import PowerScreen.Library.Run
import PowerScreen.Spoolman.Sorts

/-! # The actions in the rows

Each row should show what can be done with its spool. An empty list and a report that no spool is
active leave the table as it is, and the last cell of the active spool keeps what stood there.
-/
namespace PowerScreen.Spoolman
open Library Library.Run

variable (fixed1 : ℚ → String) (S : ComparisonSort.StdSort)

/-- The row of a spool, for the active spool that was reported last. -/
def ownRow (active : Option ℕ) (s : Spool) : Row
  | .id => { text := s.id.repr }
  | .name => { text := s.name }
  | .material => { text := s.material }
  | .color => {}
  | .weight => { text := fixed1 s.remainingWeight ++ " g" }
  | .length => { text := fixed1 s.remainingLen ++ " m" }
  | .activate =>
    { text := if active = some s.id then "(active)" else if s.archived then "" else symbolPlay
      mergeRight := active = some s.id }
  | .archive =>
    { text := if s.archived then symbolUpload else if active = some s.id then "" else symbolDrive }

/-- Spools as they are sent: objects with an id whose fields have their types or are missing. -/
structure SpoolList where
  els : List Json
  hasId : ∀ el ∈ els, el.contains "id"
  readable : ∀ el ∈ els, (readSpool false el).isSome

inductive Event where
  | list (l : SpoolList)
  /-- `none` is a report of null. -/
  | active (v : Option ℤ)
  | header (c : Column)
  | showArchived

/-- The panel, the spools of the last list and the active spool of the last report. -/
structure Session where
  panel : Panel
  reported : Spools
  active : Option ℕ

def Session.start : Session := ⟨Panel.new, Spools.empty, none⟩

def idJson : Option ℤ → Json
  | none => .null
  | some z => .num (.int z)

def step (s : Session) : Event → Session
  | .list l =>
    { s with
      panel := (s.panel.handleSpools fixed1 S (spoolsReply l.els)).1
      reported := (Spools.empty.addAll l.els).1 }
  | .active v =>
    { s with
      panel := (s.panel.handleActiveId fixed1 S (idJson v)).1
      active := v.map fun z => (z % 2 ^ 32).toNat }
  | .header c => { s with panel := (s.panel.handleHeader fixed1 S c).1 }
  | .showArchived => { s with panel := (s.panel.handleShowArchived fixed1 S).1 }

/-- Every row belongs to one spool of the last list that is not hidden, and shows it and its
actions. -/
def Own (s : Session) : Prop := ∃ ss : List Spool, (ss.map Spool.id).Nodup ∧
  (∀ sp ∈ ss, ∃ el ∈ s.reported.values, readSpool (!s.panel.showArchived) el = some (some sp)) ∧
  s.panel.table.tail = ss.map (ownRow fixed1 s.active)

/-- What is put into the rows are spools of the last list; the panel knows which of them is active,
and the last cell is empty in the row that the active one gets, unless it is archived. -/
def Fits (s : Session) (sortedSpools : List Json) : Prop :=
  s.panel.spools.members.isEmpty = false → ∀ i sp,
    (visible (!s.panel.showArchived) sortedSpools)[i]? = some sp →
      (∃ el ∈ s.reported.values, readSpool (!s.panel.showArchived) el = some (some sp)) ∧
      (sp.id = s.panel.activeId ↔ s.active = some sp.id) ∧
      (sp.id = s.panel.activeId → sp.archived = false →
        (s.panel.table.getD (i + 1) blank .archive).text = "")

/-- The order that the table is filled in unless a header is clicked. -/
def byId : Json → Json → Option Bool := ComparisonSort.byKey readId

/-- An empty list comes while there are no rows, a report of null while no row is marked as active,
and everything that fills the table fits. -/
def Fitting (s : Session) : Event → Prop
  | .list l =>
    if l.els = [] then s.panel.table.tail = []
    else
      let spools := (Spools.empty.addAll l.els).1
      ∀ ys, S.sort byId spools.values = some ys →
        Fits { s with panel := { s.panel with spools := spools }, reported := spools } ys
  | .active none => ∀ row ∈ s.panel.table.tail, (row .activate).text ≠ "(active)"
  | .active (some z) =>
    let id := (z % 2 ^ 32).toNat
    ∀ ys, S.sort byId s.panel.spools.values = some ys →
      Fits { s with panel := { s.panel with activeId := id }, active := some id } ys
  | .header c => ∀ ys, S.sort (c.compare (s.panel.reversed c)) s.panel.spools.values = some ys →
      Fits s ys
  | .showArchived => ∀ ys, S.sort byId s.panel.spools.values = some ys →
      Fits { s with panel := { s.panel with showArchived := !s.panel.showArchived } } ys

/-- What is known at any time. -/
structure Known (s : Session) : Prop where
  reported : s.reported = s.panel.spools ∨ s.reported.members = []
  readable : ∀ el ∈ s.panel.spools.values, (readSpool false el).isSome

/-- Only the cell of the activation is ever merged. -/
def Unmerged (t : Table) : Prop :=
  ∀ i (col : TableColumn), col ≠ .activate → (t.getD (i + 1) blank col).mergeRight = false

theorem repr_injective {n m : ℕ} (h : n.repr = m.repr) : n = m := by
  have hdigits := congrArg (fun s => Nat.ofDigitChars 10 (String.toList s) 0) h
  simpa only [Nat.toList_repr, Nat.ofDigitChars_ten_toDigits] using hdigits

/-- When the row that is written is the spool's own. -/
theorem fillRow_eq_ownRow_iff {activeId : ℕ} {active : Option ℕ} {s : Spool} {r : Row}
    (hmerge : ∀ col : TableColumn, col ≠ .activate → (r col).mergeRight = false) :
    fillRow fixed1 activeId s r = ownRow fixed1 active s ↔
      (s.id = activeId ↔ active = some s.id) ∧
        (s.id = activeId → s.archived = false → (r .archive).text = "") := by
  constructor
  · intro h
    have hactive : s.id = activeId ↔ active = some s.id :=
      decide_eq_decide.mp (congrArg Cell.mergeRight (congrFun h .activate))
    refine ⟨hactive, fun hid harchived => ?_⟩
    have htext := congrArg Cell.text (congrFun h .archive)
    simpa [fillRow, ownRow, hid, harchived, hactive.mp hid] using htext
  · rintro ⟨hactive, hstale⟩
    funext col
    have hcell (text : String) (col : TableColumn) (hcol : col ≠ .activate) :
        ({ r col with text := text } : Cell) = { text := text } :=
      congrArg (Cell.mk text) (hmerge col hcol)
    cases col with
    | id => exact hcell _ .id TableColumn.noConfusion
    | name => exact hcell _ .name TableColumn.noConfusion
    | material => exact hcell _ .material TableColumn.noConfusion
    | color => exact hcell _ .color TableColumn.noConfusion
    | weight => exact hcell _ .weight TableColumn.noConfusion
    | length => exact hcell _ .length TableColumn.noConfusion
    | activate => simp only [fillRow, ownRow, hactive]
    | archive =>
      refine (hcell _ .archive TableColumn.noConfusion).trans ?_
      by_cases hid : s.id = activeId
      · cases harchived : s.archived with
        | true => simp [ownRow, harchived]
        | false => simp [ownRow, harchived, hid, hactive.mp hid, hstale hid harchived]
      · simp [ownRow, hid, mt hactive.mpr hid]

/-- A row that is some spool's own is that of the spool that was written. -/
theorem id_of_fillRow_eq {activeId : ℕ} {active : Option ℕ} {s s' : Spool} {r : Row}
    (h : fillRow fixed1 activeId s r = ownRow fixed1 active s') : s.id = s'.id :=
  repr_injective (congrArg Cell.text (congrFun h .id))

theorem getD_succ (t : Table) (i : ℕ) : t.getD (i + 1) blank = t.tail.getD i blank := by
  rw [List.getD_eq_getElem?_getD, List.getD_eq_getElem?_getD, List.getElem?_tail]

theorem unmerged_of_own {s : Session} (h : Own fixed1 s) : Unmerged s.panel.table := by
  obtain ⟨ss, -, -, hrows⟩ := h
  intro i col hcol
  rw [getD_succ, hrows, List.getD_eq_getElem?_getD, List.getElem?_map]
  cases ss[i]? with
  | none => rfl
  | some sp => cases col <;> first | rfl | exact absurd rfl hcol

theorem readId_of_readSpool {skipArchive : Bool} {el : Json} {s : Spool}
    (h : readSpool skipArchive el = some (some s)) : readId el = some s.id :=
  (fields_of_readSpool h).1

/-- An element that can be read can be read or skipped. -/
theorem readSpool_isSome_of_false {el : Json} (h : (readSpool false el).isSome)
    (skipArchive : Bool) : (readSpool skipArchive el).isSome := by
  cases skipArchive with
  | false => exact h
  | true =>
    obtain ⟨o, ho⟩ := Option.isSome_iff_exists.mp h
    obtain ⟨archived, harchived, hrest⟩ := Option.bind_eq_some_iff.mp ho
    cases archived with
    | true =>
      have hskip : readSpool true el = some none := by
        rw [readSpool, harchived]
        rfl
      rw [hskip]
      rfl
    | false =>
      have hsame : readSpool true el = some o := by
        rw [readSpool, harchived]
        exact hrest
      rw [hsame]
      rfl

/-- Two elements of the map with the same id are the same. -/
theorem eq_of_readId {s : Spools} {el el' : Json} (h : el ∈ s.values) (h' : el' ∈ s.values)
    (hid : readId el = readId el') : el = el' := by
  obtain ⟨m, hm, rfl⟩ := List.mem_map.mp h
  obtain ⟨m', hm', rfl⟩ := List.mem_map.mp h'
  have hkey : m.1 = m'.1 := by
    rw [s.ids m hm, s.ids m' hm', Option.some_inj] at hid
    exact hid
  have hlookup := Assoc.lookup_of_mem s.sorted (k := m.1) (v := m.2) hm
  rw [hkey, Assoc.lookup_of_mem s.sorted (k := m'.1) (v := m'.2) hm', Option.some_inj] at hlookup
  exact hlookup.symm

theorem mem_visible {skipArchive : Bool} {els : List Json} {sp : Spool} :
    sp ∈ visible skipArchive els ↔ ∃ el ∈ els, readSpool skipArchive el = some (some sp) := by
  rw [visible, List.mem_filterMap]
  simp only [Option.join_eq_some_iff]

/-- The ids in the rows differ. -/
theorem nodup_ids_visible {s : Spools} {els : List Json} (hperm : els.Perm s.values)
    (skipArchive : Bool) : ((visible skipArchive els).map Spool.id).Nodup := by
  have hids : (s.values.map readId).Nodup := by
    have hmap : s.values.map readId = s.members.map fun m => some m.1 := by
      rw [Spools.values, List.map_map]
      exact List.map_congr_left fun m hm => s.ids m hm
    have hsome : (s.members.map fun m => some m.1) = (s.members.map Prod.fst).map some := by
      rw [List.map_map]
      rfl
    rw [hmap, hsome]
    exact s.sorted.nodup.map (Option.some_injective ℕ)
  have hels : els.Pairwise fun a b => readId a ≠ readId b :=
    List.pairwise_map.mp ((hperm.map readId).nodup_iff.mpr hids)
  rw [List.Nodup, List.pairwise_map, visible, List.pairwise_filterMap]
  refine hels.imp fun {a b} hab sp hsp sp' hsp' heq => ?_
  rw [Option.join_eq_some_iff] at hsp hsp'
  exact hab ((readId_of_readSpool hsp).trans (heq ▸ (readId_of_readSpool hsp').symm))

/-- Filling the table gives every spool its own row iff all of it fits. -/
theorem own_populateSpools_iff {s : Session} (hknown : Known s) (hmerge : Unmerged s.panel.table)
    (hne : s.panel.spools.members.isEmpty = false) {els : List Json}
    (hperm : els.Perm s.panel.spools.values) :
    Own fixed1 { s with panel := (s.panel.populateSpools fixed1 els).1 } ↔ Fits s els := by
  have hread : ∀ el ∈ els, (readSpool (!s.panel.showArchived) el).isSome := fun el hel =>
    readSpool_isSome_of_false (hknown.readable el (hperm.mem_iff.mp hel)) _
  rw [populateSpools_eq fixed1 hne hread, Own, Fits]
  constructor
  · rintro ⟨ss, -, hfrom, hrows⟩ - i sp hsp
    have hi : i < (visible (!s.panel.showArchived) els).length := (List.getElem?_eq_some_iff.mp hsp).1
    have hget : (visible (!s.panel.showArchived) els).get ⟨i, hi⟩ = sp :=
      (List.getElem?_eq_some_iff.mp hsp).2
    have hlength := congrArg List.length hrows
    rw [List.length_tail, length_filled, List.length_map, Nat.add_sub_cancel] at hlength
    -- the row of `sp` is that of a spool of the list, which can only be `sp`
    have hrow := getD_filled fixed1 s.panel.activeId s.panel.table hi
    rw [hget, getD_succ, hrows, List.getD_eq_getElem _ _ (by rw [List.length_map]; omega),
      List.getElem_map] at hrow
    obtain ⟨el', hel', hread'⟩ := hfrom _ (List.get_mem ss ⟨i, by omega⟩)
    obtain ⟨el, hel, hread⟩ := mem_visible.mp (List.mem_of_getElem? hsp)
    have hsame : ss.get ⟨i, by omega⟩ = sp := by
      rcases hknown.reported with hreported | hempty
      · have hid : readId el' = readId el := by
          rw [readId_of_readSpool hread', readId_of_readSpool hread]
          exact congrArg some (id_of_fillRow_eq fixed1 hrow.symm).symm
        have heq := eq_of_readId (hreported ▸ hel') (hperm.mem_iff.mp hel) hid
        rw [heq, hread, Option.some_inj, Option.some_inj] at hread'
        exact hread'.symm
      · have hnil : s.reported.values = [] := congrArg (List.map Prod.snd) hempty
        rw [hnil] at hel'
        cases hel'
    rw [← hsame]
    refine ⟨⟨el', hel', hread'⟩, (fillRow_eq_ownRow_iff fixed1 (hmerge i)).mp ?_⟩
    rw [hsame, ← hrow]
    exact congrArg (ownRow fixed1 s.active) hsame
  · intro hfits
    refine ⟨visible (!s.panel.showArchived) els, nodup_ids_visible hperm _, fun sp hsp => ?_, ?_⟩
    · obtain ⟨i, hi⟩ := List.getElem?_of_mem hsp
      exact (hfits hne i sp hi).1
    · have hrows := map_tail_filled fixed1 id (ownRow fixed1 s.active) fun i sp hi =>
        (fillRow_eq_ownRow_iff fixed1 (hmerge i)).mpr (hfits hne i sp hi).2
      rwa [List.map_id] at hrows

theorem spools_populateSpools (p : Panel) (els : List Json) :
    (p.populateSpools fixed1 els).1.spools = p.spools := by
  rw [Panel.populateSpools]
  split_ifs
  · rfl
  · dsimp only
    cases (writeSpools fixed1 (!p.showArchived) p.activeId 1 els (writeHeader p.table)).2 <;> rfl

theorem spools_resort (p : Panel) (lt : Json → Json → Option Bool) (sortedBy : ℕ) :
    (p.resort fixed1 S lt sortedBy).1.spools = p.spools := by
  rw [Panel.resort]
  cases S.sort lt p.spools.values with
  | none => rfl
  | some ys => exact spools_populateSpools fixed1 { p with sortedBy := sortedBy } ys

theorem addAll_done {els : List Json} (hid : ∀ el ∈ els, el.contains "id")
    (hread : ∀ el ∈ els, (readId el).isSome) (s : Spools) : (s.addAll els).2 = true := by
  induction els generalizing s with
  | nil => rfl
  | cons el els ih =>
    obtain ⟨id, hel⟩ := Option.isSome_iff_exists.mp (hread el List.mem_cons_self)
    have hrest := ih (fun el' h => hid el' (List.mem_cons_of_mem _ h))
      fun el' h => hread el' (List.mem_cons_of_mem _ h)
    rw [Spools.addAll, if_pos (hid el List.mem_cons_self)]
    split
    · next hnone =>
      rw [hel] at hnone
      cases hnone
    · exact hrest _

/-- The spools in the map come from the list. -/
theorem mem_of_mem_addAll {els : List Json} {s : Spools} {v : Json}
    (h : v ∈ (s.addAll els).1.values) : v ∈ els ∨ v ∈ s.values := by
  induction els generalizing s with
  | nil => exact .inr h
  | cons el els ih =>
    rw [Spools.addAll] at h
    split at h
    · split at h
      · exact .inr h
      · next id hid =>
        rcases ih h with hin | hin
        · exact .inl (List.mem_cons_of_mem _ hin)
        · obtain ⟨m, hm, rfl⟩ := List.mem_map.mp hin
          rcases Assoc.mem_insertNew hm with rfl | hm
          · exact .inl List.mem_cons_self
          · exact .inr (List.mem_map_of_mem hm)
    · exact (ih h).imp_left (List.mem_cons_of_mem _)

theorem lookup_addAll_isSome {els : List Json} {s : Spools} {k : ℕ}
    (h : (s.members.lookup k).isSome) : ((s.addAll els).1.members.lookup k).isSome := by
  induction els generalizing s with
  | nil => exact h
  | cons el els ih =>
    rw [Spools.addAll]
    split
    · split
      · exact h
      · refine ih ?_
        rw [Spools.insertNew, Assoc.lookup_insertNew, Option.isSome_or, h, Bool.true_or]
    · exact ih h

/-- The spools of a list that is not empty. -/
theorem addAll_nonempty {els : List Json} (hne : els ≠ []) (hid : ∀ el ∈ els, el.contains "id")
    (hread : ∀ el ∈ els, (readId el).isSome) (s : Spools) :
    (s.addAll els).1.members.isEmpty = false := by
  obtain ⟨el, els, rfl⟩ := List.exists_cons_of_ne_nil hne
  obtain ⟨id, hel⟩ := Option.isSome_iff_exists.mp (hread el List.mem_cons_self)
  have hlookup : (((s.addAll (el :: els)).1.members).lookup id).isSome := by
    rw [Spools.addAll, if_pos (hid el List.mem_cons_self)]
    split
    · next hnone =>
      rw [hel] at hnone
      cases hnone
    · next id' hid' =>
      obtain rfl : id = id' := Option.some_inj.mp (hel.symm.trans hid')
      refine lookup_addAll_isSome ?_
      rw [Spools.insertNew, Assoc.lookup_insertNew, if_pos rfl, Option.isSome_or, Option.isSome_some,
        Bool.or_true]
  cases hmembers : (s.addAll (el :: els)).1.members with
  | nil =>
    rw [hmembers] at hlookup
    cases hlookup
  | cons m ms => rfl

theorem readId_isSome_of_readSpool {el : Json} (h : (readSpool false el).isSome) :
    (readId el).isSome := by
  obtain ⟨o, ho⟩ := Option.isSome_iff_exists.mp h
  obtain ⟨archived, -, hrest⟩ := Option.bind_eq_some_iff.mp ho
  obtain ⟨id, hid, -⟩ := Option.bind_eq_some_iff.mp hrest
  rw [hid]
  rfl

theorem sort_byId (s : Spools) : ∃ ys, S.sort byId s.values = some ys ∧ ys.Perm s.values := by
  have hall : ∀ el ∈ s.values, (readId el).isSome := by
    intro el hel
    obtain ⟨m, hm, rfl⟩ := List.mem_map.mp hel
    rw [s.ids m hm]
    rfl
  obtain ⟨ys, hys, hperm, -⟩ := ComparisonSort.sort_of_forall S hall
  exact ⟨ys, hys, hperm⟩

theorem own_of_no_rows {s : Session} (h : s.panel.table.tail = []) : Own fixed1 s :=
  ⟨[], List.nodup_nil, fun _ hsp => absurd hsp List.not_mem_nil, h⟩

/-- Without spools there are no rows. -/
theorem no_rows_of_own {s : Session} (h : Own fixed1 s) (hempty : s.reported.members = []) :
    s.panel.table.tail = [] := by
  obtain ⟨ss, -, hfrom, hrows⟩ := h
  have hnil : ss = [] := List.eq_nil_iff_forall_not_mem.mpr fun sp hsp => by
    obtain ⟨el, hel, -⟩ := hfrom sp hsp
    rw [Spools.values, hempty] at hel
    cases hel
  rw [hrows, hnil, List.map_nil]

theorem reported_of_empty {s : Session} (h : Known s) (hempty : s.panel.spools.members = []) :
    s.reported.members = [] := h.reported.elim (fun heq => heq ▸ hempty) id

/-- What a sort and the filling after it make of a panel that is up to date otherwise. -/
theorem own_resort_iff {s : Session} (hknown : Known s) (hmerge : Unmerged s.panel.table)
    {lt : Json → Json → Option Bool} (sortedBy : ℕ)
    (hperm : ∀ ys, S.sort lt s.panel.spools.values = some ys → ys.Perm s.panel.spools.values)
    (hkeep : S.sort lt s.panel.spools.values = none ∨ s.panel.spools.members.isEmpty = true →
      Own fixed1 s) :
    Own fixed1 { s with panel := (s.panel.resort fixed1 S lt sortedBy).1 } ↔
      ∀ ys, S.sort lt s.panel.spools.values = some ys → Fits s ys := by
  rw [Panel.resort]
  cases hsort : S.sort lt s.panel.spools.values with
  | none => exact iff_of_true (hkeep (.inl hsort)) fun ys hys => by cases hys
  | some ys =>
    have hfits : (∀ zs, some ys = some zs → Fits s zs) ↔ Fits s ys :=
      ⟨fun h => h ys rfl, fun h zs hzs => Option.some_inj.mp hzs ▸ h⟩
    rw [hfits]
    cases hempty : s.panel.spools.members.isEmpty with
    | true =>
      have hsame : (({ s.panel with sortedBy := sortedBy } : Panel).populateSpools fixed1 ys).1 =
          { s.panel with sortedBy := sortedBy } := by
        rw [Panel.populateSpools, if_pos hempty]
      dsimp only
      rw [hsame]
      refine iff_of_true (hkeep (.inr hempty)) fun hne => ?_
      rw [hempty] at hne
      cases hne
    | false =>
      exact own_populateSpools_iff fixed1
        (s := { s with panel := { s.panel with sortedBy := sortedBy } })
        ⟨hknown.reported, hknown.readable⟩ hmerge hempty (hperm ys hsort)

theorem perm_of_sort_byId {xs ys : List Json} (h : S.sort byId xs = some ys) : ys.Perm xs :=
  (ComparisonSort.sort_spec S h).1

/-- The sort by id does not fail, so only a panel without spools keeps its rows. -/
theorem own_resortById_iff {s : Session} (hknown : Known s) (hmerge : Unmerged s.panel.table)
    (hkeep : s.panel.spools.members.isEmpty = true → Own fixed1 s) :
    Own fixed1 { s with panel := (s.panel.resortById fixed1 S).1 } ↔
      ∀ ys, S.sort byId s.panel.spools.values = some ys → Fits s ys := by
  refine own_resort_iff fixed1 S hknown hmerge _ (fun ys => perm_of_sort_byId S) ?_
  rintro (hnone | hempty)
  · obtain ⟨ys, hys, -⟩ := sort_byId S s.panel.spools
    cases hys.symm.trans hnone
  · exact hkeep hempty

theorem handleSpools_of_ne {l : SpoolList} (hne : l.els ≠ []) (p : Panel) :
    p.handleSpools fixed1 S (spoolsReply l.els) =
      { p with spools := (Spools.empty.addAll l.els).1 }.resortById fixed1 S := by
  have hdone : (Spools.empty.addAll l.els).2 = true :=
    addAll_done l.hasId (fun el hel => readId_isSome_of_readSpool (l.readable el hel)) _
  have hresult : (spoolsReply l.els).get "result" = .arr l.els := rfl
  have hsome : (Json.arr l.els).isEmpty = false := by
    rw [Json.isEmpty]
    exact List.isEmpty_eq_false_iff.mpr hne
  rw [Panel.handleSpools, hresult, hsome]
  exact if_pos hdone

theorem handleActiveId_some (z : ℤ) (p : Panel) :
    p.handleActiveId fixed1 S (idJson (some z)) =
      { p with activeId := (z % 2 ^ 32).toNat }.resortById fixed1 S := by
  rw [Panel.handleActiveId, idJson, if_neg Json.noConfusion]
  rfl

theorem known_start : Known Session.start := ⟨.inl rfl, fun _ h => absurd h List.not_mem_nil⟩

theorem known_step (s : Session) (e : Event) (h : Known s) : Known (step fixed1 S s e) := by
  cases e with
  | list l =>
    by_cases hnil : l.els = []
    · have hpanel : s.panel.handleSpools fixed1 S (spoolsReply l.els) = (s.panel, true) := by
        rw [hnil]
        rfl
      rw [step, hpanel, hnil]
      exact ⟨.inr rfl, h.readable⟩
    · rw [step, handleSpools_of_ne fixed1 S hnil]
      have hspools : ({ s.panel with spools := (Spools.empty.addAll l.els).1 }.resortById fixed1
          S).1.spools = (Spools.empty.addAll l.els).1 :=
        spools_resort fixed1 S { s.panel with spools := (Spools.empty.addAll l.els).1 } byId
          Column.id.bit
      refine ⟨.inl hspools.symm, fun el hel => ?_⟩
      dsimp only at hel
      rw [hspools] at hel
      exact (mem_of_mem_addAll hel).elim (l.readable el) fun h => absurd h List.not_mem_nil
  | active v =>
    have hspools : (s.panel.handleActiveId fixed1 S (idJson v)).1.spools = s.panel.spools := by
      cases v with
      | none => rfl
      | some z =>
        rw [handleActiveId_some]
        exact spools_resort fixed1 S { s.panel with activeId := _ } byId Column.id.bit
    exact ⟨by rw [step, hspools]; exact h.reported, by rw [step, hspools]; exact h.readable⟩
  | header c =>
    have hspools := spools_resort fixed1 S s.panel (c.compare (s.panel.reversed c))
      ((s.panel.sortedBy ^^^ c.bit) &&& c.bit)
    exact ⟨hspools ▸ h.reported, hspools ▸ h.readable⟩
  | showArchived =>
    have hspools := spools_resort fixed1 S
      { s.panel with showArchived := !s.panel.showArchived } byId Column.id.bit
    exact ⟨hspools ▸ h.reported, hspools ▸ h.readable⟩

/-- A report of null leaves the rows, which are right if none is marked. -/
theorem own_null_iff {s : Session} (h : Own fixed1 s) :
    Own fixed1 { s with active := none } ↔
      ∀ row ∈ s.panel.table.tail, (row .activate).text ≠ "(active)" := by
  constructor
  · rintro ⟨ss, -, -, hrows⟩ row hrow
    rw [hrows] at hrow
    obtain ⟨sp, -, rfl⟩ := List.mem_map.mp hrow
    cases harchived : sp.archived <;> simp [ownRow, harchived, symbolPlay]
  · intro hnone
    obtain ⟨ss, hnodup, hfrom, hrows⟩ := h
    refine ⟨ss, hnodup, hfrom, hrows.trans (List.map_congr_left fun sp hsp => ?_)⟩
    have hrow := hnone _ (hrows ▸ List.mem_map_of_mem hsp)
    have hactive : s.active ≠ some sp.id := fun hid => hrow (by simp [ownRow, hid])
    funext col
    cases col <;> simp [ownRow, hactive]

theorem own_step_iff {s : Session} (e : Event) (hknown : Known s) (h : Own fixed1 s) :
    Own fixed1 (step fixed1 S s e) ↔ Fitting S s e := by
  have hmerge := unmerged_of_own fixed1 h
  have hempty (hspools : s.panel.spools.members.isEmpty = true) : s.panel.table.tail = [] :=
    no_rows_of_own fixed1 h (reported_of_empty hknown (List.isEmpty_iff.mp hspools))
  cases e with
  | list l =>
    rw [Fitting]
    split_ifs with hnil
    · have hstep : step fixed1 S s (.list l) = { s with reported := Spools.empty } := by
        rw [step, hnil]
        rfl
      rw [hstep]
      exact ⟨fun hown => no_rows_of_own fixed1 (s := { s with reported := Spools.empty }) hown rfl,
        fun hrows => own_of_no_rows fixed1 (s := { s with reported := Spools.empty }) hrows⟩
    · rw [step, handleSpools_of_ne fixed1 S hnil]
      have hread : ∀ el ∈ (Spools.empty.addAll l.els).1.values, (readSpool false el).isSome :=
        fun el hel => (mem_of_mem_addAll hel).elim (l.readable el) fun h =>
          absurd h List.not_mem_nil
      have hne := addAll_nonempty hnil l.hasId
        (fun el hel => readId_isSome_of_readSpool (l.readable el hel)) Spools.empty
      refine own_resortById_iff fixed1 S (s := { s with
        panel := { s.panel with spools := (Spools.empty.addAll l.els).1 }
        reported := (Spools.empty.addAll l.els).1 }) ⟨.inl rfl, hread⟩ hmerge fun hspools => ?_
      exact absurd (hne.symm.trans hspools) (by decide)
  | active v =>
    cases v with
    | none => exact own_null_iff fixed1 h
    | some z =>
      rw [step, handleActiveId_some, Fitting, Option.map_some]
      generalize (z % 2 ^ 32).toNat = id
      exact own_resortById_iff fixed1 S (s := { s with
        panel := { s.panel with activeId := id }
        active := some id }) ⟨hknown.reported, hknown.readable⟩ hmerge
        fun hspools => own_of_no_rows fixed1 (hempty hspools)
  | header c =>
    exact own_resort_iff fixed1 S hknown hmerge _ (fun ys hys => (sort_column_spec S hys false).1)
      fun _ => h
  | showArchived =>
    exact own_resortById_iff fixed1 S (s := { s with
      panel := { s.panel with showArchived := !s.panel.showArchived } })
      ⟨hknown.reported, hknown.readable⟩ hmerge
      fun hspools => own_of_no_rows fixed1 (hempty hspools)

/-- For every sequence of lists, reports, sorts and changes of the filter. -/
theorem actions_own_iff (es : List Event) :
    Throughout (step fixed1 S) (Own fixed1) Session.start es ↔
      EachStep (step fixed1 S) (Fitting S) Session.start es :=
  throughout_iff_eachStep_of (fun _ e hknown h => own_step_iff fixed1 S e hknown h)
    (own_of_no_rows fixed1 rfl) (eachStep_of_invariant (known_step fixed1 S) known_start es)

def bareList (ids : List ℤ) : SpoolList where
  els := ids.map bareSpool
  hasId el hel := by
    obtain ⟨id, -, rfl⟩ := List.mem_map.mp hel
    rfl
  readable el hel := by
    obtain ⟨id, -, rfl⟩ := List.mem_map.mp hel
    rfl

/-- The spool that becomes active can still be archived. -/
theorem active_spool_keeps_archive : ¬ Own (fun _ => "") (run (step (fun _ => "")
    ComparisonSort.insertionSort) Session.start [.list (bareList [3]), .active (some 3)]) := by
  rintro ⟨ss, -, -, hrows⟩
  have hcells := congrArg (List.map fun r : Row => ((r .archive).text, (r .activate).mergeRight)) hrows
  rw [List.map_map] at hcells
  have htable : ((run (step (fun _ => "") ComparisonSort.insertionSort) Session.start
      [.list (bareList [3]), .active (some 3)]).panel.table.tail.map fun r =>
        ((r .archive).text, (r .activate).mergeRight)) = [(symbolDrive, true)] := by decide
  obtain ⟨sp, -, hsp⟩ := List.map_eq_singleton_iff.mp (hcells.symm.trans htable)
  obtain ⟨htext, hmerge⟩ := Prod.mk.inj hsp
  have hactive := of_decide_eq_true hmerge
  simp only [ownRow, hactive, if_true] at htext
  have hdrive : symbolUpload ≠ symbolDrive ∧ "" ≠ symbolDrive := by decide
  split_ifs at htext
  · exact hdrive.1 htext
  · exact hdrive.2 htext

end PowerScreen.Spoolman
