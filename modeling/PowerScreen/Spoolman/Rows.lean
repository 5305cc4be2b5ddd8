import PowerScreen.Spoolman.Panel

/-! # What a table that is filled again shows

Row by row: what is written of a spool, over what the row held before.
-/
namespace PowerScreen.Spoolman
open Library

variable (fixed1 : ℚ → String)

/-- A row after a spool is written to it. -/
def fillRow (activeId : ℕ) (s : Spool) (r : Row) : Row
  | .id => { r .id with text := s.id.repr }
  | .name => { r .name with text := s.name }
  | .material => { r .material with text := s.material }
  | .color => { r .color with text := "" }
  | .weight => { r .weight with text := fixed1 s.remainingWeight ++ " g" }
  | .length => { r .length with text := fixed1 s.remainingLen ++ " m" }
  | .activate =>
    { text := if s.id = activeId then "(active)" else if s.archived then "" else symbolPlay
      mergeRight := s.id = activeId }
  | .archive =>
    { r .archive with
      text :=
        if s.archived then symbolUpload else if s.id ≠ activeId then symbolDrive else (r .archive).text }

theorem writeSpool_eq (activeId row : ℕ) (s : Spool) (t : Table) :
    writeSpool fixed1 activeId row s t =
      CellTable.modifyRow blank row (fillRow fixed1 activeId s) t := by
  have hwrite : ∃ f : Row → Row, writeSpool fixed1 activeId row s t =
      CellTable.modifyRow blank row f t ∧ f = fillRow fixed1 activeId s := by
    by_cases hactive : s.id = activeId <;> cases harchived : s.archived <;>
      simp only [writeSpool, setCellValue, clearCellCtrl, addCellCtrl, hactive, harchived, if_true,
        if_false, ne_eq, not_true_eq_false, not_false_eq_true, Bool.false_eq_true,
        CellTable.modifyRow_modifyRow] <;>
      refine ⟨_, rfl, ?_⟩ <;> funext r col <;> cases col <;>
      simp [fillRow, Row.setValue, Row.setMerge, Row.set, hactive, harchived]
  obtain ⟨f, hf, rfl⟩ := hwrite
  exact hf

/-- The spools that get a row. -/
def visible (skipArchive : Bool) (els : List Json) : List Spool :=
  els.filterMap fun el => (readSpool skipArchive el).join

theorem writeSpools_eq {skipArchive : Bool} {els : List Json}
    (h : ∀ el ∈ els, (readSpool skipArchive el).isSome) (activeId row : ℕ) (t : Table) :
    writeSpools fixed1 skipArchive activeId row els t =
      (CellTable.writeFrom blank row ((visible skipArchive els).map (fillRow fixed1 activeId)) t,
        some (row + (visible skipArchive els).length)) := by
  induction els generalizing row t with
  | nil => rfl
  | cons el els ih =>
    obtain ⟨o, ho⟩ := Option.isSome_iff_exists.mp (h el List.mem_cons_self)
    have hrest := ih fun el' hel' => h el' (List.mem_cons_of_mem _ hel')
    rw [writeSpools, ho, visible]
    cases o with
    | none =>
      rw [List.filterMap_cons_none (by rw [ho]; rfl)]
      exact hrest row t
    | some s =>
      rw [List.filterMap_cons_some (by rw [ho]; rfl), List.map_cons, CellTable.writeFrom,
        List.length_cons]
      dsimp only
      rw [hrest, writeSpool_eq, Nat.add_right_comm]
      rfl

theorem readSpool_isSome_of_writeSpools {skipArchive : Bool} {els : List Json} {activeId row : ℕ}
    {t : Table} (h : (writeSpools fixed1 skipArchive activeId row els t).2.isSome) :
    ∀ el ∈ els, (readSpool skipArchive el).isSome := by
  induction els generalizing row t with
  | nil => exact fun el hel => absurd hel List.not_mem_nil
  | cons el els ih =>
    rw [writeSpools] at h
    cases ho : readSpool skipArchive el with
    | none =>
      rw [ho] at h
      cases h
    | some o =>
      rw [ho] at h
      refine List.forall_mem_cons.mpr ⟨by rw [ho]; rfl, ?_⟩
      cases o with
      | none => exact ih h
      | some s => exact ih h

/-- The table when the rows of these spools are written. -/
def filled (activeId : ℕ) (ss : List Spool) (t : Table) : Table :=
  CellTable.setRowCount blank (1 + ss.length)
    (CellTable.writeFrom blank 1 (ss.map (fillRow fixed1 activeId)) (writeHeader t))

theorem populateSpools_eq {p : Panel} (hne : p.spools.members.isEmpty = false) {els : List Json}
    (h : ∀ el ∈ els, (readSpool (!p.showArchived) el).isSome) :
    p.populateSpools fixed1 els = ({ p with
      table := filled fixed1 p.activeId (visible (!p.showArchived) els) p.table }, true) := by
  rw [Panel.populateSpools, hne, writeSpools_eq fixed1 h]
  rfl

/-- The table is filled to its end when every spool can be read. -/
theorem populateSpools_done_iff {p : Panel} (hne : p.spools.members.isEmpty = false)
    (els : List Json) : (p.populateSpools fixed1 els).2 = true ↔
      ∀ el ∈ els, (readSpool (!p.showArchived) el).isSome := by
  constructor
  · intro hdone
    have hwritten :
        (writeSpools fixed1 (!p.showArchived) p.activeId 1 els (writeHeader p.table)).2.isSome := by
      rw [Panel.populateSpools, hne] at hdone
      dsimp only at hdone
      by_contra hnone
      rw [Option.not_isSome_iff_eq_none] at hnone
      rw [hnone] at hdone
      cases hdone
    exact readSpool_isSome_of_writeSpools fixed1 hwritten
  · intro h
    rw [populateSpools_eq fixed1 hne h]

theorem getD_writeHeader (j : ℕ) (t : Table) :
    (writeHeader t).getD (j + 1) blank = t.getD (j + 1) blank := by
  simp only [writeHeader, setCellValue, CellTable.getD_modifyRow, if_neg (Nat.succ_ne_zero j)]

theorem length_filled (activeId : ℕ) (ss : List Spool) (t : Table) :
    (filled fixed1 activeId ss t).length = ss.length + 1 := by
  rw [filled, CellTable.length_setRowCount, Nat.add_comm]

/-- The row of a spool: what is written over what stood there. -/
theorem getD_filled (activeId : ℕ) {ss : List Spool} (t : Table) {i : ℕ} (hi : i < ss.length) :
    (filled fixed1 activeId ss t).getD (i + 1) blank =
      fillRow fixed1 activeId (ss.get ⟨i, hi⟩) (t.getD (i + 1) blank) := by
  rw [filled, CellTable.getD_setRowCount blank (by omega), CellTable.getD_writeFrom,
    if_pos (by omega), Nat.add_sub_cancel, getD_writeHeader, List.getD_eq_getElem _ _ (by simpa),
    List.getElem_map]
  rfl

/-- All rows behind the header, whatever is looked at of them. -/
theorem map_tail_filled {β : Type*} (f : Row → β) (g : Spool → β) {activeId : ℕ} {ss : List Spool}
    {t : Table} (h : ∀ i s, ss[i]? = some s →
      f (fillRow fixed1 activeId s (t.getD (i + 1) blank)) = g s) :
    (filled fixed1 activeId ss t).tail.map f = ss.map g := by
  refine List.ext_getElem ?_ fun i hi hi' => ?_
  · rw [List.length_map, List.length_tail, length_filled, List.length_map, Nat.add_sub_cancel]
  · have hlt : i < ss.length := by simpa using hi'
    have hrow := getD_filled fixed1 activeId t hlt
    rw [List.getD_eq_getElem _ _ (by rw [length_filled]; omega)] at hrow
    rw [List.getElem_map, List.getElem_tail, hrow, List.getElem_map]
    exact h i _ (List.getElem?_eq_getElem hlt)

end PowerScreen.Spoolman
