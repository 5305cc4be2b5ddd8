import PowerScreen.Library.Hull
import PowerScreen.ExcludeObject.Flags

/-! # The boxes of the objects

The box of an object is the interval its points span in the plane. The center counts for an
object without points only.
-/
namespace PowerScreen.ExcludeObject
open Library Library.Hull

def Object.box (ob : Object) : Box := ⟨ob.x0, ob.y0, ob.x1, ob.y1⟩

/-- The lower left corner and the upper right one. -/
def Box.corners (b : Box) : (ℚ × ℚ) × (ℚ × ℚ) := ((b.x0, b.y0), (b.x1, b.y1))

/-- The rectangle of a box on the bed. -/
def Box.region (b : Box) : Set (ℚ × ℚ) :=
  {pt | (b.x0 ≤ pt.1 ∧ pt.1 ≤ b.x1) ∧ b.y0 ≤ pt.2 ∧ pt.2 ≤ b.y1}

def polygon (o : Json) : List Json :=
  match o.get "polygon" with
  | .arr pts => pts
  | _ => []

/-- The well-formed points of an object. -/
def points (o : Json) : Set (ℚ × ℚ) := {pt | ∃ j ∈ polygon o, point? j = some pt}

/-- What the box of an object is. -/
structure Boxed (o : Json) (b : Box) : Prop where
  smallest : (points o).Nonempty →
    points o ⊆ b.region ∧ ∀ c : Box, points o ⊆ c.region → b.region ⊆ c.region
  square : points o = ∅ → ∀ cx cy rest, o.get "center" = .arr (.num cx :: .num cy :: rest) →
    b = ⟨cx.toRat - 4, cy.toRat - 4, cx.toRat + 4, cy.toRat + 4⟩
  ordered : b.x0 ≤ b.x1 ∧ b.y0 ≤ b.y1

theorem region_eq (b : Box) : b.region = Set.Icc b.corners.1 b.corners.2 := by
  ext pt
  exact and_and_and_comm

theorem corners_injective {b c : Box} (h : b.corners = c.corners) : b = c := by
  obtain ⟨x0, y0, x1, y1⟩ := b
  simp only [Box.corners, Prod.mk.injEq] at h
  obtain ⟨⟨rfl, rfl⟩, rfl, rfl⟩ := h
  rfl

/-- The fold over the points computes the interval that they span. -/
theorem corners_foldl (l : List (ℚ × ℚ)) :
    (l.foldl Box.extend none).map Box.corners = hull l := by
  have hstep (b : Option Box) (pt : ℚ × ℚ) :
      (Box.extend b pt).map Box.corners = extend (b.map Box.corners) pt := by
    cases b <;> rfl
  rw [hull]
  exact (List.foldl_hom (Option.map Box.corners) (fun b pt => (hstep b pt).symm)).symm

theorem polygonBox_eq (o : Json) :
    polygonBox o = ((polygon o).filterMap point?).foldl Box.extend none := by
  rw [polygonBox, polygon]
  cases o.get "polygon" <;> rfl

theorem points_eq (o : Json) : points o = {pt | pt ∈ (polygon o).filterMap point?} := by
  ext pt
  exact List.mem_filterMap.symm

/-- Either there is no point and no box of the polygon, or it is the box that the points span. -/
theorem polygonBox_spec (o : Json) : (points o = ∅ ∧ polygonBox o = none) ∨
    (points o).Nonempty ∧ ∃ b, polygonBox o = some b ∧ IsHull (points o) b.corners := by
  have hmap : (polygonBox o).map Box.corners = hull ((polygon o).filterMap point?) := by
    rw [polygonBox_eq, corners_foldl]
  rw [points_eq]
  rcases hull_spec ((polygon o).filterMap point?) with ⟨hnil, hnone⟩ | ⟨hne, i, hi, hhull⟩
  · rw [hnone, Option.map_eq_none_iff] at hmap
    exact .inl ⟨by simp [hnil], hmap⟩
  · rw [hi] at hmap
    obtain ⟨b, hb, rfl⟩ := Option.map_eq_some_iff.mp hmap
    exact .inr ⟨List.exists_mem_of_ne_nil _ hne, b, hb, hhull⟩

/-- What is read of an object besides its name. -/
theorem box_of_readObject {o : Json} {ob : Object} (h : readObject o = some ob) :
    polygonBox o = some ob.box ∨ polygonBox o = none ∧ centerBox o = some ob.box := by
  obtain ⟨name, -, h⟩ := Option.bind_eq_some_iff.mp h
  cases hpolygon : polygonBox o with
  | some b =>
    rw [hpolygon] at h
    obtain rfl := Option.some.inj h
    exact .inl rfl
  | none =>
    rw [hpolygon] at h
    obtain ⟨b, hb, h⟩ := Option.bind_eq_some_iff.mp h
    obtain rfl := Option.some.inj h
    exact .inr ⟨rfl, hb⟩

theorem ordered_centerBox {o : Json} {b : Box} (h : centerBox o = some b) :
    b.x0 ≤ b.x1 ∧ b.y0 ≤ b.y1 := by
  rw [centerBox] at h
  split at h
  · obtain ⟨x, -, h⟩ := Option.bind_eq_some_iff.mp h
    obtain ⟨y, -, h⟩ := Option.bind_eq_some_iff.mp h
    obtain rfl := Option.some.inj h
    constructor <;> linarith
  · obtain rfl := Option.some.inj h
    exact ⟨le_rfl, le_rfl⟩

theorem boxed_readObject {o : Json} {ob : Object} (h : readObject o = some ob) :
    Boxed o ob.box := by
  rcases polygonBox_spec o with ⟨hempty, hnone⟩ | ⟨hpoints, b, hb, hhull⟩
  · have hbox : centerBox o = some ob.box :=
      (box_of_readObject h).elim (fun hsome => by cases hnone.symm.trans hsome) And.right
    refine ⟨fun hne => absurd hempty hne.ne_empty, fun _ cx cy rest hcenter => ?_,
      ordered_centerBox hbox⟩
    rw [centerBox, hcenter] at hbox
    exact (Option.some.inj hbox).symm
  · obtain rfl : b = ob.box := (box_of_readObject h).elim
      (fun hsome => Option.some.inj (hb.symm.trans hsome))
      fun hnone => by cases hb.symm.trans hnone.1
    refine ⟨fun _ => ⟨?_, fun c hc => ?_⟩, fun hempty => absurd hempty hpoints.ne_empty, ?_⟩
    · rw [region_eq]
      exact hhull.subset
    · rw [region_eq] at hc ⊢
      rw [region_eq]
      exact hhull.smallest hc
    · exact hhull.le hpoints

/-- The same points in another order span the same box. -/
theorem Boxed.unique {o o' : Json} {b b' : Box} (h : Boxed o b) (h' : Boxed o' b')
    (hpoints : points o = points o') (hne : (points o).Nonempty) : b = b' := by
  obtain ⟨hsubset, hleast⟩ := h.smallest hne
  obtain ⟨hsubset', hleast'⟩ := h'.smallest (hpoints ▸ hne)
  have hregion : b.region = b'.region :=
    Set.Subset.antisymm (hleast b' (hpoints ▸ hsubset')) (hleast' b (hpoints ▸ hsubset))
  have hle : b.corners.1 ≤ b.corners.2 := h.ordered
  have hle' : b'.corners.1 ≤ b'.corners.2 := h'.ordered
  rw [region_eq, region_eq] at hregion
  have hsub := (Set.Icc_subset_Icc_iff hle).mp hregion.subset
  have hsub' := (Set.Icc_subset_Icc_iff hle').mp hregion.superset
  exact corners_injective (Prod.ext (hsub'.1.antisymm hsub.1) (hsub.2.antisymm hsub'.2))

theorem map_box_flagged (f : String → Bool) (objects : List Object) :
    (flagged f objects).map Object.box = objects.map Object.box := by
  rw [flagged, List.map_map]
  rfl

theorem map_box_mergeExcludedField (objects : List Object) (field : Option Json) :
    (Panel.mergeExcludedField objects field).map Object.box = objects.map Object.box := by
  rcases field with _ | _ | _ | _ | _ | names | _
  case some.arr => rw [Panel.mergeExcludedField, mergeExcluded_eq, map_box_flagged]
  all_goals rfl

theorem boxed_mapM {os : List Json} {obs : List Object} (h : os.mapM readObject = some obs) :
    List.Forall₂ Boxed os (obs.map Object.box) := by
  induction os generalizing obs with
  | nil =>
    cases h
    exact List.Forall₂.nil
  | cons o os ih =>
    rw [List.mapM_cons] at h
    obtain ⟨ob, hob, h⟩ := Option.bind_eq_some_iff.mp h
    obtain ⟨rest, hrest, h⟩ := Option.bind_eq_some_iff.mp h
    cases h
    exact List.Forall₂.cons (boxed_readObject hob) (ih hrest)

/-- The boxes of a merge, whatever the panel held before and whichever objects are excluded. -/
theorem merge_boxes {p q : Panel} {status : Json} {os : List Json}
    (hobjects : status.get? "objects" = some (.arr os)) (h : p.merge status = some q) :
    List.Forall₂ Boxed os (q.objects.map Object.box) ∧
      ∀ o o' b b', Boxed o b → Boxed o' b' → points o = points o' → (points o).Nonempty →
        b = b' := by
  refine ⟨?_, fun o o' b b' hb hb' => hb.unique hb'⟩
  have hobj : status.isObject := by
    cases status with
    | obj ms => rfl
    | _ => cases hobjects
  rw [Panel.merge, if_pos hobj, hobjects] at h
  obtain ⟨merged, hmerged, rfl⟩ := Option.map_eq_some_iff.mp h
  rw [Panel.mergeObjectsField, mergeObjects_eq] at hmerged
  obtain ⟨obs, hobs, rfl⟩ := Option.map_eq_some_iff.mp hmerged
  dsimp only
  rw [map_box_mergeExcludedField, map_box_flagged]
  exact boxed_mapM hobs

/-- Two points besides a malformed one, and a center that does not count. -/
def corner : Json := .obj [("center", .arr [.num (.int 7), .num (.int 7)]),
  ("name", .str "a"), ("polygon", .arr [.arr [.num (.int 3), .str "x"],
    .arr [.num (.int 3), .num (.int 1)], .arr [.num (.int 1), .num (.int 2)]])]

theorem merge_boxes_corner : ∃ q, ({} : Panel).merge (.obj [("objects", .arr [corner])]) = some q ∧
    List.Forall₂ Boxed [corner] (q.objects.map Object.box) := by
  have hobjects : (Json.obj [("objects", .arr [corner])]).get? "objects" = some (.arr [corner]) :=
    rfl
  obtain ⟨q, hq⟩ : ∃ q, ({} : Panel).merge (.obj [("objects", .arr [corner])]) = some q := ⟨_, rfl⟩
  exact ⟨q, hq, (merge_boxes hobjects hq).1⟩

end PowerScreen.ExcludeObject
