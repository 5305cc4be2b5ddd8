import PowerScreen.Files.Tree

/-! # The tree that a listing builds

One walk adds one path and touches the folders on it. Over a whole listing a node
stands wherever a path of the listing leads through, and its date is the latest of
the files below it.
-/
namespace PowerScreen.Files
open Library

/-- A folder that is passed takes the date if it is later than its own. -/
def touch (modified : ℕ) (n : Node) : Node :=
  { n with dateModified := if n.dateModified < modified then modified else n.dateModified }

/-- A node that is created at a path. -/
def fresh (modified : ℕ) (q : List String) : Node :=
  ⟨q.getLast?.getD "", pathOf q, modified, q.dropLast⟩

/-- The loop is a walk of the tree. -/
theorem addPathFrom_eq_walk (modified : ℕ) (here ps : List String) (t : Tree) :
    addPathFrom modified here (pathOf here) ps t =
      t.walk (touch modified) (fresh modified) here ps := by
  induction ps generalizing here t with
  | nil => rfl
  | cons p ps ih =>
    have hpath : extend (pathOf here) p = pathOf (here ++ [p]) := by
      rw [pathOf, pathOf, List.foldl_append]
      rfl
    have hfresh : fresh modified (here ++ [p]) = ⟨p, pathOf (here ++ [p]), modified, here⟩ := by
      simp [fresh]
    rw [addPathFrom, findOrCreate, KeyTree.walk, hpath, ih, hfresh]
    rfl

theorem touch_fresh (modified : ℕ) (q : List String) :
    touch modified (fresh modified q) = fresh modified q := by
  rw [touch, fresh, if_neg (lt_irrefl _)]

/-- One path changes the dates of the folders on it and creates what is missing. -/
theorem data?_addPath (t : Tree) (ps : List String) (modified : ℕ) (q : List String) :
    (addPath t ps modified).data? q =
      if q <+: ps then
        some ((t.data? q).elim (fresh modified q) (KeyTree.walked (touch modified) (q = ps)))
      else t.data? q := by
  rw [addPath, show ("" : String) = pathOf [] from rfl, addPathFrom_eq_walk, KeyTree.data?_walk]
  by_cases hq : q <+: ps
  · rw [if_pos hq, if_pos hq, List.nil_append]
    cases t.data? q with
    | some n => rfl
    | none =>
      rw [Option.getD_none, Option.elim_none, KeyTree.walked, touch_fresh, ite_self]
  · rw [if_neg hq, if_neg hq]

theorem build_append_singleton (files : List File) (f : File) :
    build (files ++ [f]) = addPath (build files) (split f.path) f.modified :=
  List.foldl_append

/-- The name, the path and the link of a node are given by the place where it stands. -/
structure Placed (q : List String) (n : Node) : Prop where
  name : n.name = q.getLast?.getD ""
  fullPath : n.fullPath = pathOf q
  parent : n.parent = q.dropLast

theorem placed_fresh (modified : ℕ) (q : List String) : Placed q (fresh modified q) :=
  ⟨rfl, rfl, rfl⟩

theorem Placed.walked {q : List String} {n : Node} (h : Placed q n) (modified : ℕ) (last : Bool) :
    Placed q (KeyTree.walked (touch modified) last n) := by
  cases last with
  | true => exact h
  | false => exact ⟨h.name, h.fullPath, h.parent⟩

theorem placed_of_build {files : List File} {q : List String} {n : Node}
    (h : (build files).data? q = some n) : Placed q n := by
  induction files using List.reverseRecOn generalizing n with
  | nil =>
    cases q with
    | nil => exact Option.some.inj h ▸ ⟨rfl, rfl, rfl⟩
    | cons k q => cases h
  | append_singleton files f ih =>
    rw [build_append_singleton, data?_addPath] at h
    split_ifs at h with hq
    · rw [← Option.some.inj h]
      cases hold : (build files).data? q with
      | none => exact placed_fresh f.modified q
      | some m => exact (ih hold).walked f.modified _
    · exact ih h

/-- Beside the root a node stands wherever a path of the listing leads through. -/
theorem isSome_data?_build {files : List File} {q : List String} :
    ((build files).data? q).isSome ↔ q = [] ∨ ∃ f ∈ files, q <+: split f.path := by
  induction files using List.reverseRecOn with
  | nil =>
    cases q with
    | nil => exact iff_of_true rfl (Or.inl rfl)
    | cons k q => exact iff_of_false Bool.false_ne_true (by simp)
  | append_singleton files f ih =>
    rw [build_append_singleton, data?_addPath]
    by_cases hq : q <+: split f.path
    · rw [if_pos hq]
      exact iff_of_true rfl (Or.inr ⟨f, by simp, hq⟩)
    · rw [if_neg hq, ih]
      simp [hq]

theorem isSome_get?_build {files : List File} {q : List String} :
    ((build files).get? q).isSome ↔ q = [] ∨ ∃ f ∈ files, q <+: split f.path := by
  rw [← isSome_data?_build, KeyTree.data?, Option.isSome_map]

/-- A path of the listing goes on behind `q`. -/
def IsFolder (files : List File) (q : List String) : Prop :=
  ∃ f ∈ files, q <+: split f.path ∧ q ≠ split f.path

/-- The folders are the nodes that a path leads through and does not end at. -/
theorem isLeaf_build_iff {files : List File} {q : List String} {t : Tree}
    (h : (build files).get? q = some t) : t.isLeaf = false ↔ IsFolder files q := by
  rw [KeyTree.isLeaf_eq_false_iff h]
  constructor
  · rintro ⟨k, hk⟩
    obtain hnil | ⟨f, hf, hpre⟩ := isSome_get?_build.mp hk
    · simp at hnil
    · have hlen := hpre.length_le
      rw [List.length_append, List.length_singleton] at hlen
      refine ⟨f, hf, (List.prefix_append q [k]).trans hpre, fun heq => ?_⟩
      rw [heq] at hlen
      omega
  · rintro ⟨f, hf, ⟨r, hr⟩, hne⟩
    cases r with
    | nil => exact absurd ((List.append_nil q).symm.trans hr) hne
    | cons k r =>
      refine ⟨k, isSome_get?_build.mpr (Or.inr ⟨f, hf, r, ?_⟩)⟩
      rw [List.append_assoc, List.singleton_append, hr]

/-- The date of a folder is the latest below it. -/
theorem date_of_build {files : List File} {q : List String} {n : Node} (hq : q ≠ [])
    (hfolder : ∀ f ∈ files, split f.path ≠ q) (h : (build files).data? q = some n) :
    (∀ f ∈ files, q <+: split f.path → f.modified ≤ n.dateModified) ∧
      ∃ f ∈ files, q <+: split f.path ∧ f.modified = n.dateModified := by
  induction files using List.reverseRecOn generalizing n with
  | nil =>
    cases q with
    | nil => exact absurd rfl hq
    | cons k q => cases h
  | append_singleton files f ih =>
    have hfiles : ∀ g ∈ files, split g.path ≠ q := fun g hg =>
      hfolder g (List.mem_append_left _ hg)
    have hlast : f ∈ files ++ [f] := List.mem_append_right _ (List.mem_singleton_self f)
    have hend : decide (q = split f.path) = false := decide_eq_false (hfolder f hlast).symm
    rw [build_append_singleton, data?_addPath] at h
    split_ifs at h with hpre
    · rw [hend] at h
      cases hold : (build files).data? q with
      | none =>
        rw [hold, Option.elim_none] at h
        have hn : n.dateModified = f.modified := by rw [← Option.some.inj h]; rfl
        have hnone : ∀ g ∈ files, ¬ q <+: split g.path := fun g hg hg' => by
          have hsome := isSome_data?_build.mpr (Or.inr ⟨g, hg, hg'⟩)
          rw [hold] at hsome
          cases hsome
        refine ⟨fun g hg hg' => ?_, f, hlast, hpre, hn.symm⟩
        rcases List.mem_append.mp hg with hg | hg
        · exact absurd hg' (hnone g hg)
        · rw [List.mem_singleton.mp hg, hn]
      | some m =>
        rw [hold, Option.elim_some] at h
        have hn : n.dateModified =
            if m.dateModified < f.modified then f.modified else m.dateModified := by
          rw [← Option.some.inj h]
          rfl
        obtain ⟨hle, g, hg, hg', heq⟩ := ih hfiles hold
        rw [hn]
        constructor
        · intro g hg hg'
          rcases List.mem_append.mp hg with hg | hg
          · have := hle g hg hg'
            split_ifs <;> omega
          · rw [List.mem_singleton.mp hg]
            split_ifs <;> omega
        · split_ifs with hlt
          · exact ⟨f, hlast, hpre, rfl⟩
          · exact ⟨g, List.mem_append_left _ hg, hg', heq⟩
    · obtain ⟨hle, g, hg, hg', heq⟩ := ih hfiles h
      refine ⟨fun g hg hg' => ?_, g, List.mem_append_left _ hg, hg', heq⟩
      rcases List.mem_append.mp hg with hg | hg
      · exact hle g hg hg'
      · rw [List.mem_singleton.mp hg] at hg'
        exact absurd hg' hpre

/-- The components of a path that leads to a node are names. -/
theorem isName_of_get? {files : List File} (hpaths : ∀ f ∈ files, IsPath f.path)
    {q : List String} (h : ((build files).get? q).isSome) : ∀ p ∈ q, IsName p := by
  rcases isSome_get?_build.mp h with rfl | ⟨f, hf, hpre⟩
  · simp
  · exact fun p hp => (hpaths f hf).isName (hpre.subset hp)

theorem fullPath_of_get? {files : List File} (hpaths : ∀ f ∈ files, IsPath f.path)
    {q : List String} {n : Tree} (h : (build files).get? q = some n) :
    n.data.fullPath = joinPath q := by
  have hdata : (build files).data? q = some n.data := by rw [KeyTree.data?, h]; rfl
  rw [(placed_of_build hdata).fullPath]
  exact pathOf_eq_joinPath (isName_of_get? hpaths (by rw [h]; rfl))

/-- The link leads to the node that has this one as its child. -/
theorem parent_of_get? {files : List File} {q : List String} {n : Tree} (hq : q ≠ [])
    (h : (build files).get? q = some n) : ∃ parent,
      (build files).get? n.data.parent = some parent ∧
        parent.children.lookup n.data.name = some n := by
  have hdata : (build files).data? q = some n.data := by rw [KeyTree.data?, h]; rfl
  have hplaced := placed_of_build hdata
  obtain ⟨r, k, rfl⟩ := (List.eq_nil_or_concat' q).resolve_left hq
  rw [KeyTree.get?_append, Option.bind_eq_some_iff] at h
  obtain ⟨parent, hparent, hchild⟩ := h
  refine ⟨parent, ?_, ?_⟩
  · rw [hplaced.parent, List.dropLast_concat, hparent]
  · rw [hplaced.name, List.getLast?_concat, Option.getD_some]
    simpa [KeyTree.get?] using hchild

/-- A pointer comes back for folders, and the root for all else. -/
theorem findPath_of_folder {t n : Tree} {q : List String} (h : t.get? q = some n)
    (hn : n.isLeaf = false) : findPath t q = q := by
  rw [findPath, h]
  dsimp only
  rw [if_neg (by simp [hn])]

theorem findPath_of_not_folder {t : Tree} {q : List String}
    (h : ∀ n, t.get? q = some n → n.isLeaf = true) : findPath t q = [] := by
  rw [findPath]
  cases hn : t.get? q with
  | none => rfl
  | some n => exact if_pos (h n hn)

/-- A tree that stands for a listing: one leaf for every path, and the folders the
paths lead through. -/
structure Mirrors (files : List File) (t : Tree) : Prop where
  leaf : ∀ f ∈ files, ∃ n, t.get? (split f.path) = some n ∧ n.isLeaf = true ∧
    n.data.fullPath = f.path
  leaf_only : ∀ q n, q ≠ [] → t.get? q = some n → n.isLeaf = true →
    ∃ f ∈ files, split f.path = q
  path : ∀ q n, q ≠ [] → t.get? q = some n → n.isLeaf = false →
    n.data.fullPath = joinPath q
  link : ∀ q n, q ≠ [] → t.get? q = some n → n.isLeaf = false → ∃ parent,
    t.get? n.data.parent = some parent ∧ parent.children.lookup n.data.name = some n
  date : (files.map File.path).Nodup → ∀ q n, q ≠ [] → t.get? q = some n → n.isLeaf = false →
    IsGreatest {m | ∃ f ∈ files, q <+: split f.path ∧ f.modified = m} n.data.dateModified
  find : ∀ q n, t.get? q = some n → n.isLeaf = false → findPath t (split n.data.fullPath) = q
  find_other : ∀ s, (∀ n, t.get? (split s) = some n → n.isLeaf = true) →
    findPath t (split s) = []

/-- A listing of relative paths, none of which is a folder of another, is mirrored by
the tree it builds, in whatever order and however often its files come. -/
theorem mirrors_build (files : List File) (hpaths : ∀ f ∈ files, IsPath f.path)
    (hfree : ∀ f ∈ files, ∀ g ∈ files, split f.path <+: split g.path →
      split f.path = split g.path) : Mirrors files (build files) where
  leaf f hf := by
    have hsome := isSome_get?_build.mpr (Or.inr ⟨f, hf, List.prefix_refl _⟩)
    obtain ⟨n, hn⟩ := Option.isSome_iff_exists.mp hsome
    refine ⟨n, hn, ?_, ?_⟩
    · by_contra hleaf
      obtain ⟨g, hg, hpre, hne⟩ := (isLeaf_build_iff hn).mp (Bool.not_eq_true _ ▸ hleaf)
      exact hne (hfree f hf g hg hpre)
    · rw [fullPath_of_get? hpaths hn, (hpaths f hf).eq_joinPath]
  leaf_only q n hq hn hleaf := by
    obtain ⟨f, hf, hpre⟩ := (isSome_get?_build.mp (by rw [hn]; rfl)).resolve_left hq
    by_contra hne
    push Not at hne
    have hfolder := (isLeaf_build_iff hn).mpr ⟨f, hf, hpre, (hne f hf).symm⟩
    rw [hleaf] at hfolder
    cases hfolder
  path q n _ hn _ := fullPath_of_get? hpaths hn
  link q n hq hn _ := parent_of_get? hq hn
  date _ q n hq hn hleaf := by
    obtain ⟨g, hg, hpre, hne⟩ := (isLeaf_build_iff hn).mp hleaf
    have hfolder : ∀ f ∈ files, split f.path ≠ q := fun f hf heq =>
      hne (heq ▸ hfree f hf g hg (heq ▸ hpre))
    have hdata : (build files).data? q = some n.data := by rw [KeyTree.data?, hn]; rfl
    obtain ⟨hle, f, hf, hpre, hmax⟩ := date_of_build hq hfolder hdata
    refine ⟨⟨f, hf, hpre, hmax⟩, ?_⟩
    rintro m ⟨f, hf, hpre, rfl⟩
    exact hle f hf hpre
  find q n hn hleaf := by
    have hnames := isName_of_get? hpaths (q := q) (by rw [hn]; rfl)
    rw [fullPath_of_get? hpaths hn, split_joinPath hnames]
    exact findPath_of_folder hn hleaf
  find_other s hs := findPath_of_not_folder hs

/-- A file in a folder and one beside it. -/
theorem mirrors_build_two :
    Mirrors [⟨"a/b.gcode", 1⟩, ⟨"c.gcode", 2⟩] (build [⟨"a/b.gcode", 1⟩, ⟨"c.gcode", 2⟩]) := by
  refine mirrors_build _ ?_ ?_
  · simp only [List.forall_mem_cons, List.not_mem_nil, IsEmpty.forall_iff, implies_true, and_true]
    exact ⟨⟨["a", "b.gcode"], by decide, by simp [IsName], rfl⟩,
      ⟨["c.gcode"], by decide, by simp [IsName], rfl⟩⟩
  · decide

end PowerScreen.Files
