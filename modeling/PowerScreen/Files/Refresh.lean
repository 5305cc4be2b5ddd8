import PowerScreen.Files.Browser

/-! # What a refresh keeps

Every pointer of the browser leads to a node of the tree, so a reply starts from the
path of the folder that is shown. The local view then tells the USB folder by the
first letters of the path, and the USB view takes any folder that is still there.
-/
namespace PowerScreen.Files
open Library Library.Run

def IsFolderOf (t : Tree) (q : List String) : Prop := ∃ n, t.get? q = some n ∧ n.isLeaf = false

instance (t : Tree) (q : List String) : Decidable (IsFolderOf t q) :=
  decidable_of_iff ((t.get? q).any fun n => !n.isLeaf) (by
    rw [Option.any_eq_true]
    simp [IsFolderOf])

theorem findPath_eq_of_isFolderOf {t : Tree} {q : List String} (h : IsFolderOf t q) :
    findPath t q = q := by
  obtain ⟨n, hn, hleaf⟩ := h
  exact findPath_of_folder hn hleaf

theorem findPath_eq_nil {t : Tree} {q : List String} (h : ¬ IsFolderOf t q) :
    findPath t q = [] := by
  refine findPath_of_not_folder fun n hn => ?_
  by_contra hleaf
  exact h ⟨n, hn, Bool.not_eq_true _ ▸ hleaf⟩

theorem isSome_get?_findPath (t : Tree) (q : List String) : (t.get? (findPath t q)).isSome := by
  by_cases h : IsFolderOf t q
  · rw [findPath_eq_of_isFolderOf h]
    obtain ⟨n, hn, -⟩ := h
    rw [hn]
    rfl
  · rw [findPath_eq_nil h]
    rfl

theorem Listing.tree_eq_build (l : Option Listing) :
    ∃ files, (∀ f ∈ files, IsPath f.path) ∧ Listing.tree l = build files := by
  cases l with
  | none => exact ⟨[], by simp, rfl⟩
  | some l => exact ⟨l.files, l.paths, rfl⟩

namespace Browser

variable {sort : StdSort}

/-- Listing a folder leaves the tree, the place and the view alone. -/
theorem showDir_frame (sort : StdSort) (b : Browser) (dir : List String) (sortType : ℕ) :
    (b.showDir sort dir sortType).root = b.root ∧
    (b.showDir sort dir sortType).curDir = b.curDir ∧
    (b.showDir sort dir sortType).usbView = b.usbView ∧
    (b.showDir sort dir sortType).usbMissing = b.usbMissing ∧
    (b.showDir sort dir sortType).pending = b.pending := by
  unfold showDir
  dsimp only
  split_ifs <;> exact ⟨rfl, rfl, rfl, rfl, rfl⟩

/-- Every card stands for a child. -/
theorem mem_cards_showDir {b : Browser} {dir : List String} {sortType : ℕ} {c : Card}
    (h : c ∈ (b.showDir sort dir sortType).cards) : ∃ k n,
      (b.nodeAt dir).children.lookup k = some n ∧
        c = ⟨some (dir ++ [k]), n.data.fullPath, !n.isLeaf⟩ := by
  unfold showDir at h
  dsimp only at h
  split_ifs at h
  · cases h
  · cases h
  · obtain ⟨x, -, hx⟩ := List.mem_filterMap.mp h
    obtain ⟨n, hn, rfl⟩ := Option.map_eq_some_iff.mp hx
    exact ⟨x.data.name, n, hn, rfl⟩

/-- The tree is that of a listing, and the pointers lead to its nodes. -/
structure Valid (b : Browser) : Prop where
  tree : ∃ l, b.root = Listing.tree l
  dir : (b.root.get? b.curDir).isSome
  cards : ∀ c ∈ b.cards, ∃ n, c.node = some n ∧ (b.root.get? n).isSome

theorem get?_nodeAt {b : Browser} {q : List String} (h : (b.root.get? q).isSome) :
    b.root.get? q = some (b.nodeAt q) := by
  obtain ⟨n, hn⟩ := Option.isSome_iff_exists.mp h
  rw [nodeAt, hn]
  rfl

/-- Listing a folder replaces the cards. -/
theorem valid_showDir {b : Browser} (htree : ∃ l, b.root = Listing.tree l)
    (hcur : (b.root.get? b.curDir).isSome) {dir : List String} (hdir : (b.root.get? dir).isSome)
    (sortType : ℕ) : (b.showDir sort dir sortType).Valid := by
  obtain ⟨hroot, hdir', -⟩ := showDir_frame sort b dir sortType
  refine ⟨hroot ▸ htree, by rw [hroot, hdir']; exact hcur, fun c hc => ?_⟩
  obtain ⟨k, n, hn, rfl⟩ := mem_cards_showDir hc
  refine ⟨dir ++ [k], rfl, ?_⟩
  rw [hroot, KeyTree.get?_append, get?_nodeAt hdir, Option.bind_some, KeyTree.get?, hn]
  rfl

theorem isSome_get?_place (usbView : Bool) (t : Tree) (curPath : String) (q : List String) :
    (t.get? (place usbView t curPath (findPath t q))).isSome := by
  unfold place
  dsimp only
  split_ifs with hview husb
  · simp only [Bool.and_eq_true] at husb
    simpa [KeyTree.get?] using husb.1
  · exact isSome_get?_findPath t q
  · rfl
  · exact isSome_get?_findPath t q

theorem valid_start : Valid {} := ⟨⟨none, rfl⟩, rfl, by simp⟩

theorem Valid.handleReply {b : Browser} (l : Option Listing) :
    (b.handleReply sort (Listing.tree l)).Valid :=
  have hplaced := isSome_get?_place b.usbView (Listing.tree l) (b.nodeAt b.curDir).data.fullPath
    (split (b.nodeAt b.curDir).data.fullPath)
  valid_showDir ⟨l, rfl⟩ hplaced hplaced _

theorem valid_step (b : Browser) (e : Event) (h : b.Valid) : (b.step sort e).Valid := by
  cases e with
  | refresh => exact ⟨h.tree, h.dir, h.cards⟩
  | setStorage usb => exact ⟨h.tree, rfl, h.cards⟩
  | tap i =>
    dsimp only [step]
    split
    · exact h
    · rename_i c hc
      obtain ⟨n, hn, hsome⟩ := h.cards c (List.mem_of_getElem? hc)
      rw [handleFileCard, hn]
      dsimp only
      split_ifs
      · exact ⟨h.tree, h.dir, h.cards⟩
      · exact valid_showDir (b := { b with curDir := n }) h.tree hsome hsome _
  | sortBtn key => exact valid_showDir h.tree h.dir h.dir _
  | reply l =>
    dsimp only [step]
    split_ifs
    · exact h
    · exact Valid.handleReply l

/-- The path of the current folder is read back as the pointer to it. -/
theorem Valid.curPath {b : Browser} (h : b.Valid) :
    (b.nodeAt b.curDir).data.fullPath = joinPath b.curDir ∧
      split (joinPath b.curDir) = b.curDir := by
  obtain ⟨l, hl⟩ := h.tree
  obtain ⟨files, hpaths, hbuild⟩ := Listing.tree_eq_build l
  have hdir := get?_nodeAt h.dir
  rw [hl, hbuild] at hdir
  have hnames := isName_of_get? hpaths (q := b.curDir) (by rw [hdir]; rfl)
  exact ⟨fullPath_of_get? hpaths hdir, split_joinPath hnames⟩

/-- What is asked of a reply: the local view stays in its folder unless that is gone
or belongs to the USB drive, and the USB view stays on the drive. -/
def Kept (sort : StdSort) (b : Browser) : Event → Prop
  | .reply l => b.pending ≠ 0 →
    let t := Listing.tree l
    let dir := (b.step sort (.reply l)).curDir
    (b.usbView = false →
      (IsFolderOf t b.curDir ∧ ¬ [usbDirName] <+: b.curDir → dir = b.curDir) ∧
      (¬ (IsFolderOf t b.curDir ∧ ¬ [usbDirName] <+: b.curDir) → dir = [])) ∧
    (b.usbView = true → IsFolderOf t [usbDirName] →
      [usbDirName] <+: dir ∧ IsFolderOf t dir ∧
        ([usbDirName] <+: b.curDir → IsFolderOf t b.curDir → dir = b.curDir))
  | _ => True

/-- No folder that is still there is taken for one of the USB drive, or shown in the
view of the drive without being on it. -/
def Told (b : Browser) : Event → Prop
  | .reply l => b.pending ≠ 0 →
    let t := Listing.tree l
    (b.usbView = false → IsFolderOf t b.curDir → startsWithUsb (joinPath b.curDir) →
      [usbDirName] <+: b.curDir) ∧
    (b.usbView = true → IsFolderOf t [usbDirName] → IsFolderOf t b.curDir → b.curDir ≠ [] →
      [usbDirName] <+: b.curDir)
  | _ => True

theorem curDir_reply {b : Browser} (h : b.Valid) (l : Option Listing) (hp : b.pending ≠ 0) :
    (b.step sort (.reply l)).curDir = place b.usbView (Listing.tree l) (joinPath b.curDir)
      (findPath (Listing.tree l) b.curDir) := by
  obtain ⟨hpath, hsplit⟩ := h.curPath
  have hframe : (b.step sort (.reply l)).curDir = place b.usbView (Listing.tree l)
      (b.nodeAt b.curDir).data.fullPath
      (findPath (Listing.tree l) (split (b.nodeAt b.curDir).data.fullPath)) := by
    rw [step, if_neg hp]
    exact (showDir_frame _ _ _ _).2.1
  rw [hframe, hpath, hsplit]

/-- The USB folder and what is in it start with its name. -/
theorem startsWithUsb_of_prefix {q : List String} (h : [usbDirName] <+: q) :
    startsWithUsb (joinPath q) := by
  obtain ⟨r, rfl⟩ := h
  cases r with
  | nil => decide
  | cons p r =>
    rw [startsWithUsb, List.isPrefixOf_iff_prefix]
    simp only [List.singleton_append, joinPath, String.toList_append, List.append_assoc]
    exact List.prefix_append _ _

theorem kept_local_iff (t : Tree) (q : List String) :
    (IsFolderOf t q ∧ ¬ [usbDirName] <+: q → place false t (joinPath q) (findPath t q) = q) ∧
      (¬ (IsFolderOf t q ∧ ¬ [usbDirName] <+: q) →
        place false t (joinPath q) (findPath t q) = []) ↔
    (IsFolderOf t q → startsWithUsb (joinPath q) → [usbDirName] <+: q) := by
  have hplace : place false t (joinPath q) (findPath t q) =
      if startsWithUsb (joinPath q) then [] else findPath t q := rfl
  rw [hplace]
  by_cases hfolder : IsFolderOf t q
  · rw [findPath_eq_of_isFolderOf hfolder]
    by_cases hpre : [usbDirName] <+: q
    · simp [hpre, startsWithUsb_of_prefix hpre]
    · by_cases husb : startsWithUsb (joinPath q)
      · have hne : q ≠ [] := fun hq => by
          rw [hq] at husb
          exact absurd husb (by decide)
        simp [hfolder, hpre, husb, hne.symm]
      · simp [hfolder, hpre, husb]
  · rw [findPath_eq_nil hfolder]
    simp [hfolder]

theorem kept_usb_iff {t : Tree} (q : List String) (husb : IsFolderOf t [usbDirName]) :
    ([usbDirName] <+: place true t (joinPath q) (findPath t q) ∧
      IsFolderOf t (place true t (joinPath q) (findPath t q)) ∧
      ([usbDirName] <+: q → IsFolderOf t q → place true t (joinPath q) (findPath t q) = q)) ↔
    (IsFolderOf t q → q ≠ [] → [usbDirName] <+: q) := by
  have hsome : (t.children.lookup usbDirName).isSome := by
    obtain ⟨n, hn, -⟩ := husb
    rw [KeyTree.get?] at hn
    exact Option.isSome_of_isSome_bind (by rw [hn]; rfl)
  have hplace : place true t (joinPath q) (findPath t q) =
      if findPath t q = [] then [usbDirName] else findPath t q := by
    simp [place, hsome]
  rw [hplace]
  by_cases hfolder : IsFolderOf t q
  · rw [findPath_eq_of_isFolderOf hfolder]
    by_cases hq : q = []
    · simp [hq, husb]
    · simp [hq, hfolder]
  · rw [findPath_eq_nil hfolder]
    simp [hfolder, husb]

theorem kept_iff_told {b : Browser} (h : b.Valid) (e : Event) : b.Kept sort e ↔ b.Told e := by
  cases e with
  | reply l =>
    refine imp_congr_right fun hp => ?_
    dsimp only
    rw [curDir_reply h l hp]
    cases hview : b.usbView with
    | false => simpa using kept_local_iff (Listing.tree l) b.curDir
    | true =>
      simp only [Bool.true_eq_false, false_implies, true_and, true_implies]
      exact imp_congr_right fun husb => kept_usb_iff b.curDir husb
  | _ => exact Iff.rfl

/-- In every run each reply keeps the place and the storage exactly when it finds no
folder that is told wrong. -/
theorem kept_each_reply_iff (sort : StdSort) (es : List Event) :
    EachStep (step sort) (Kept sort) {} es ↔ EachStep (step sort) Told {} es :=
  eachStep_iff_of_invariant (fun _ e h => kept_iff_told h e) (fun b e h _ => valid_step b e h)
    valid_start es

/-- A folder whose name begins with that of the USB link. -/
def usbModels : Listing where
  files := [⟨"usb-models/a.gcode", 1⟩]
  paths := by
    rw [List.forall_mem_singleton]
    exact ⟨["usb-models", "a.gcode"], by decide, by simp [IsName], rfl⟩

/-- The reload button is pressed in that folder, and the root is shown. -/
theorem usb_models_left : ¬ EachStep (step insertionSort) (Kept insertionSort) {}
    [.refresh, .reply (some usbModels), .tap 0, .refresh, .reply (some usbModels)] := by
  intro h
  have hlast := h.2.2.2.2.1 (by decide)
  have hstays := (hlast.1 (by decide)).1 ⟨by decide, by decide⟩
  revert hstays
  decide

end Browser
end PowerScreen.Files
