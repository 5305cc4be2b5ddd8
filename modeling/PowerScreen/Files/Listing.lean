import PowerScreen.Files.Refresh

/-! # What a listing shows

The comparison orders the children of a folder by kind and then by the key that is
asked for, so the cards come out in that order whatever the sort makes of ties. The
USB folder is left out of the local root after the children have been counted.
-/
namespace PowerScreen.Files
open Library Library.Run

/-- The key alone, in its direction. -/
def Order.le (o : Order) (x y : Tree) : Prop := match o.key, o.reversed with
  | .modified, false => x.data.dateModified ≤ y.data.dateModified
  | .modified, true => y.data.dateModified ≤ x.data.dateModified
  | .name, false => x.data.name ≤ y.data.name
  | .name, true => y.data.name ≤ x.data.name

def foldersFirst (x y : Tree) : Prop := y.isLeaf = false → x.isLeaf = false

theorem Order.preorder_le (o : Order) : TotalPreorder o.le := by
  obtain ⟨key, reversed⟩ := o
  cases key <;> cases reversed
  · exact .ofKey fun x : Tree => x.data.name
  · exact (TotalPreorder.ofKey fun x : Tree => x.data.name).flip
  · exact .ofKey fun x : Tree => x.data.dateModified
  · exact (TotalPreorder.ofKey fun x : Tree => x.data.dateModified).flip

theorem preorder_foldersFirst : TotalPreorder foldersFirst where
  total x y := by
    unfold foldersFirst
    cases x.isLeaf <;> cases y.isLeaf <;> simp
  trans x y z hxy hyz hz := hxy (hyz hz)

theorem Order.keyBefore_eq_false_iff (o : Order) (x y : Tree) :
    o.keyBefore y x = false ↔ o.le x y := by
  obtain ⟨key, reversed⟩ := o
  cases key <;> cases reversed <;> exact decide_eq_false_iff_not.trans not_lt

/-- The comparison of `show_dir` is that of the kinds, then that of the keys. -/
theorem Order.before_eq_false_iff (o : Order) (x y : Tree) :
    o.before y x = false ↔ ThenBy foldersFirst o.le x y := by
  unfold Order.before ThenBy foldersFirst
  rw [← o.keyBefore_eq_false_iff]
  cases x.isLeaf <;> cases y.isLeaf <;> simp

theorem Order.preorder_before (o : Order) :
    TotalPreorder fun x y => o.before y x = false := by
  have h := preorder_foldersFirst.thenBy o.preorder_le
  constructor
  · intro x y
    simpa only [o.before_eq_false_iff] using h.total x y
  · intro x y z
    simpa only [o.before_eq_false_iff] using h.trans x y z

/-- The children of every node are sorted, and each has its key for its name. -/
theorem ordered_build (files : List File) : (build files).Ordered := by
  induction files using List.reverseRecOn with
  | nil => exact KeyTree.ordered_node _
  | append_singleton files f ih =>
    rw [build_append_singleton, addPath, show ("" : String) = pathOf [] from rfl,
      addPathFrom_eq_walk]
    exact ih.walk _ _ _ _

theorem name_of_child {files : List File} {q : List String} {n c : Tree} {k : String}
    (hn : (build files).get? q = some n) (hc : n.children.lookup k = some c) :
    c.data.name = k := by
  have hget : (build files).get? (q ++ [k]) = some c := by
    rw [KeyTree.get?_append, hn, Option.bind_some, KeyTree.get?, hc]
    rfl
  have hdata : (build files).data? (q ++ [k]) = some c.data := by rw [KeyTree.data?, hget]; rfl
  rw [(placed_of_build hdata).name, List.getLast?_concat, Option.getD_some]

/-- A folder of a tree: its children are looked up by their names. -/
structure IsDir (n : Tree) : Prop where
  sorted : Assoc.Sorted n.children
  named : ∀ m ∈ n.children, m.2.data.name = m.1

theorem isDir_of_build {files : List File} {q : List String} {n : Tree}
    (h : (build files).get? q = some n) : IsDir n where
  sorted := ordered_build files q n h
  named _ hm := name_of_child h (Assoc.lookup_of_mem (ordered_build files q n h) hm)

theorem IsDir.lookup {n c : Tree} (h : IsDir n) (hc : c ∈ n.children.map Prod.snd) :
    n.children.lookup c.data.name = some c := by
  obtain ⟨⟨k, c'⟩, hm, rfl⟩ := List.mem_map.mp hc
  rw [h.named _ hm]
  exact Assoc.lookup_of_mem h.sorted hm

namespace Browser

variable {sort : StdSort}

def cardOf (dir : List String) (x : Tree) : Card :=
  ⟨some (dir ++ [x.data.name]), x.data.fullPath, !x.isLeaf⟩

/-- The children that are meant to be shown: the USB folder is not, in the local root. -/
def meant (b : Browser) (dir : List String) : List Tree :=
  ((b.nodeAt dir).children.map Prod.snd).filter fun x => x.isLeaf || !b.hides dir x.data.name

/-- The cards are those of `xs`: every child that is meant once, folders first, by the
key that is asked for; the first file is selected, and the label has their number. -/
structure Lists (b : Browser) (dir : List String) (sortType : ℕ) (after : Browser)
    (xs : List Tree) : Prop where
  cards : after.cards = xs.map (cardOf dir)
  once : xs.Perm (b.meant dir)
  folders : xs.Pairwise foldersFirst
  ordered : xs.Pairwise fun x y => x.isLeaf = y.isLeaf → (b.order sortType).le x y
  file : after.curFile = (xs.find? KeyTree.isLeaf).map fun x => dir ++ [x.data.name]
  checked : after.checked = after.curFile
  label : after.countLabel = countText b.usbView after.cards.length

/-- The folder is listed, or the drive that is to be shown is missing and nothing is. -/
def Shows (b : Browser) (dir : List String) (sortType : ℕ) (after : Browser) : Prop :=
  if b.usbMissing then after.cards = [] ∧ after.curFile = none ∧ after.countLabel = ""
  else ∃ xs, b.Lists dir sortType after xs

/-- What the sort makes of the children of a folder. -/
def sorted (sort : StdSort) (b : Browser) (dir : List String) (sortType : ℕ) : List Tree :=
  sort (b.order sortType).before ((b.nodeAt dir).children.map Prod.snd)

theorem pairwise_sorted (hsort : Sorts sort) (b : Browser) (dir : List String) (sortType : ℕ) :
    (b.sorted sort dir sortType).Pairwise (ThenBy foldersFirst (b.order sortType).le) :=
  ((hsort _ (b.order sortType).preorder_before _).2).imp fun {x y} hxy =>
    ((b.order sortType).before_eq_false_iff x y).mp hxy

theorem mem_sorted_iff (hsort : Sorts sort) (b : Browser) (dir : List String) (sortType : ℕ)
    (x : Tree) : x ∈ b.sorted sort dir sortType ↔ x ∈ (b.nodeAt dir).children.map Prod.snd :=
  (hsort _ (b.order sortType).preorder_before _).1.mem_iff

/-- What a listing of a folder with children is. -/
theorem showDir_eq (sort : StdSort) {b : Browser} {dir : List String} (sortType : ℕ)
    (hm : b.usbMissing = false) (he : (b.nodeAt dir).children.isEmpty = false) :
    (b.showDir sort dir sortType).cards =
        ((b.sorted sort dir sortType).filter fun c => !b.hides dir c.data.name).filterMap
          (card (b.nodeAt dir) dir) ∧
      (b.showDir sort dir sortType).curFile =
        firstFile (b.nodeAt dir) dir (b.sorted sort dir sortType) ∧
      (b.showDir sort dir sortType).checked =
        (b.showDir sort dir sortType).curFile.filter fun n =>
          (b.showDir sort dir sortType).cards.any (·.node = some n) := by
  unfold showDir
  dsimp only
  rw [if_neg (by simp [hm]), if_neg (by simp [he])]
  exact ⟨rfl, rfl, rfl⟩

theorem showDir_empty (sort : StdSort) {b : Browser} {dir : List String} (sortType : ℕ)
    (hm : b.usbMissing = false) (he : (b.nodeAt dir).children.isEmpty = true) :
    (b.showDir sort dir sortType).cards = [] ∧ (b.showDir sort dir sortType).curFile = none ∧
      (b.showDir sort dir sortType).checked = none := by
  unfold showDir
  dsimp only
  rw [if_neg (by simp [hm]), if_pos he]
  exact ⟨rfl, rfl, rfl⟩

theorem countLabel_showDir {b : Browser} {dir : List String} (sortType : ℕ)
    (hm : b.usbMissing = false) : (b.showDir sort dir sortType).countLabel =
      countText b.usbView (b.nodeAt dir).children.length := by
  unfold showDir
  dsimp only
  split_ifs with h
  · rw [hm] at h
    cases h
  · rfl
  · rfl

theorem countText_inj {usbView : Bool} {m n : ℕ} :
    countText usbView m = countText usbView n ↔ m = n := by
  constructor
  · intro h
    have hlist := congrArg String.toList h
    simp only [countText, String.toList_append, List.append_cancel_right_eq,
      List.append_cancel_left_eq] at hlist
    have hdigits : Nat.toDigits 10 m = Nat.toDigits 10 n := by
      simpa only [Nat.repr, String.toList_ofList] using hlist
    have hvalue := congrArg (Nat.ofDigitChars 10 · 0) hdigits
    simpa only [Nat.ofDigitChars_ten_toDigits] using hvalue
  · exact fun h => h ▸ rfl

/-- The cards are looked up by name, and found. -/
theorem cards_eq (hsort : Sorts sort) {b : Browser} {dir : List String} (sortType : ℕ)
    (hdir : IsDir (b.nodeAt dir)) :
    ((b.sorted sort dir sortType).filter fun c => !b.hides dir c.data.name).filterMap
        (card (b.nodeAt dir) dir) =
      ((b.sorted sort dir sortType).filter fun c => !b.hides dir c.data.name).map
        (cardOf dir) := by
  rw [← List.filterMap_eq_map]
  refine List.filterMap_congr fun x hx => ?_
  have hmem := (mem_sorted_iff hsort b dir sortType x).mp (List.mem_filter.mp hx).1
  rw [card, hdir.lookup hmem]
  rfl

/-- The first file is a child. -/
theorem firstFile_eq (hsort : Sorts sort) {b : Browser} {dir : List String} (sortType : ℕ)
    (hdir : IsDir (b.nodeAt dir)) :
    firstFile (b.nodeAt dir) dir (b.sorted sort dir sortType) =
      ((b.sorted sort dir sortType).find? KeyTree.isLeaf).map fun x => dir ++ [x.data.name] := by
  rw [firstFile, Option.map_eq_bind]
  refine Option.bind_congr fun x hx => ?_
  have hmem := (mem_sorted_iff hsort b dir sortType x).mp (List.mem_of_find?_eq_some hx)
  rw [hdir.lookup hmem]
  rfl

/-- A child is hidden exactly where the local root has one of the USB link's name. -/
theorem exists_hidden_iff {b : Browser} {dir : List String} (hdir : IsDir (b.nodeAt dir)) :
    (∃ x ∈ (b.nodeAt dir).children.map Prod.snd, b.hides dir x.data.name = true) ↔
      b.usbView = false ∧ dir = [] ∧ ((b.nodeAt dir).children.lookup usbDirName).isSome := by
  simp only [hides, Bool.and_eq_true, Bool.not_eq_true', decide_eq_true_eq]
  constructor
  · rintro ⟨x, hx, ⟨hview, hroot⟩, hname⟩
    refine ⟨hview, hroot, ?_⟩
    rw [← hname, hdir.lookup hx]
    rfl
  · rintro ⟨hview, hroot, hsome⟩
    obtain ⟨x, hx⟩ := Option.isSome_iff_exists.mp hsome
    have hmem := Assoc.mem_of_lookup hx
    exact ⟨x, List.mem_map.mpr ⟨_, hmem, rfl⟩, ⟨hview, hroot⟩, hdir.named _ hmem⟩

/-- Without a child that is hidden everything is listed as it should be. -/
theorem lists_of_nothing_hidden (hsort : Sorts sort) {b : Browser} {dir : List String}
    (sortType : ℕ) (hm : b.usbMissing = false) (hdir : IsDir (b.nodeAt dir))
    (hhidden : ∀ x ∈ (b.nodeAt dir).children.map Prod.snd, b.hides dir x.data.name = false) :
    b.Lists dir sortType (b.showDir sort dir sortType) (b.sorted sort dir sortType) := by
  have hpair := pairwise_sorted hsort b dir sortType
  have hperm := (hsort (b.order sortType).before (b.order sortType).preorder_before
    ((b.nodeAt dir).children.map Prod.snd)).1
  have hlen : (b.sorted sort dir sortType).length = (b.nodeAt dir).children.length := by
    rw [sorted, hperm.length_eq, List.length_map]
  have hmeant : b.meant dir = (b.nodeAt dir).children.map Prod.snd := by
    refine List.filter_eq_self.mpr fun x hx => ?_
    rw [hhidden x hx]
    simp
  have hfolders : (b.sorted sort dir sortType).Pairwise foldersFirst := hpair.imp fun h => h.1
  have hordered : (b.sorted sort dir sortType).Pairwise
      fun x y => x.isLeaf = y.isLeaf → (b.order sortType).le x y :=
    hpair.imp fun hxy hkind => hxy.2 fun hx => hkind.symm.trans hx
  cases he : (b.nodeAt dir).children.isEmpty with
  | true =>
    obtain ⟨hcards, hfile, hchecked⟩ := showDir_empty sort sortType hm he
    have hnil : b.sorted sort dir sortType = [] := by
      rw [← List.length_eq_zero_iff, hlen, List.length_eq_zero_iff]
      exact List.isEmpty_iff.mp he
    refine ⟨by rw [hcards, hnil]; rfl, hmeant ▸ hperm, hfolders, hordered,
      by rw [hfile, hnil]; rfl, by rw [hchecked, hfile], ?_⟩
    rw [countLabel_showDir sortType hm, hcards, List.isEmpty_iff.mp he]
    rfl
  | false =>
    obtain ⟨hcards, hfile, hchecked⟩ := showDir_eq sort sortType hm he
    have hfilter : ((b.sorted sort dir sortType).filter fun c => !b.hides dir c.data.name) =
        b.sorted sort dir sortType := by
      refine List.filter_eq_self.mpr fun x hx => ?_
      rw [hhidden x ((mem_sorted_iff hsort b dir sortType x).mp hx)]
      rfl
    rw [cards_eq hsort sortType hdir, hfilter] at hcards
    rw [firstFile_eq hsort sortType hdir] at hfile
    refine ⟨hcards, hmeant ▸ hperm, hfolders, hordered, hfile, ?_, ?_⟩
    · rw [hchecked, hfile, hcards]
      cases hfind : (b.sorted sort dir sortType).find? KeyTree.isLeaf with
      | none => rfl
      | some x =>
        rw [Option.map_some, Option.filter_some, if_pos]
        simp only [List.any_map, List.any_eq_true]
        exact ⟨x, List.mem_of_find?_eq_some hfind, by simp [cardOf]⟩
    · rw [countLabel_showDir sortType hm, hcards, List.length_map, hlen]

/-- A child that is hidden has been counted. -/
theorem not_lists_of_hidden (hsort : Sorts sort) {b : Browser} {dir : List String}
    (sortType : ℕ) (hm : b.usbMissing = false) (hdir : IsDir (b.nodeAt dir)) {x : Tree}
    (hx : x ∈ (b.nodeAt dir).children.map Prod.snd) (hhidden : b.hides dir x.data.name = true)
    (xs : List Tree) : ¬ b.Lists dir sortType (b.showDir sort dir sortType) xs := by
  intro h
  have he : (b.nodeAt dir).children.isEmpty = false := by
    rw [List.isEmpty_eq_false_iff]
    rintro hnil
    rw [hnil] at hx
    cases hx
  have hperm := (hsort (b.order sortType).before (b.order sortType).preorder_before
    ((b.nodeAt dir).children.map Prod.snd)).1
  have hlabel := h.label
  rw [countLabel_showDir sortType hm, countText_inj, (showDir_eq sort sortType hm he).1,
    cards_eq hsort sortType hdir, List.length_map] at hlabel
  have hlen : (b.sorted sort dir sortType).length = (b.nodeAt dir).children.length := by
    rw [sorted, hperm.length_eq, List.length_map]
  have hall := List.length_filter_eq_length_iff.mp (hlabel.symm.trans hlen.symm) x
    ((mem_sorted_iff hsort b dir sortType x).mpr hx)
  rw [hhidden] at hall
  cases hall

theorem showDir_missing {b : Browser} (dir : List String) (sortType : ℕ)
    (hm : b.usbMissing = true) : b.Shows dir sortType (b.showDir sort dir sortType) := by
  rw [Shows, if_pos hm]
  unfold showDir
  dsimp only
  rw [if_pos hm, if_pos hm]
  exact ⟨rfl, rfl, rfl⟩

/-- In every state a run leads to, the listing of a folder is as it should be, for every
request, exactly when it is not the local root with a child of the USB link's name. -/
theorem shows_folder_iff (sort : StdSort) (hsort : Sorts sort) (es : List Event)
    (dir : List String) (sortType : ℕ)
    (hdir : ((run (step sort) {} es).root.get? dir).isSome) :
    (run (step sort) {} es).Shows dir sortType
      ((run (step sort) {} es).showDir sort dir sortType) ↔
    ¬ ((run (step sort) {} es).usbMissing = false ∧ (run (step sort) {} es).usbView = false ∧
      dir = [] ∧ ((run (step sort) {} es).root.children.lookup usbDirName).isSome) := by
  have hvalid : (run (step sort) {} es).Valid := run_of_step valid_step valid_start es
  generalize run (step sort) {} es = b at *
  cases hm : b.usbMissing with
  | true => exact iff_of_true (showDir_missing dir sortType hm) (by simp)
  | false =>
    obtain ⟨l, hl⟩ := hvalid.tree
    obtain ⟨files, -, hbuild⟩ := Listing.tree_eq_build l
    have hget := get?_nodeAt hdir
    have hisDir : IsDir (b.nodeAt dir) := by
      rw [hl, hbuild] at hget
      exact isDir_of_build hget
    have hroot : b.usbView = false ∧ dir = [] ∧ (b.root.children.lookup usbDirName).isSome ↔
        b.usbView = false ∧ dir = [] ∧ ((b.nodeAt dir).children.lookup usbDirName).isSome := by
      refine and_congr_right fun _ => and_congr_right fun hnil => ?_
      rw [hnil]
      rfl
    rw [Shows, if_neg (by simp [hm]), hroot, ← exists_hidden_iff hisDir]
    constructor
    · rintro ⟨xs, h⟩ ⟨-, x, hx, hhidden⟩
      exact not_lists_of_hidden hsort sortType hm hisDir hx hhidden xs h
    · intro h
      exact ⟨_, lists_of_nothing_hidden hsort sortType hm hisDir fun x hx =>
        Bool.not_eq_true _ ▸ fun hx' => h ⟨rfl, x, hx, hx'⟩⟩

/-- The panel after a listing has come. -/
def listed (l : Listing) : Browser :=
  run (step insertionSort) {} [.refresh, .reply (some l)]

/-- A folder in the local root, newest first. -/
theorem shows_folder_usb_models : Sorts insertionSort ∧ ((listed usbModels).root.get? []).isSome ∧
    (listed usbModels).Shows [] SortKey.modified.bit
      ((listed usbModels).showDir insertionSort [] SortKey.modified.bit) :=
  ⟨sorts_insertionSort, rfl,
    (shows_folder_iff insertionSort sorts_insertionSort _ [] _ rfl).mpr (by decide)⟩

/-- A file beside the USB drive. -/
def besideUsb : Listing where
  files := [⟨"b.gcode", 2⟩, ⟨"usb/a.gcode", 1⟩]
  paths := by
    rw [List.forall_mem_cons, List.forall_mem_singleton]
    exact ⟨⟨["b.gcode"], by decide, by simp [IsName], rfl⟩,
      ⟨["usb", "a.gcode"], by decide, by simp [IsName], rfl⟩⟩

/-- One card is shown, under a label that counts two files. -/
theorem usb_folder_counted : ¬ (listed besideUsb).Shows [] SortKey.modified.bit
    ((listed besideUsb).showDir insertionSort [] SortKey.modified.bit) := by
  have hm : (listed besideUsb).usbMissing = false := by decide
  rw [Shows, if_neg (by simp [hm])]
  rintro ⟨xs, h⟩
  have hlabel := h.label
  revert hlabel
  decide

end Browser
end PowerScreen.Files
