import Mathlib.Data.Nat.Bitwise
import PowerScreen.Files.Refresh

/-! # The order of the listing

The field of the panel holds the bit of a key when that key's listing was ascending,
so that the next tap turns it around, and nothing when it was descending. Entering a
folder asks for an order with this field, which is never the one that is shown.
-/
namespace PowerScreen.Files
open Library Library.Run

/-- The button of a key turns its order around, and starts ascending after another. -/
def Order.tapped (o : Order) (key : SortKey) : Order :=
  if o.key = key then ⟨key, !o.reversed⟩ else ⟨key, false⟩

/-- The field when this order is shown. -/
def Order.field (o : Order) : ℕ := if o.reversed then 0 else o.key.bit

namespace Browser

variable {sort : StdSort}

/-- A tap on this card shows another folder. -/
def Opens (b : Browser) (c : Card) : Prop := match c.node with
  | none => (b.nodeAt b.curDir).data.parent ≠ b.curDir
  | some n => (b.nodeAt n).isLeaf = false

/-- The event enters a folder. -/
def Enters (b : Browser) : Event → Prop
  | .tap i => ∃ c, b.cards[i]? = some c ∧ b.Opens c
  | _ => False

/-- A folder is entered in the order that is shown, and a button changes it as it says. -/
def Ordered (sort : StdSort) (b : Browser) : Event → Prop
  | .sortBtn key => ∀ o, b.shown = some o → (b.step sort (.sortBtn key)).shown = some (o.tapped key)
  | .tap i => b.Enters (.tap i) → (b.step sort (.tap i)).shown = b.shown
  | _ => True

/-- The field fits the order that is shown, and what is shown has something to list. -/
structure Fits (b : Browser) : Prop where
  valid : b.Valid
  field : ∀ o, b.shown = some o → b.sortedBy = o.field
  listed : ∀ o, b.shown = some o → b.usbMissing = false ∧
    (b.nodeAt b.curDir).children.isEmpty = false
  cards : b.cards ≠ [] → b.shown.isSome

theorem showDir_nothing (sort : StdSort) {b : Browser} {dir : List String} (sortType : ℕ)
    (h : b.usbMissing = true ∨ (b.nodeAt dir).children.isEmpty = true) :
    (b.showDir sort dir sortType).shown = none ∧ (b.showDir sort dir sortType).cards = [] ∧
      (b.showDir sort dir sortType).sortedBy = b.sortedBy := by
  unfold showDir
  dsimp only
  split_ifs with hm he
  · exact ⟨rfl, rfl, rfl⟩
  · exact ⟨rfl, rfl, rfl⟩
  · rcases h with h | h
    · exact absurd h hm
    · exact absurd h he

theorem showDir_listed (sort : StdSort) {b : Browser} {dir : List String} (sortType : ℕ)
    (hm : b.usbMissing = false) (he : (b.nodeAt dir).children.isEmpty = false) :
    (b.showDir sort dir sortType).shown = some (b.order sortType) ∧
      (b.showDir sort dir sortType).sortedBy = (b.sortedBy ^^^ sortType) &&& sortType := by
  unfold showDir
  dsimp only
  rw [if_neg (by simp [hm]), if_neg (by simp [he])]
  exact ⟨rfl, rfl⟩

/-- Toggling the bit of a key leaves it set where it was not. -/
theorem toggle_bit (s : ℕ) (key : SortKey) :
    (s ^^^ key.bit) &&& key.bit = if s &&& key.bit ≠ 0 then 0 else key.bit := by
  have htoggle (i : ℕ) : (s ^^^ 2 ^ i) &&& 2 ^ i = if s &&& 2 ^ i ≠ 0 then 0 else 2 ^ i := by
    rw [Nat.and_xor_distrib_right, Nat.and_self, Nat.and_two_pow]
    cases s.testBit i <;> simp
  cases key with
  | name => exact htoggle 0
  | modified => exact htoggle 1

/-- A listing by a key leaves the field that fits its order. -/
theorem order_bit (b : Browser) (key : SortKey) : (b.order key.bit).key = key ∧
    (b.sortedBy ^^^ key.bit) &&& key.bit = (b.order key.bit).field := by
  have hkey : (b.order key.bit).key = key := by cases key <;> rfl
  refine ⟨hkey, ?_⟩
  rw [toggle_bit, Order.field, hkey, order]
  simp

/-- A field that fits turns the order around for its own key only. -/
theorem order_eq_tapped {b : Browser} {o : Order} (h : b.sortedBy = o.field) (key : SortKey) :
    b.order key.bit = o.tapped key := by
  obtain ⟨okey, reversed⟩ := o
  rw [order, h]
  cases okey <;> cases reversed <;> cases key <;> rfl

/-- It asks for an order of its own in a folder. -/
theorem order_field_ne {b : Browser} {o : Order} (h : b.sortedBy = o.field) :
    b.order b.sortedBy ≠ o := by
  obtain ⟨okey, reversed⟩ := o
  rw [order, h]
  cases okey <;> cases reversed <;> decide

theorem nodeAt_congr {b c : Browser} (h : c.root = b.root) (q : List String) :
    c.nodeAt q = b.nodeAt q := by
  rw [nodeAt, nodeAt, h]

/-- Listing the current folder by a key. -/
theorem fits_showDir {b : Browser} (htree : ∃ l, b.root = Listing.tree l)
    (hcur : (b.root.get? b.curDir).isSome) (key : SortKey) :
    (b.showDir sort b.curDir key.bit).Fits := by
  have hvalid : (b.showDir sort b.curDir key.bit).Valid := valid_showDir htree hcur hcur _
  obtain ⟨hroot, hdir, -, hmissing, -⟩ := showDir_frame sort b b.curDir key.bit
  by_cases hnothing : b.usbMissing = true ∨ (b.nodeAt b.curDir).children.isEmpty = true
  · obtain ⟨hshown, hcards, -⟩ := showDir_nothing sort key.bit hnothing
    refine ⟨hvalid, fun o ho => ?_, fun o ho => ?_, fun hne => absurd hcards hne⟩
    all_goals
      rw [hshown] at ho
      cases ho
  · rw [not_or, Bool.not_eq_true, Bool.not_eq_true] at hnothing
    obtain ⟨hshown, hfield⟩ := showDir_listed sort key.bit hnothing.1 hnothing.2
    refine ⟨hvalid, fun o ho => ?_, fun o _ => ?_, fun _ => by rw [hshown]; rfl⟩
    · rw [hfield, (b.order_bit key).2]
      rw [hshown, Option.some.injEq] at ho
      rw [ho]
    · rw [hmissing, hdir, nodeAt_congr hroot]
      exact hnothing

theorem fits_start : Fits {} where
  valid := valid_start
  field _ h := nomatch h
  listed _ h := nomatch h
  cards h := absurd rfl h

/-- The root has children if any folder has. -/
theorem Valid.root_children {b : Browser} (h : b.Valid)
    (hdir : (b.nodeAt b.curDir).children.isEmpty = false) :
    (b.nodeAt []).children.isEmpty = false := by
  cases hq : b.curDir with
  | nil => rwa [hq] at hdir
  | cons k q =>
    have hsome := h.dir
    rw [hq, KeyTree.get?] at hsome
    have hroot : b.nodeAt [] = b.root := rfl
    rw [hroot]
    cases hc : b.root.children with
    | nil => simp [hc] at hsome
    | cons m ms => rfl

theorem Fits.setStorage {b : Browser} (h : b.Fits) (usb : Bool) : (b.setStorage usb).Fits where
  valid := ⟨h.valid.tree, rfl, h.valid.cards⟩
  field := h.field
  listed o ho := ⟨(h.listed o ho).1, h.valid.root_children (h.listed o ho).2⟩
  cards := h.cards

/-- Events that enter no folder keep the field fitting. -/
theorem fits_step {b : Browser} (e : Event) (h : b.Fits) (hstay : ¬ b.Enters e) :
    (b.step sort e).Fits := by
  cases e with
  | refresh => exact ⟨⟨h.valid.tree, h.valid.dir, h.valid.cards⟩, h.field, h.listed, h.cards⟩
  | setStorage usb => exact h.setStorage usb
  | tap i =>
    dsimp only [step]
    cases hc : b.cards[i]? with
    | none => exact h
    | some c =>
      have hopens : ¬ b.Opens c := fun ho => hstay ⟨c, hc, ho⟩
      rw [Opens] at hopens
      dsimp only
      rw [handleFileCard]
      cases hn : c.node with
      | none =>
        rw [hn] at hopens
        dsimp only at hopens ⊢
        rw [if_neg hopens]
        exact h
      | some n =>
        rw [hn] at hopens
        dsimp only at hopens ⊢
        rw [if_pos (Bool.not_eq_false _ ▸ hopens)]
        exact ⟨⟨h.valid.tree, h.valid.dir, h.valid.cards⟩, h.field, h.listed, h.cards⟩
  | sortBtn key => exact fits_showDir h.valid.tree h.valid.dir key
  | reply l =>
    dsimp only [step]
    split_ifs
    · exact h
    · exact fits_showDir ⟨l, rfl⟩ (isSome_get?_place _ _ _ _) .modified

/-- A folder that is entered is not listed in the order that was shown. -/
theorem shown_enter_ne {b : Browser} (h : b.Fits) {i : ℕ} (he : b.Enters (.tap i)) :
    (b.step sort (.tap i)).shown ≠ b.shown := by
  obtain ⟨c, hc, hopens⟩ := he
  have hsome : b.shown.isSome := h.cards fun hnil => by simp [hnil] at hc
  obtain ⟨o, ho⟩ := Option.isSome_iff_exists.mp hsome
  obtain ⟨n, hn, hget⟩ := h.valid.cards c (List.mem_of_getElem? hc)
  rw [Opens, hn] at hopens
  have hstep : b.step sort (.tap i) = b.enter sort n := by
    dsimp only [step]
    rw [hc]
    dsimp only
    rw [handleFileCard, hn]
    exact if_neg (by simp [hopens])
  have hlisted : (b.enter sort n).shown = some (b.order b.sortedBy) :=
    (showDir_listed sort (b := { b with curDir := n }) b.sortedBy (h.listed o ho).1 hopens).1
  rw [hstep, hlisted, ho]
  exact fun heq => order_field_ne (h.field o ho) (Option.some.inj heq)

theorem ordered_iff {b : Browser} (h : b.Fits) (e : Event) :
    b.Ordered sort e ↔ ¬ b.Enters e := by
  cases e with
  | tap i =>
    constructor
    · exact fun hord he => shown_enter_ne h he (hord he)
    · exact fun hstay he => absurd he hstay
  | sortBtn key =>
    refine iff_of_true (fun o ho => ?_) fun he => he
    obtain ⟨hm, he⟩ := h.listed o ho
    rw [step, (showDir_listed sort key.bit hm he).1, order_eq_tapped (h.field o ho)]
  | _ => exact iff_of_true trivial fun he => he

/-- In every run the folders are entered in the order that is shown, and the buttons
change it as they say, exactly when no folder is entered at all. -/
theorem ordered_each_step_iff (sort : StdSort) (es : List Event) :
    EachStep (step sort) (Ordered sort) {} es ↔
      EachStep (step sort) (fun b e => ¬ b.Enters e) {} es :=
  eachStep_iff_of_invariant (D := fun b e => ¬ b.Enters e) (I := Fits)
    (fun _ e h => ordered_iff h e) (fun _ e h hstay => fits_step e h hstay) fits_start es

/-- The newest file comes first, a folder is entered, and its files come by name. -/
theorem entered_by_name : ¬ EachStep (step insertionSort) (Ordered insertionSort) {}
    [.refresh, .reply (some usbModels), .tap 0] := by
  intro h
  have hopens : (nodeAt (run (step insertionSort) {} [.refresh, .reply (some usbModels)])
    ["usb-models"]).isLeaf = false := by decide
  have hlast := h.2.2.1 ⟨⟨some ["usb-models"], "usb-models", true⟩, by decide, hopens⟩
  revert hlast
  decide

end Browser
end PowerScreen.Files
