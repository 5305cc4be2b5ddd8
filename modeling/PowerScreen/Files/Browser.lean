import PowerScreen.Library.Run
import PowerScreen.Library.TieBreak
import PowerScreen.Files.Built

/-! # The file browser

The panel shows one folder of the tree as a list of cards, in the view of the local
storage or in that of the USB drive, which is linked into the root under a name of
its own. Every reply to a listing builds the tree anew. The sort of the standard
library is a parameter: where two entries compare equal it is free.
-/
namespace PowerScreen.Files
open Library Library.Run

def usbDirName : String := "usb"

inductive SortKey where
  | name
  | modified
deriving DecidableEq

/-- The bit of a key in the field. -/
def SortKey.bit : SortKey → ℕ
  | name => 1 <<< 0
  | modified => 1 <<< 1

structure Order where
  key : SortKey
  reversed : Bool
deriving DecidableEq

/-- The two comparisons by a key, each in both directions. -/
def Order.keyBefore (o : Order) (x y : Tree) : Bool := match o.key with
  | .modified =>
    if o.reversed then x.data.dateModified > y.data.dateModified
    else y.data.dateModified > x.data.dateModified
  | .name => if o.reversed then x.data.name > y.data.name else y.data.name > x.data.name

/-- The comparison of `show_dir`: folders come first. -/
def Order.before (o : Order) (x y : Tree) : Bool :=
  if x.isLeaf && !y.isLeaf then false
  else if !x.isLeaf && y.isLeaf then true
  else o.keyBefore x y

/-- A card of the grid; one without a node leads up. -/
structure Card where
  node : Option (List String)
  path : String
  directory : Bool
deriving DecidableEq

structure Browser where
  root : Tree := Files.root
  curDir : List String := []
  curFile : Option (List String) := none
  usbView : Bool := false
  usbMissing : Bool := false
  sortedBy : ℕ := SortKey.modified.bit
  sortModified : Bool := true
  cards : List Card := []
  /-- The node of the card that is highlighted. -/
  checked : Option (List String) := none
  countLabel : String := ""
  /-- The order of the cards that are shown. -/
  shown : Option Order := none
  /-- Listings that have been asked for. -/
  pending : ℕ := 0

/-- A listing: relative paths with no empty component. -/
structure Listing where
  files : List File
  paths : ∀ f ∈ files, IsPath f.path

inductive Event where
  /-- The reload button, a deleted file, a new connection. -/
  | refresh
  | setStorage (usb : Bool)
  | tap (card : ℕ)
  | sortBtn (key : SortKey)
  /-- A reply without a result has no files. -/
  | reply (listing : Option Listing)

/-- `std::sort` with a comparison. -/
abbrev StdSort := (Tree → Tree → Bool) → List Tree → List Tree

/-- What is promised of the sort, for a comparison that is a strict weak order. -/
def Sorts (sort : StdSort) : Prop :=
  ∀ lt : Tree → Tree → Bool, TotalPreorder (fun a b => lt b a = false) →
    ∀ xs, (sort lt xs).Perm xs ∧ (sort lt xs).Pairwise fun a b => lt b a = false

/-- One way to do it. -/
def insertionSort : StdSort := fun lt xs => xs.insertionSort fun a b => lt b a = false

theorem sorts_insertionSort : Sorts insertionSort := by
  intro lt h xs
  have : Std.Total fun a b => lt b a = false := ⟨h.total⟩
  have : IsTrans Tree fun a b => lt b a = false := ⟨h.trans⟩
  exact ⟨List.perm_insertionSort _ xs, List.pairwise_insertionSort _ xs⟩

def countText (usbView : Bool) (n : ℕ) : String :=
  (if usbView then "USB" else "Local") ++ " - " ++ n.repr ++ " files"

def Listing.tree : Option Listing → Tree
  | none => root
  | some l => build l.files

def startsWithUsb (s : String) : Bool := usbDirName.toList.isPrefixOf s.toList

namespace Browser

/-- The node that a pointer leads to. -/
def nodeAt (b : Browser) (q : List String) : Tree := (b.root.get? q).getD Files.root

/-- The order that a request asks for. -/
def order (b : Browser) (sortType : ℕ) : Order where
  key := if sortType = SortKey.modified.bit then .modified else .name
  reversed := b.sortedBy &&& sortType ≠ 0

/-- The USB link is only shown in the USB view. -/
def hides (b : Browser) (dir : List String) (name : String) : Bool :=
  !b.usbView && dir = [] && name = usbDirName

def card (node : Tree) (dir : List String) (c : Tree) : Option Card :=
  (node.children.lookup c.data.name).map fun n =>
    ⟨some (dir ++ [c.data.name]), n.data.fullPath, !n.isLeaf⟩

/-- The first file of the sorted children, if it is still a child. -/
def firstFile (node : Tree) (dir : List String) (sorted : List Tree) : Option (List String) :=
  (sorted.find? KeyTree.isLeaf).bind fun c =>
    if (node.children.lookup c.data.name).isSome then some (dir ++ [c.data.name]) else none

def showDir (sort : StdSort) (b : Browser) (dir : List String) (sortType : ℕ) : Browser :=
  let node := b.nodeAt dir
  let b := { b with
    cards := []
    checked := none
    shown := none
    sortModified := sortType = SortKey.modified.bit
    countLabel := if b.usbMissing then "" else countText b.usbView node.children.length }
  if b.usbMissing then { b with curFile := none }
  else if node.children.isEmpty then { b with curFile := none }
  else
    let sorted := sort (b.order sortType).before (node.children.map Prod.snd)
    let cards := (sorted.filter fun c => !b.hides dir c.data.name).filterMap (card node dir)
    { b with
      shown := some (b.order sortType)
      sortedBy := (b.sortedBy ^^^ sortType) &&& sortType
      cards := cards
      curFile := firstFile node dir sorted
      checked := (firstFile node dir sorted).filter fun n => cards.any (·.node = some n) }

def populateFiles (sort : StdSort) (b : Browser) : Browser :=
  { b with sortedBy := SortKey.modified.bit }.showDir sort b.curDir SortKey.modified.bit

/-- Where a reply leads: `dir` is what is left of the old folder, at `curPath`. -/
def place (usbView : Bool) (t : Tree) (curPath : String) (dir : List String) : List String :=
  let usb := t.children.lookup usbDirName
  if usbView then (if usb.isSome && dir = [] then [usbDirName] else dir)
  else if startsWithUsb curPath then [] else dir

def handleReply (sort : StdSort) (b : Browser) (t : Tree) : Browser :=
  let curPath := (b.nodeAt b.curDir).data.fullPath
  { b with
    root := t
    curFile := none
    usbMissing := b.usbView && (t.children.lookup usbDirName).isNone
    curDir := place b.usbView t curPath (findPath t (split curPath))
    pending := b.pending - 1 }.populateFiles sort

def setStorage (b : Browser) (usb : Bool) : Browser :=
  { b with usbView := usb, curDir := [], pending := b.pending + 1 }

/-- Enter a folder, in the order of the field. -/
def enter (sort : StdSort) (b : Browser) (dir : List String) : Browser :=
  { b with curDir := dir }.showDir sort dir b.sortedBy

def handleFileCard (sort : StdSort) (b : Browser) (c : Card) : Browser :=
  match c.node with
  | none =>
    let parent := (b.nodeAt b.curDir).data.parent
    if parent ≠ b.curDir then b.enter sort parent else b
  | some n => if (b.nodeAt n).isLeaf then { b with curFile := some n, checked := some n }
    else b.enter sort n

def step (sort : StdSort) (b : Browser) : Event → Browser
  | .refresh => { b with pending := b.pending + 1 }
  | .setStorage usb => b.setStorage usb
  | .tap i => match b.cards[i]? with
    | none => b
    | some c => b.handleFileCard sort c
  | .sortBtn key => b.showDir sort b.curDir key.bit
  | .reply listing => if b.pending = 0 then b else b.handleReply sort (Listing.tree listing)

end Browser
end PowerScreen.Files
