import PowerScreen.Files.Listing
import PowerScreen.Library.Json

/-! # The files panel around the browser

Next to the cards there is the detail card of the selected file, the menu and the dialog
that delete a file, and the prompt that is shown when a print is running. Every listing of
a folder closes the dialogs, selects a file and asks for the metadata it lacks.
-/
namespace PowerScreen.Files
open Library Library.Run

namespace Browser

/-- The events that end in `show_dir`. -/
def lists (b : Browser) : Event → Bool
  | .refresh => false
  | .setStorage _ => false
  | .tap i => match b.cards[i]? with
    | none => false
    | some c => match c.node with
      | none => (b.nodeAt b.curDir).data.parent ≠ b.curDir
      | some n => !(b.nodeAt n).isLeaf
  | .sortBtn _ => true
  | .reply _ => b.pending ≠ 0

/-- The file of the card that is tapped. -/
def tapped (b : Browser) : Event → Option (List String)
  | .tap i => (b.cards[i]?.bind Card.node).filter fun n => (b.nodeAt n).isLeaf
  | _ => none

/-- What a listing finds: the tree, the folder to show and whether the drive is missing. -/
def opened (b : Browser) : Event → Browser
  | .tap i => { b with
      curDir := (b.cards[i]?.bind Card.node).getD (b.nodeAt b.curDir).data.parent }
  | .reply listing =>
    let t := Listing.tree listing
    let curPath := (b.nodeAt b.curDir).data.fullPath
    { b with
      root := t
      curFile := none
      usbMissing := b.usbView && (t.children.lookup usbDirName).isNone
      curDir := place b.usbView t curPath (findPath t (split curPath))
      pending := b.pending - 1
      sortedBy := SortKey.modified.bit }
  | _ => b

def hasCard (b : Browser) (q : List String) : Bool := b.cards.any (·.node = some q)

end Browser

/-- The menu of a long press and the dialog that asks before a file is deleted. -/
structure Deletion where
  target : Option (List String) := none
  contextShown : Bool := false
  confirmShown : Bool := false
  confirmText : String := ""
  /-- The file that the dialog was opened for. -/
  about : List String := []
  acceptEnabled : Bool := true
  /-- Requests without a reply. -/
  pending : ℕ := 0
  /-- The paths of the requests. -/
  sent : List String := []

namespace Deletion

def hideAll (d : Deletion) : Deletion := { d with contextShown := false, confirmShown := false }

def showContext (d : Deletion) (q : List String) : Deletion :=
  { d with target := some q, contextShown := true, confirmShown := false }

def question (name : String) : String := name ++ "\nThis cannot be undone."

def showConfirmation (b : Browser) (d : Deletion) : Deletion :=
  match d.target with
  | none => d
  | some q =>
    { d with
      confirmText := question (b.nodeAt q).data.name
      about := q
      contextShown := false
      confirmShown := true
      acceptEnabled := true }

def accept (b : Browser) (d : Deletion) : Deletion :=
  match d.target with
  | none => { d with confirmShown := false }
  | some q =>
    { d with
      acceptEnabled := false
      pending := d.pending + 1
      sent := d.sent ++ ["gcodes/" ++ (b.nodeAt q).data.fullPath] }

/-- The reply to a request; an error leaves the dialog open. -/
def answered (d : Deletion) (ok : Bool) : Deletion :=
  let d := { d with pending := d.pending - 1, acceptEnabled := true }
  if ok then { d with target := none, confirmShown := false } else d

end Deletion

/-- A request for metadata, made for a card or for the detail card. -/
structure Request where
  path : String
  detail : Bool
deriving DecidableEq

structure Details where
  /-- The metadata kept in the nodes. -/
  metadata : List String → Option Json := fun _ => none
  /-- Requests without a reply. -/
  requests : List Request := []
  /-- The file in the detail card, with what is shown of it. -/
  shown : Option (String × Json) := none

namespace Details

/-- A card of a file without metadata asks for it. -/
def wanted (b : Browser) (d : Details) : List Request :=
  b.cards.filterMap fun c => c.node.bind fun n =>
    if (b.nodeAt n).isLeaf && (d.metadata n).isNone then some ⟨c.path, false⟩ else none

def showFileDetail (b : Browser) (d : Details) (q : List String) : Details :=
  let path := (b.nodeAt q).data.fullPath
  if (b.nodeAt q).isLeaf then
    match d.metadata q with
    | some j => { d with shown := some (path, j) }
    | none => { d with requests := d.requests ++ [⟨path, true⟩] }
  else d

/-- The cards have been listed anew, and the first file is selected if it has one. -/
def listed (b : Browser) (d : Details) : Details :=
  let d := { d with requests := d.requests ++ d.wanted b }
  match b.curFile with
  | none => d
  | some q => if b.hasCard q then d.showFileDetail b q else d

/-- The card with a path, as the node that it stands for. -/
def cardOf (b : Browser) (path : String) : Option (List String) :=
  (b.cards.find? fun c => c.path = path && c.node.isSome).bind Card.node

/-- A reply without a result changes nothing. -/
def answered (b : Browser) (d : Details) (r : Request) (j : Json) : Details :=
  if j.contains "result" then
    match cardOf b r.path with
    | none => d
    | some n =>
      let d := { d with metadata := Function.update d.metadata n (some j) }
      if r.detail && b.curFile = some n then
        { d with shown := some ((b.nodeAt n).data.fullPath, j) }
      else d
  else d

end Details

structure Screen where
  browser : Browser := {}
  deletion : Deletion := {}
  details : Details := {}
  promptShown : Bool := false
  /-- The files whose print has been started. -/
  started : List String := []

namespace Screen

inductive Event where
  | browse (e : Files.Event)
  | longPress (card : ℕ)
  | menu
  | outside
  | trash
  | cancel
  | accept
  | deleted (ok : Bool)
  /-- The views of the timelapses and of the history. -/
  | extra
  | metadata (i : ℕ) (j : Json)
  /-- The print button, with the print state of the store. -/
  | print (status : Option String)
  | promptCancel

/-- A reply has emptied the tree before the listing, and the metadata with it. -/
def detailsBefore (s : Screen) : Files.Event → Details
  | .reply _ => { s.details with metadata := fun _ => none }
  | _ => s.details

variable (sort : StdSort)

def browse (s : Screen) (e : Files.Event) : Screen :=
  let b := s.browser.step sort e
  if s.browser.lists e then
    { s with
      browser := b
      deletion := { s.deletion.hideAll with target := none }
      details := (s.detailsBefore e).listed b }
  else
    { s with
      browser := b
      details := (s.browser.tapped e).elim s.details (s.details.showFileDetail b) }

def handlePrint (s : Screen) (status : Option String) : Screen :=
  match s.browser.curFile with
  | none => s
  | some q =>
    if status ≠ none ∧ status ≠ some "printing" ∧ status ≠ some "paused" then
      { s with started := s.started ++ [(s.browser.nodeAt q).data.fullPath] }
    else { s with promptShown := true }

/-- Hidden and disabled buttons get no taps. -/
def step (s : Screen) : Event → Screen
  | .browse e => s.browse sort e
  | .longPress i => match s.browser.cards[i]?.bind Card.node with
    | none => s
    | some n =>
      if (s.browser.nodeAt n).isLeaf then { s with deletion := s.deletion.showContext n } else s
  | .menu =>
    if s.deletion.contextShown then
      { s with deletion := s.deletion.showConfirmation s.browser }
    else s
  | .outside =>
    if s.deletion.contextShown then
      { s with deletion := { s.deletion with contextShown := false, target := none } }
    else s
  | .trash => match s.browser.curFile with
    | none => s
    | some q =>
      { s with
        deletion := ({ s.deletion with target := some q } : Deletion).showConfirmation s.browser }
  | .cancel =>
    if s.deletion.confirmShown then
      { s with deletion := { s.deletion with confirmShown := false, target := none } }
    else s
  | .accept =>
    if s.deletion.confirmShown && s.deletion.acceptEnabled then
      { s with deletion := s.deletion.accept s.browser }
    else s
  | .deleted ok =>
    if s.deletion.pending = 0 then s
    else
      { s with
        deletion := s.deletion.answered ok
        browser := if ok then s.browser.step sort .refresh else s.browser }
  | .extra => { s with deletion := s.deletion.hideAll }
  | .metadata i j => match s.details.requests[i]? with
    | none => s
    | some r =>
      { s with
        details := ({ s.details with
          requests := s.details.requests.eraseIdx i } : Details).answered s.browser r j }
  | .print status => s.handlePrint status
  | .promptCancel =>
    if s.promptShown && s.browser.curFile.isSome then { s with promptShown := false } else s

end Screen

namespace Browser

variable (sort : StdSort)

/-- A listing shows the folder it ends in. -/
theorem step_of_lists {b : Browser} (h : b.Valid) {e : Event} (hl : b.lists e) :
    (∃ sortType, b.step sort e = (b.opened e).showDir sort (b.opened e).curDir sortType) ∧
      (∃ l, (b.opened e).root = Listing.tree l) ∧
        ((b.opened e).root.get? (b.opened e).curDir).isSome := by
  cases e with
  | refresh => cases hl
  | setStorage usb => cases hl
  | tap i =>
    unfold lists at hl
    cases hc : b.cards[i]? with
    | none => simp [hc] at hl
    | some c =>
      obtain ⟨n, hn, hsome⟩ := h.cards c (List.mem_of_getElem? hc)
      have hleaf : (b.nodeAt n).isLeaf = false := by simpa [hc, hn] using hl
      have hopened : b.opened (.tap i) = { b with curDir := n } := by
        simp only [opened, hc, Option.bind_some, hn, Option.getD_some]
      rw [hopened]
      refine ⟨⟨b.sortedBy, ?_⟩, h.tree, hsome⟩
      simp only [step, hc, handleFileCard, hn, hleaf]
      rfl
  | sortBtn key => exact ⟨⟨key.bit, rfl⟩, h.tree, h.dir⟩
  | reply l =>
    have hp : b.pending ≠ 0 := of_decide_eq_true hl
    refine ⟨⟨SortKey.modified.bit, ?_⟩, ⟨l, rfl⟩, isSome_get?_place _ _ _ _⟩
    rw [step, if_neg hp]
    rfl

/-- The other events leave the tree and the cards; a tap may select a file. -/
theorem step_of_not_lists {b : Browser} {e : Event} (hl : b.lists e = false) :
    (b.step sort e).root = b.root ∧ (b.step sort e).cards = b.cards ∧
      (b.step sort e).curFile = (b.tapped e).or b.curFile := by
  cases e with
  | refresh => exact ⟨rfl, rfl, rfl⟩
  | setStorage usb => exact ⟨rfl, rfl, rfl⟩
  | tap i =>
    unfold lists at hl
    cases hc : b.cards[i]? with
    | none => simp [step, tapped, hc]
    | some c =>
      cases hn : c.node with
      | none =>
        have hparent : (b.nodeAt b.curDir).data.parent = b.curDir := by simpa [hc, hn] using hl
        simp [step, tapped, hc, handleFileCard, hn, hparent]
      | some n =>
        have hleaf : (b.nodeAt n).isLeaf = true := by simpa [hc, hn] using hl
        simp [step, tapped, hc, handleFileCard, hn, hleaf, Option.filter]
  | sortBtn key => cases hl
  | reply l =>
    have hp : b.pending = 0 := by simpa [lists] using hl
    simp [step, tapped, hp]

end Browser

namespace Screen

variable (sort : StdSort)

theorem sent_showConfirmation (b : Browser) (d : Deletion) :
    (d.showConfirmation b).sent = d.sent := by
  unfold Deletion.showConfirmation
  cases d.target <;> rfl

theorem sent_answered (d : Deletion) (ok : Bool) : (d.answered ok).sent = d.sent := by
  cases ok <;> rfl

/-- What the events leave alone that are not the browser's own: it may be asked for a listing
only, the details change with a reply, the prompt opens for a selected file, and the accept
button alone sends a request. -/
structure Framed (s : Screen) (e : Event) (t : Screen) : Prop where
  browser : t.browser = s.browser ∨ t.browser = s.browser.step sort .refresh
  details : (∀ i j, e ≠ .metadata i j) → t.details = s.details
  prompt : t.promptShown → s.promptShown ∨ s.browser.curFile ≠ none
  sent : e ≠ .accept → t.deletion.sent = s.deletion.sent

theorem framed_self (s : Screen) (e : Event) : Framed sort s e s :=
  ⟨Or.inl rfl, fun _ => rfl, Or.inl, fun _ => rfl⟩

theorem framed_deletion (s : Screen) (e : Event) {d : Deletion} (h : d.sent = s.deletion.sent) :
    Framed sort s e { s with deletion := d } :=
  ⟨Or.inl rfl, fun _ => rfl, Or.inl, fun _ => h⟩

theorem framed_step (s : Screen) {e : Event} (h : ∀ f, e ≠ .browse f) :
    Framed sort s e (s.step sort e) := by
  cases e with
  | browse f => exact absurd rfl (h f)
  | longPress i =>
    simp only [step]
    cases s.browser.cards[i]?.bind Card.node with
    | none => exact framed_self sort s _
    | some n =>
      dsimp only
      split_ifs
      · exact framed_deletion sort s _ rfl
      · exact framed_self sort s _
  | menu =>
    simp only [step]
    split_ifs
    · exact framed_deletion sort s _ (sent_showConfirmation _ _)
    · exact framed_self sort s _
  | trash =>
    simp only [step]
    cases s.browser.curFile with
    | none => exact framed_self sort s _
    | some q => exact framed_deletion sort s _ (sent_showConfirmation _ _)
  | accept =>
    simp only [step]
    split_ifs
    · exact ⟨Or.inl rfl, fun _ => rfl, Or.inl, fun he => absurd rfl he⟩
    · exact framed_self sort s _
  | deleted ok =>
    simp only [step]
    split_ifs
    · exact framed_self sort s _
    · exact ⟨Or.inr rfl, fun _ => rfl, Or.inl, fun _ => sent_answered _ _⟩
    · exact ⟨Or.inl rfl, fun _ => rfl, Or.inl, fun _ => sent_answered _ _⟩
  | extra => exact framed_deletion sort s _ rfl
  | metadata i j =>
    simp only [step]
    cases s.details.requests[i]? with
    | none => exact framed_self sort s _
    | some r => exact ⟨Or.inl rfl, fun he => absurd rfl (he i j), Or.inl, fun _ => rfl⟩
  | print status =>
    simp only [step, handlePrint]
    cases hfile : s.browser.curFile with
    | none => exact framed_self sort s _
    | some q =>
      have hselected : s.browser.curFile ≠ none := by rw [hfile]; exact Option.some_ne_none q
      dsimp only
      split_ifs
      all_goals exact ⟨Or.inl rfl, fun _ => rfl, fun _ => Or.inr hselected, fun _ => rfl⟩
  | promptCancel =>
    simp only [step]
    split_ifs
    · exact ⟨Or.inl rfl, fun _ => rfl, fun hshown => absurd hshown Bool.false_ne_true, fun _ => rfl⟩
    · exact framed_self sort s _
  | outside | cancel =>
    simp only [step]
    split_ifs
    · exact framed_deletion sort s _ rfl
    · exact framed_self sort s _

end Screen

end PowerScreen.Files
