import PowerScreen.Library.Json

/-! # The history and the timelapse videos

A list of jobs or videos with a card for the selected one. The selection is a place in the list,
and every reply replaces the list. A tap on a row is handled after the event that it came in.
-/
namespace PowerScreen.FilesExtra
open Library

inductive Mode where
  | timelapse
  | history
  deriving DecidableEq

structure HistoryJob where
  filename : String
  status : String
  start : ℚ
  duration : ℚ
  filamentMm : ℚ
  weightG : ℚ
  stillExists : Bool

structure Video where
  path : String
  modified : ℚ
  size : ℚ
  thumb : String

/-- What tells the items apart: a file is printed at a time, a video has a path. -/
inductive Key where
  | job (filename : String) (start : ℚ)
  | video (path : String)
  deriving DecidableEq

def HistoryJob.key (h : HistoryJob) : Key := .job h.filename h.start

def Video.key (v : Video) : Key := .video v.path

structure View where
  mode : Mode
  shown : Bool
  selected : ℤ
  jobs : List HistoryJob
  videos : List Video
  /-- The items that the rows were built for. -/
  rows : List Key

def View.new : View := ⟨.history, false, -1, [], [], []⟩

/-- The items of the present mode. -/
def View.keys (v : View) : List Key :=
  match v.mode with
  | .history => v.jobs.map HistoryJob.key
  | .timelapse => v.videos.map Video.key

/-- The item at a place of a list. -/
def keyAt (keys : List Key) (i : ℤ) : Option Key := if 0 ≤ i then keys[i.toNat]? else none

def View.selectedKey (v : View) : Option Key := keyAt v.keys v.selected

def View.rebuildList (v : View) : View := { v with rows := v.keys }

def View.show (m : Mode) (v : View) : View :=
  { v with mode := m, shown := true, selected := -1, jobs := [], videos := [] }.rebuildList

def View.hide (v : View) : View := { v with shown := false }

def double? (j : Json) : Option ℚ := j.num?.map Num.toRat

/-- A loop that reads values until an exception, and whether there was none. -/
def readAll {α : Type*} (f : Json → Option α) : List Json → List α × Bool
  | [] => ([], true)
  | j :: js =>
    match f j with
    | none => ([], false)
    | some a => (a :: (readAll f js).1, (readAll f js).2)

def readJob (job : Json) : Option HistoryJob := do
  let filename ← job.value Json.str? "filename" ""
  let status ← job.value Json.str? "status" ""
  let start ← job.value double? "start_time" 0
  let duration ← job.value double? "print_duration" 0
  let filamentMm ← job.value double? "filament_used" 0
  let stillExists ← job.value Json.bool? "exists" false
  let metadata := job.get "metadata"
  let weightG ← if metadata.isObject then metadata.value double? "filament_weight_total" 0 else some 0
  return ⟨filename, status, start, duration, filamentMm, weightG, stillExists⟩

/-- The jobs of a reply to `server.history.list`, and whether it was read to the end. -/
def readJobs (j : Json) : List HistoryJob × Bool :=
  readAll readJob ((j.get "result").get "jobs").elements

def View.handleJobs (j : Json) (v : View) : View :=
  let read := readJobs j
  let filled := { v with jobs := read.1 }
  if read.2 ∧ v.shown ∧ v.mode = .history then filled.rebuildList else filled

def readPath (f : Json) : Option String := f.value Json.str? "path" ""

def isVideo (path : String) : Bool := 4 < path.length && ".mp4".toList.isSuffixOf path.toList

def previewPath (path : String) : String :=
  String.ofList (path.toList.take (path.length - 4)) ++ ".jpg"

/-- A file of the listing, if it is a video; `files` are the paths of all of them. -/
def readVideo (files : List String) (f : Json) : Option (Option Video) := do
  let path ← readPath f
  if isVideo path then
    let modified ← f.value double? "modified" 0
    let size ← f.value double? "size" 0
    let preview := previewPath path
    return some ⟨path, modified, size, if preview ∈ files then preview else ""⟩
  else return none

variable (sort : List Video → List Video)

/-- The videos of a reply to `server.files.list`, and whether it was read to the end; `sort` puts
those modified last in front. -/
def readVideos (j : Json) : List Video × Bool :=
  match j.get "result" with
  | .arr fs =>
    match fs.mapM readPath with
    | none => ([], false)
    | some files =>
      let read := readAll (readVideo files) fs
      if read.2 then (sort read.1.reduceOption, true) else (read.1.reduceOption, false)
  | _ => ([], true)

def View.handleVideos (j : Json) (v : View) : View :=
  let read := readVideos sort j
  let filled := { v with videos := read.1 }
  if read.2 ∧ v.shown ∧ v.mode = .timelapse then filled.rebuildList else filled

def View.handleRow (index : ℕ) (v : View) : View := { v with selected := index }.rebuildList

/-- The reply to `server.files.delete_file`, whatever it says. -/
def View.handleDeleted (v : View) : View := { v with selected := -1 }

inductive Button where
  | toolbar
  | primary
  | delete

/-- What follows the last slash. -/
def baseName (path : String) : String :=
  String.ofList ((path.toList.reverse.takeWhile (· ≠ '/')).reverse)

/-- What a button asks for, with the item that it is about; to reset the totals and to delete a
video has to be confirmed. -/
inductive Action where
  | confirmReset
  | refresh
  | startPrint (file : String) (job : HistoryJob)
  | copy (source dest : String) (video : Video)
  | confirmDelete (message : String) (video : Video)

def startPrint (h : HistoryJob) : Action := .startPrint h.filename h

def copyToUsb (video : Video) : Action :=
  .copy ("timelapse/" ++ video.path) ("gcodes/usb/" ++ baseName video.path) video

def confirmDelete (video : Video) : Action :=
  .confirmDelete (baseName video.path ++ " will be deleted permanently.") video

def View.handleAction (printing : Bool) (button : Button) (v : View) : Option Action :=
  match v.mode, button with
  | .history, .toolbar => some .confirmReset
  | .timelapse, .toolbar => some .refresh
  | .history, .primary =>
    if 0 ≤ v.selected then
      (v.jobs[v.selected.toNat]?).bind fun h => if printing then none else some (startPrint h)
    else none
  | .history, .delete => none
  | .timelapse, .primary =>
    if 0 ≤ v.selected then (v.videos[v.selected.toNat]?).map copyToUsb else none
  | .timelapse, .delete =>
    if 0 ≤ v.selected then (v.videos[v.selected.toNat]?).map confirmDelete else none

/-- The item that an action is about. -/
def Action.target : Action → Option Key
  | .confirmReset => none
  | .refresh => none
  | .startPrint _ h => some h.key
  | .copy _ _ video => some video.key
  | .confirmDelete _ video => some video.key

/-- Every action on an item is on the one at the selected place. -/
theorem target_handleAction {printing : Bool} {button : Button} {v : View} {a : Action} {k : Key}
    (ha : v.handleAction printing button = some a) (hk : a.target = some k) :
    v.selectedKey = some k := by
  rw [View.handleAction.eq_def] at ha
  rw [View.selectedKey, View.keys, keyAt]
  cases hmode : v.mode <;> cases button <;> rw [hmode] at ha <;> dsimp only at ha ⊢
  case timelapse.toolbar =>
    cases ha
    cases hk
  case history.toolbar =>
    cases ha
    cases hk
  case history.delete => cases ha
  case timelapse.primary | timelapse.delete =>
    split_ifs at ha with hsel
    obtain ⟨video, hvideo, rfl⟩ := Option.map_eq_some_iff.mp ha
    rw [if_pos hsel, List.getElem?_map, hvideo]
    exact hk
  case history.primary =>
    split_ifs at ha with hsel <;> rw [if_pos hsel]
    · obtain ⟨h, hjob, hstart⟩ := Option.bind_eq_some_iff.mp ha
      cases hstart
    · obtain ⟨h, hjob, hstart⟩ := Option.bind_eq_some_iff.mp ha
      cases hstart
      rw [List.getElem?_map, hjob]
      exact hk

end PowerScreen.FilesExtra
