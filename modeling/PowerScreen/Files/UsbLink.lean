import PowerScreen.Library.Escaping
import PowerScreen.Library.Fields
import PowerScreen.MainPanel.MacroSync
import PowerScreen.State.DisplayLists
import Mathlib.Data.List.TakeWhile
import Mathlib.Tactic.IntervalCases

/-! # The link to the USB drive

With every refresh of the file list the link `usb` in the folder of the G-code files is made to
lead where the table of mounts has the first drive. The table writes blanks and backslashes of a
path as octal numbers, and the panel takes the path as it is written there.
-/
namespace PowerScreen.Files
open Library

/-- How the table writes a letter of a path. -/
def mangle : Char → List Char
  | ' ' => ['\\', '0', '4', '0']
  | '\t' => ['\\', '0', '1', '1']
  | '\n' => ['\\', '0', '1', '2']
  | '\\' => ['\\', '1', '3', '4']
  | c => [c]

/-- A line of the table. What follows the mount point is not read. -/
structure Mount where
  device : List Char
  point : List Char
  rest : List Char
  device_ne : device ≠ []
  device_plain : ∀ c ∈ device, c ∉ ['\x0b', '\x0c', '\r']
  point_root : point.head? = some '/'
  rest_line : '\n' ∉ rest

def Mount.line (m : Mount) : List Char :=
  m.device.flatMap mangle ++ ' ' :: (m.point.flatMap mangle ++ ' ' :: m.rest)

def mountTable (ms : List Mount) : List Char := (ms.map Mount.line).flatMap (· ++ ['\n'])

def notSpace (c : Char) : Bool := !State.isSpace c

/-- What a stream reads into a string. -/
def word (cs : List Char) : List Char := (cs.dropWhile State.isSpace).takeWhile notSpace

def afterWord (cs : List Char) : List Char := (cs.dropWhile State.isSpace).dropWhile notSpace

def isDrive (device : List Char) : Bool := decide ("/dev/sd".toList <+: device)

/-- The mount point of the first drive, empty when there is none. -/
def usbMountPoint (mounts : List Char) : List Char :=
  match (fields '\n' mounts).find? fun line => isDrive (word line) with
  | some line => word (afterWord line)
  | none => []

/-- What is at the path of the link. -/
inductive Entry where
  | absent
  | link (target : List Char)
  | other
deriving DecidableEq

/-- Paths are compared by their elements. -/
def pathElements (path : List Char) : Bool × List (List Char) × Bool :=
  (path.head? = some '/', (fields '/' path).filter (· ≠ []), path.getLast? = some '/')

/-- The link after a refresh; an exception on the way is caught and leaves it as it is. -/
def syncUsbLink (s : State) (mounts : List Char) (e : Entry) : Entry :=
  if (MainPanel.getRootPath s "gcodes").getD "" = "" then e
  else
    let mount := usbMountPoint mounts
    match e with
    | .absent => if mount = [] then .absent else .link mount
    | .link target =>
      if mount = [] then .absent
      else if pathElements target = pathElements mount then .link target else .link mount
    | .other => .other

theorem mem_spaces {c : Char} (h : State.isSpace c) :
    c ∈ [' ', '\t', '\n', '\x0b', '\x0c', '\r'] := by
  rw [State.isSpace, Bool.or_eq_true, decide_eq_true_eq, decide_eq_true_eq] at h
  rcases h with rfl | ⟨hlow, hhigh⟩
  · decide
  · have hchar : Char.ofNat c.toNat = c := Char.ofNat_toNat c
    interval_cases c.toNat <;> rw [← hchar] <;> decide

/-- The letters the table writes as they are. -/
def Unmangled (c : Char) : Prop := c ∉ [' ', '\t', '\n', '\\']

instance : DecidablePred Unmangled := fun _ => inferInstanceAs (Decidable (_ ∉ _))

theorem mangle_of_unmangled {c : Char} (h : Unmangled c) : mangle c = [c] := by
  simp only [Unmangled, List.mem_cons, List.not_mem_nil, or_false, not_or] at h
  unfold mangle
  split <;> simp_all

theorem escapes_mangle : Escapes Unmangled id mangle := by
  intro c
  by_cases h : Unmangled c
  · exact Or.inl ⟨h, mangle_of_unmangled h⟩
  · refine Or.inr ⟨h, ?_⟩
    simp only [Unmangled, not_not, List.mem_cons, List.not_mem_nil, or_false] at h
    rcases h with rfl | rfl | rfl | rfl <;> decide

/-- White space that is left in a path is not among the letters that are written in octal. -/
theorem space_mangle {c d : Char} (hd : d ∈ mangle c) (h : State.isSpace d) :
    c = d ∧ d ∈ ['\x0b', '\x0c', '\r'] := by
  by_cases hc : Unmangled c
  · rw [mangle_of_unmangled hc, List.mem_singleton] at hd
    subst hd
    have hmem := mem_spaces h
    simp only [Unmangled, List.mem_cons, List.not_mem_nil, or_false, not_or] at hc hmem ⊢
    tauto
  · have hnone : ∀ c ∈ [' ', '\t', '\n', '\\'], (mangle c).all (fun d => !State.isSpace d) = true :=
      forall_mem_of_all (by decide)
    have hd' := List.all_eq_true.mp (hnone c (not_not.mp hc)) d hd
    rw [h] at hd'
    cases hd'

theorem newline_not_mem_mangle (cs : List Char) : '\n' ∉ cs.flatMap mangle := by
  intro h
  obtain ⟨c, -, hc⟩ := List.mem_flatMap.mp h
  exact absurd (space_mangle hc (by decide)).2 (by decide)

/-- A start without letters in octal is the start of the path itself. -/
theorem prefix_flatMap_mangle {p : List Char} (hp : ∀ c ∈ p, Unmangled c) (cs : List Char) :
    p <+: cs.flatMap mangle ↔ p <+: cs := by
  induction p generalizing cs with
  | nil => simp
  | cons c p ih =>
    cases cs with
    | nil => rfl
    | cons d cs =>
      rw [List.flatMap_cons]
      by_cases hd : Unmangled d
      · rw [mangle_of_unmangled hd, List.singleton_append, List.cons_prefix_cons,
          List.cons_prefix_cons, ih fun e he => hp e (List.mem_cons_of_mem c he)]
      · have hhead : ∃ ds, mangle d = '\\' :: ds := by
          simp only [Unmangled, not_not, List.mem_cons, List.not_mem_nil, or_false] at hd
          rcases hd with rfl | rfl | rfl | rfl <;> exact ⟨_, rfl⟩
        obtain ⟨ds, hds⟩ := hhead
        have hc := hp c List.mem_cons_self
        rw [hds, List.cons_append, List.cons_prefix_cons, List.cons_prefix_cons]
        refine iff_of_false (fun h => hc ?_) (fun h => hd (h.1 ▸ hc))
        rw [h.1]
        decide

theorem takeWhile_append_stop {α : Type*} {p : α → Bool} {c : α} (hc : p c = false)
    (a b : List α) : (a ++ c :: b).takeWhile p = a.takeWhile p := by
  induction a with
  | nil => simp [hc]
  | cons d a ih => by_cases hd : p d <;> simp [hd, ih]

theorem dropWhile_append_stop {α : Type*} {p : α → Bool} {c : α} (hc : p c = false)
    {a : List α} (ha : ∀ d ∈ a, p d) (b : List α) : (a ++ c :: b).dropWhile p = c :: b := by
  induction a with
  | nil => simp [hc]
  | cons d a ih =>
    rw [List.cons_append, List.dropWhile_cons_of_pos (ha d List.mem_cons_self),
      ih fun e he => ha e (List.mem_cons_of_mem d he)]

/-- Its letters without the slashes. -/
theorem flatten_fields {d : Char} (cs : List Char) :
    (fields d cs).flatten = cs.filter (· ≠ d) := by
  induction cs with
  | nil => rfl
  | cons c cs ih =>
    rw [fields]
    split_ifs with hc
    · simp [hc, ih]
    · rw [List.filter_cons_of_pos (by simpa using hc), ← ih]
      cases fields d cs with
      | nil => rfl
      | cons f fs => rfl

theorem letters_of_pathElements {a b : List Char} (h : pathElements a = pathElements b) :
    a.filter (· ≠ '/') = b.filter (· ≠ '/') := by
  have hparts : (fields '/' a).filter (· ≠ []) = (fields '/' b).filter (· ≠ []) :=
    congrArg (fun e => e.2.1) h
  rw [← flatten_fields, ← flatten_fields, ← List.flatten_filter_ne_nil, hparts,
    List.flatten_filter_ne_nil]

theorem filter_flatMap_mangle (cs : List Char) :
    (cs.flatMap mangle).filter (· ≠ '/') = (cs.filter (· ≠ '/')).flatMap mangle := by
  induction cs with
  | nil => rfl
  | cons c cs ih =>
    rw [List.flatMap_cons, List.filter_append, ih]
    by_cases hc : Unmangled c
    · rw [mangle_of_unmangled hc]
      by_cases hslash : c = '/'
      · simp [hslash]
      · simp [hslash, mangle_of_unmangled hc]
    · simp only [Unmangled, not_not, List.mem_cons, List.not_mem_nil, or_false] at hc
      rcases hc with rfl | rfl | rfl | rfl <;> rfl

namespace Mount

/-- The mount point as far as it is read from the table. -/
def written (m : Mount) : List Char := (m.point.flatMap mangle).takeWhile notSpace

theorem head_written (m : Mount) : ∃ cs, m.point.flatMap mangle = '/' :: cs := by
  have hroot := m.point_root
  cases h : m.point with
  | nil => simp [h] at hroot
  | cons c cs =>
    rw [h, List.head?_cons, Option.some.injEq] at hroot
    subst hroot
    exact ⟨cs.flatMap mangle, rfl⟩

theorem written_ne (m : Mount) : m.written ≠ [] := by
  obtain ⟨cs, hcs⟩ := m.head_written
  rw [written, hcs, List.takeWhile_cons_of_pos (by decide)]
  exact List.cons_ne_nil _ _

theorem device_written (m : Mount) : ∀ c ∈ m.device.flatMap mangle, notSpace c := by
  intro c hc
  obtain ⟨d, hd, hc⟩ := List.mem_flatMap.mp hc
  rw [notSpace, Bool.not_eq_true']
  refine Bool.eq_false_iff.mpr fun hspace => ?_
  obtain ⟨rfl, hmem⟩ := space_mangle hc hspace
  exact m.device_plain d hd hmem

theorem head_device (m : Mount) : ∃ c cs, m.device.flatMap mangle = c :: cs := by
  have hlen := length_le_length_flatMap escapes_mangle.one_le_length m.device
  cases h : m.device.flatMap mangle with
  | nil =>
    rw [h] at hlen
    exact absurd (List.length_eq_zero_iff.mp (Nat.le_zero.mp hlen)) m.device_ne
  | cons c cs => exact ⟨c, cs, rfl⟩

theorem word_line (m : Mount) : word m.line = m.device.flatMap mangle ∧
    word (afterWord m.line) = m.written := by
  obtain ⟨c, cs, hdev⟩ := m.head_device
  have hspace : notSpace ' ' = false := by decide
  have hplain := m.device_written
  have hhead : State.isSpace c = false := by
    have hc := hplain c (hdev ▸ List.mem_cons_self)
    rwa [notSpace, Bool.not_eq_true'] at hc
  have hline : m.line.dropWhile State.isSpace = m.line := by
    rw [line, hdev, List.cons_append, List.dropWhile_cons_of_neg (by simp [hhead])]
  constructor
  · rw [word, hline, line, takeWhile_append_stop hspace, List.takeWhile_eq_self_iff]
    exact hplain
  · obtain ⟨ps, hpoint⟩ := m.head_written
    have hrest : (' ' :: (m.point.flatMap mangle ++ ' ' :: m.rest)).dropWhile State.isSpace =
        m.point.flatMap mangle ++ ' ' :: m.rest := by
      rw [List.dropWhile_cons_of_pos (by decide), hpoint, List.cons_append,
        List.dropWhile_cons_of_neg (by decide)]
    rw [afterWord, hline, line, dropWhile_append_stop hspace hplain, word, hrest,
      takeWhile_append_stop hspace, written]

/-- What is read leads to the drive exactly if nothing in the path is written in octal or ends
a word. -/
theorem pathElements_written_iff (m : Mount) : pathElements m.written = pathElements m.point ↔
    ∀ c ∈ m.point, Unmangled c ∧ State.isSpace c = false := by
  constructor
  · intro h
    have hletters := letters_of_pathElements h
    have hspace : ∀ c ∈ m.point, State.isSpace c = false := by
      intro c hc
      by_cases hslash : c = '/'
      · rw [hslash]
        decide
      · have hmem : c ∈ m.written.filter (· ≠ '/') := by
          rw [hletters]
          exact List.mem_filter.mpr ⟨hc, by simpa using hslash⟩
        simpa [notSpace, written] using List.mem_takeWhile_imp (List.mem_filter.mp hmem).1
    have hwhole : m.written = m.point.flatMap mangle := by
      refine List.takeWhile_eq_self_iff.mpr fun c hc => ?_
      obtain ⟨d, hd, hc⟩ := List.mem_flatMap.mp hc
      rw [notSpace, Bool.not_eq_true']
      refine Bool.eq_false_iff.mpr fun hs => ?_
      obtain ⟨rfl, -⟩ := space_mangle hc hs
      rw [hspace d hd] at hs
      cases hs
    rw [hwhole, filter_flatMap_mangle] at hletters
    have hplain := escapes_mangle.flatMap_eq_map_iff.mp (hletters.trans (List.map_id _).symm)
    refine fun c hc => ⟨?_, hspace c hc⟩
    by_cases hslash : c = '/'
    · rw [hslash]
      decide
    · exact hplain c (List.mem_filter.mpr ⟨hc, by simpa using hslash⟩)
  · intro h
    refine congrArg pathElements ?_
    rw [written, escapes_mangle.flatMap_eq_map_iff.mpr fun c hc => (h c hc).1, List.map_id,
      List.takeWhile_eq_self_iff]
    exact fun c hc => by rw [notSpace, (h c hc).2]; rfl

end Mount

/-- The drive the panel finds in the table. -/
theorem usbMountPoint_mountTable (ms : List Mount) : usbMountPoint (mountTable ms) =
    ((ms.find? fun m => isDrive m.device).map Mount.written).getD [] := by
  have hlines : fields '\n' (mountTable ms) = ms.map Mount.line := by
    refine fields_lines fun l hl => ?_
    obtain ⟨m, -, rfl⟩ := List.mem_map.mp hl
    simp [Mount.line, newline_not_mem_mangle, m.rest_line, -List.mem_flatMap]
  have hdrive : ∀ m : Mount, isDrive (word m.line) = isDrive m.device := by
    intro m
    rw [m.word_line.1, isDrive, isDrive, decide_eq_decide]
    exact prefix_flatMap_mangle (forall_mem_of_all (by decide)) m.device
  rw [usbMountPoint, hlines, List.find?_map]
  have hfind : (fun line => isDrive (word line)) ∘ Mount.line = fun m => isDrive m.device :=
    funext hdrive
  rw [hfind]
  cases ms.find? fun m => isDrive m.device with
  | none => rfl
  | some m => exact m.word_line.2

/-- The link of a table of mounts: none without a drive, else one to where the table has the
mount point. -/
def Linked (ms : List Mount) (e : Entry) : Prop :=
  match ms.find? fun m => isDrive m.device with
  | none => e = .absent
  | some m => ∃ target, e = .link target ∧ pathElements target = pathElements m.written ∧
      (pathElements target = pathElements m.point ↔
        ∀ c ∈ m.point, Unmangled c ∧ State.isSpace c = false)

def gcodesRoot : State where
  entries := [("roots", .arr [.obj [("name", .str "gcodes"), ("path", .str "/data/gcodes")]])]
  sorted := by decide

def sda1 : Mount where
  device := "/dev/sda1".toList
  point := "/tmp/udisk/sda1".toList
  rest := "vfat rw 0 0".toList
  device_ne := by decide
  device_plain := forall_mem_of_all (by decide)
  point_root := by decide
  rest_line := by decide

end PowerScreen.Files
