import PowerScreen.Library.Json

/-! # The power devices

Every device has a switch and a badge. A tap changes both at once and asks Moonraker for the same;
a reply that carries statuses sets both again.
-/
namespace PowerScreen.Power
open Library

inductive BadgeColor where
  | accent
  | muted
  deriving DecidableEq

structure Badge where
  text : String
  color : BadgeColor
  deriving DecidableEq

def Badge.of (on : Bool) : Badge := if on then ⟨"On", .accent⟩ else ⟨"Off", .muted⟩

structure Device where
  toggle : Bool
  state : Badge
  deriving DecidableEq

def setState (on : Bool) : Device := ⟨on, Badge.of on⟩

structure Panel where
  devices : List (String × Device)
  emptyHidden : Bool

def Panel.new : Panel := ⟨[], true⟩

inductive Request where
  | status (devices : List String)
  | postDevice (device action : String)

/-- A loop that an exception ends; what is done before stays. -/
def untilException {α : Type*} (f : α → Panel → Panel × Bool) : List α → Panel → Panel
  | [], p => p
  | x :: xs, p => if (f x p).2 then untilException f xs (f x p).1 else (f x p).1

def Panel.setDevice (name : String) (d : Device) (p : Panel) : Panel :=
  { p with devices := Assoc.insert name d p.devices }

/-- A device that is not there yet gets a row, off at first. -/
def Panel.addRow (name : String) (p : Panel) : Panel :=
  if (p.devices.lookup name).isSome then p
  else { p.setDevice name (setState false) with emptyHidden := true }

def createDevice (j : Json) (p : Panel) : Panel × Bool :=
  match (j.get? "device").bind Json.str? with
  | none => (p, false)
  | some name =>
    match (j.get? "status").bind Json.str? with
    | none => (p.addRow name, false)
    | some status => ((p.addRow name).setDevice name (setState (status = "on")), true)

def createDevices (j : Json) (p : Panel) : Panel :=
  untilException createDevice ((j.get "result").get "devices").elements p

/-- Keys and values as a loop visits them. -/
def items : Json → List (String × Json)
  | .null => []
  | .obj ms => ms
  | .arr xs => xs.zipIdx.map fun x => (toString x.2, x.1)
  | j => [("", j)]

/-- One entry of `result`. -/
def takeStatus (m : String × Json) (p : Panel) : Panel × Bool :=
  match p.devices.lookup m.1 with
  | none => (p, true)
  | some _ =>
    match m.2.str? with
    | none => (p, false)
    | some newStatus => (p.setDevice m.1 (setState (newStatus = "on")), true)

def handleDeviceCallback (j : Json) (p : Panel) : Panel :=
  untilException takeStatus (items (j.get "result")) p

def Panel.foreground (p : Panel) : Panel × List Request :=
  ({ p with emptyHidden := p.emptyHidden && !p.devices.isEmpty },
    [.status (p.devices.map Prod.fst)])

/-- A tap on a switch: it has turned before `handle_callback` sees it. -/
def Panel.handleCallback (name : String) (p : Panel) : Panel × List Request :=
  match p.devices.lookup name with
  | none => (p, [])
  | some d =>
    let turnOn := !d.toggle
    (p.setDevice name ⟨turnOn, Badge.of turnOn⟩,
      [.postDevice name (if turnOn then "on" else "off")])

end PowerScreen.Power
