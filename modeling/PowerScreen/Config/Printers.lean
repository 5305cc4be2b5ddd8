import PowerScreen.Config.Init
import PowerScreen.Library.Run

/-! # The list of printers

The panel adds, switches and removes printers; each operation ends in a save, so
between operations the file and the document in memory are the same. A start of
the program runs `Config::init`, reads the address of the default printer and
then the address of every printer.
-/
namespace PowerScreen.Config
open Library Library.Json

def nameChars : List Char :=
  "abcdefghijklmnopqrstuvwxyzABCDEFGHIJKLMNOPQRSTUVWXYZ0123456789 -_".toList

def ipChars : List Char := "0123456789abcdef.:".toList

def portChars : List Char := "0123456789".toList

def accepted (maxLength : ℕ) (chars : List Char) (t : String) : Prop :=
  t.toList.length ≤ maxLength ∧ ∀ c ∈ t.toList, c ∈ chars

/-- The texts of the panel's three text areas. -/
structure Fields where
  printerName : String
  moonrakerIp : String
  moonrakerPort : String
  name_accepted : accepted 128 nameChars printerName
  ip_accepted : accepted 45 ipChars moonrakerIp
  port_accepted : accepted 5 portChars moonrakerPort

/-- `std::stoi` on a text of digits; the empty text is an exception. -/
def stoi (t : String) : Option ℤ :=
  if t.toList = [] then none
  else some (t.toList.foldl (fun n c => 10 * n + (c.toNat - 48)) 0)

def newPrinter (ip : String) (port : ℤ) : Json :=
  .obj [("default_macros", .obj [("cooldown", cooldown), ("load_filament", .str "LOAD_MATERIAL"),
      ("unload_filament", .str "UNLOAD_MATERIAL")]),
    ("fans", .null), ("monitored_sensors", .null), ("moonraker_api_key", .bool false),
    ("moonraker_host", .str ip), ("moonraker_port", .num (.int port))]

/-- `j[k] = v`, where null becomes an object. -/
def setKey (k : String) (v : Json) : Json → Option Json
  | .null => some (.obj [(k, v)])
  | .obj ms => some (.obj (Assoc.insert k v ms))
  | _ => none

/-- The saved document, the printers on the panel, and whether the program is alive. -/
structure App where
  saved : Json
  printers : List String
  running : Bool

def App.crash (s : App) : App := { s with running := false }

def isArithmetic : Json → Bool
  | .num _ | .bool _ => true
  | _ => false

def getText (p : String) (data : Json) : Option Json :=
  (parsePointer p).bind fun ts => getAt ts data

/-- The address the program connects to, when there are printers. -/
def connection (data : Json) (df : Option String) : Option (Option (Json × Json)) :=
  if (data.get "printers").isEmpty then some none
  else
    ((getText (df.getD "" ++ "moonraker_host") data).filter fun h => h.str?.isSome).bind fun host =>
    ((getText (df.getD "" ++ "moonraker_port") data).filter isArithmetic).map fun port =>
      some (host, port)

/-- One line of the panel; it shows host and port. -/
def container (entry : String × Json) : Option String :=
  ((entry.2.get? "moonraker_host").bind str?).bind fun _ =>
  ((entry.2.get? "moonraker_port").filter isArithmetic).map fun _ => entry.1

def containers (data : Json) : Option (List String) :=
  (data.get "printers").members.mapM container

section
variable (b : Build) (path thumbdir : String)

/-- A start of the program on a saved document, or without one. -/
def launch (file : Option Json) : App :=
  match init b path thumbdir file with
  | none => ⟨file.getD .null, [], false⟩
  | some (saved, df) =>
    match connection saved df, containers saved with
    | some _, some printers => ⟨saved, printers, true⟩
    | _, _ => ⟨saved, [], false⟩

def addEntry (name : String) (entry data : Json) : Option Json :=
  (setKey name entry (data.get "printers")).bind fun printers =>
    setAt ["printers"] printers data

/-- `init` on the paths the document names. -/
def initAgain (data : Json) : Option (Json × Option String) :=
  ((data.get "config_path").str?).bind fun path =>
  ((data.get "thumbnail_path").str?).bind fun thumbdir => init b path thumbdir (some data)

/-- The only printer becomes the default printer. -/
def App.adopt (name : String) (s : App) : App :=
  match setAt ["default_printer"] (.str name) s.saved with
  | none => s.crash
  | some data =>
    match initAgain b data with
    | none => { s with saved := data, running := false }
    | some (saved, _) => { s with saved := saved }

def App.add (f : Fields) (s : App) : App :=
  match (stoi f.moonrakerPort).bind fun port =>
      addEntry f.printerName (newPrinter f.moonrakerIp port) s.saved with
  | none => s.crash
  | some data =>
    let s' : App := { s with saved := data, printers := s.printers.insert f.printerName }
    if data.get "default_printer" = .null then s'.adopt b f.printerName else s'

def App.switch (name : String) (s : App) : App :=
  match setAt ["default_printer"] (.str name) s.saved with
  | none => s.crash
  | some data =>
    { s with saved := data, running := ((data.get "powerscreen_init_script").str?).isSome }

def App.removePrinter (name : String) (s : App) : App :=
  let s' : App := { s with printers := s.printers.filter (· ≠ name) }
  match (eraseKey name (s.saved.get "printers")).bind fun printers =>
      setAt ["printers"] printers s.saved with
  | none => s'.crash
  | some data => { s' with saved := data }

inductive Event where
  | add (f : Fields)
  | switch (name : String)
  | remove (name : String)
  | restart

/-- The buttons of a printer are on the panel as long as the printer is. -/
def App.step (s : App) : Event → App
  | .add f => if s.running then s.add b f else s
  | .switch name => if s.running ∧ name ∈ s.printers then s.switch name else s
  | .remove name => if s.running ∧ name ∈ s.printers then s.removePrinter name else s
  | .restart => launch b path thumbdir (some s.saved)

end

end PowerScreen.Config
