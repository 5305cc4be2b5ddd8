import PowerScreen.Library.JsonEdits

/-! # The start of the configuration

`Config::init` reads the saved document or creates one, fills in what is missing
in the entry of the default printer and at the top, and saves the result. All
accesses go through pointers, which create what they do not find; `none` is an
exception.
-/
namespace PowerScreen.Config
open Library Library.Json

/-- The compile-time switches. -/
structure Build where
  simulator : Bool := false
  osAndroid : Bool := false
  rotate : Bool := false
  evdevCalibrate : Bool := false

def fan (id name : String) : Json := .obj [("display_name", .str name), ("id", .str id)]

def fansConf : Json :=
  .arr [fan "output_pin fan0" "Toolhead Fan", fan "output_pin fan1" "Back Fan",
    fan "output_pin fan2" "Side Fan"]

def sensor (id name : String) (controllable : Bool) (color : String) : Json :=
  .obj [("color", .str color), ("controllable", .bool controllable),
    ("display_name", .str name), ("id", .str id)]

def sensorsConf : Json :=
  .arr [sensor "extruder" "Extruder" true "red", sensor "heater_bed" "Bed" true "purple",
    sensor "temperature_sensor chamber_temp" "Chamber" false "blue"]

def cooldown : Json := .str
  "SET_HEATER_TEMPERATURE HEATER=extruder TARGET=0\nSET_HEATER_TEMPERATURE HEATER=heater_bed TARGET=0"

def cooldownConf : Json := .obj [("cooldown", cooldown)]

def defaultMacrosConf : Json :=
  .obj [("load_filament", .str "_PS_LOAD_MATERIAL"), ("unload_filament", .str "_PS_QUIT_MATERIAL")]

/-- The document of the first start. -/
def initial (b : Build) (thumbdir : String) : Json :=
  let log := if b.simulator then "/tmp/powerscreen-linux.log"
    else "/usr/data/printer_data/logs/powerscreen.log"
  let thumbnails := if b.simulator then "/tmp/powerscreen-thumbnails" else thumbdir
  let wpa := if b.simulator then "/tmp/powerscreen-wpa" else "/var/run/wpa_supplicant"
  let k1 := .obj [("default_macros", defaultMacrosConf), ("fans", fansConf),
    ("monitored_sensors", sensorsConf), ("moonraker_api_key", .bool false),
    ("moonraker_host", .str "127.0.0.1"), ("moonraker_port", .num (.int 7125))]
  if b.osAndroid then
    .obj [("display_sleep_sec", .num (.int (-1))), ("log_path", .str log),
      ("thumbnail_path", .str thumbnails), ("wpa_supplicant", .str wpa)]
  else
    .obj [("default_printer", .str "k1"), ("display_sleep_sec", .num (.int (-1))),
      ("log_path", .str log), ("printers", .obj [("k1", k1)]),
      ("thumbnail_path", .str thumbnails), ("wpa_supplicant", .str wpa)]

/-- `data[json_pointer(p)]` with what is done to the value there; what is missing is stored
through a second `data[json_pointer(p)]`. -/
def modifyText (f : Json → Json) (p : String) (data : Json) : Option Json :=
  (parsePointer p).bind fun ts => storeAt f ts data

def fill (v old : Json) : Json := if old = .null then v else old

/-- The names of macros in older versions. -/
def renamedMacros : List (String × String) :=
  [("_POWERSCREEN_LOAD_MATERIAL", "_PS_LOAD_MATERIAL"),
    ("_POWERSCREEN_QUIT_MATERIAL", "_PS_QUIT_MATERIAL")]

def renameMacro (macros : Json) (key : String) : Json :=
  renamedMacros.foldl (fun m r =>
    if m.get? key = some (.str r.1) then .obj (Assoc.insert key (.str r.2) m.members) else m) macros

def migrateMacros (macros : Json) : Json :=
  if macros = .null then mergePatch defaultMacrosConf cooldownConf
  else
    let m := if macros.contains "cooldown" then macros else mergePatch macros cooldownConf
    ["load_filament", "unload_filament"].foldl renameMacro m

abbrev Edit := String × (Json → Json)

/-- What is filled in when there is a default printer; `df` is the path of its entry. -/
def printerEdits (df : String) : List Edit :=
  [(df ++ "monitored_sensors", fill sensorsConf), (df ++ "fans", fill fansConf),
    (df ++ "default_macros", migrateMacros),
    ("/powerscreen_init_script", fill (.str "/etc/init.d/S99powerscreen")),
    (df ++ "log_level", fill (.str "debug"))]

def displayEdits (b : Build) : List Edit :=
  [("/display_rotate", fill (.num (.int (if b.rotate then 3 else 0)))),
    ("/touch_calibrated", fill (.bool b.evdevCalibrate)),
    ("/prompt_emergency_stop", fill (.bool true)),
    ("/display_sleep_sec", fill (.num (.int (-1))))]

def applyEdits (es : List Edit) (data : Json) : Option Json :=
  es.foldlM (fun d e => modifyText e.2 e.1 d) data

def dfPath (name : String) : String := "/printers/" ++ name ++ "/"

/-- The default printer's path, when there is a default printer. -/
def df? : Json → Option (Option String)
  | .null => some none
  | .str name => some (some (dfPath name))
  | _ => none

def eraseKey (k : String) : Json → Option Json
  | .obj ms => some (.obj (Assoc.erase k ms))
  | _ => none

/-- The saved document and the default printer's path. -/
def init (b : Build) (path thumbdir : String) (file : Option Json) :
    Option (Json × Option String) :=
  ((setAt ["config_path"] (.str path) (file.getD (initial b thumbdir))).bind
    (ensureAt ["default_printer"] .null)).bind fun data =>
  (df? (data.get "default_printer")).bind fun df =>
  ((applyEdits (df.elim [] printerEdits ++ displayEdits b) data).bind (eraseKey "theme")).map
    fun saved => (saved, df)

end PowerScreen.Config
