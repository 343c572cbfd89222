import Cohesion.Failure
import Cohesion.Files.Environment
import Cohesion.Module
import Cohesion.Text.Lines
import Cohesion.Toml.Document

/-!
# Settings

The settings come from a TOML file, and what the file leaves open has a standard value.  Logs go next
to the file, unless the file says where to put them; to name the standard place for logs counts as
saying nothing.
-/

namespace Cohesion

/-- The settings of a run. -/
structure Settings where
  debug : Bool
  logPath : String
  logLevel : String
  point : Float
  mode : CutMode
  glob : Option String

/-- Why settings cannot be read or written. -/
inductive SettingsFault where
  | unreadable (path : String) (fault : FileFault)
  | malformed (path : String)
  | noDirectory (path : String) (fault : FileFault)
  | unwritable (path : String) (fault : FileFault)

namespace SettingsFault

/-- A fault in words, without its reason. -/
def summary : SettingsFault → String
  | .unreadable path _ => "Failed to read config file: " ++ path
  | .malformed path => "Failed to parse config file: " ++ path
  | .noDirectory path _ => "Failed to create config directory: " ++ path
  | .unwritable path _ => "Failed to write config file: " ++ path

/-- A fault in words. -/
def message (f : SettingsFault) : String :=
  match f with
  | .malformed _ => f.summary
  | .unreadable _ fault | .noDirectory _ fault | .unwritable _ fault =>
    f.summary ++ ": " ++ fault.message

end SettingsFault

namespace Settings

/-- The directory of the settings file of a user. -/
def directory (e : Environment) : String :=
  Path.join (Path.join e.home ".config") "coupling-lens"

/-- The settings file of a user. -/
def standardPath (e : Environment) : String :=
  Path.join (directory e) "config.toml"

/-- The place for logs of a user. -/
def standardLogPath (e : Environment) : String :=
  Path.join (directory e) "logs"

/-- The settings without a file. -/
def standard (e : Environment) : Settings :=
  ⟨false, standardLogPath e, "debug", 0.05, .similarity, none⟩

/-! ### Values -/

/-- The value of a setting: a standard one if the file leaves it open, and nothing if the file gives
it a value of the wrong type. -/
def setting {α : Type} (ms : Toml.Members) (key : String) (read : Toml.Value → Option α)
    (standard : α) : Option α :=
  match ms.lookup key with
  | none => some standard
  | some value => read value

/-- A truth value. -/
def boolean? : Toml.Value → Option Bool
  | .boolean b => some b
  | _ => none

/-- A text. -/
def text? : Toml.Value → Option String
  | .text s => some s
  | _ => none

/-- A number.  A whole number has to fit into 64 bits. -/
def number? : Toml.Value → Option Float
  | .float x => some x
  | .integer n =>
    if -(Int.pow 2 63) ≤ n && n < Int.pow 2 64 then
      let size := Decimal.nearest ⟨n.natAbs, 0⟩
      some (if n < 0 then -size else size)
    else none
  | _ => none

/-- Whether a value is a list or a table with nothing in it. -/
def isEmpty : Toml.Value → Bool
  | .list [] => true
  | .table _ [] => true
  | _ => false

/-- A direction: its name, or a table with its name as the only key and nothing under it. -/
def mode? : Toml.Value → Option CutMode
  | .text s => CutMode.ofText? s
  | .table _ [(key, value)] => if isEmpty value then CutMode.ofText? key else none
  | _ => none

/-- The settings that a file holds. -/
def ofMembers? (e : Environment) (ms : Toml.Members) : Option Settings := do
  let s := standard e
  return {
    debug := ← setting ms "debug" boolean? s.debug
    logPath := ← setting ms "log_path" text? s.logPath
    logLevel := ← setting ms "log_level" text? s.logLevel
    point := ← setting ms "cp" number? s.point
    mode := ← setting ms "mode" mode? s.mode
    glob := ← setting ms "glob" (fun value => (text? value).map some) s.glob }

/-! ### Files -/

/-- The settings with logs next to a file, if they would go to the standard place. -/
def besideFile (e : Environment) (path : String) (s : Settings) : Settings :=
  match Path.parent? path with
  | some parent =>
    if Path.same s.logPath (standardLogPath e) then
      { s with logPath := Path.join parent "logs" }
    else s
  | none => s

/-- The settings of a file, which are the standard ones if there is no such file. -/
def ofFile (e : Environment) (path : String) : Except SettingsFault Settings :=
  match e.locate? path with
  | none => .ok (besideFile e path (standard e))
  | some l =>
    match e.files.content? l with
    | none => .error (.unreadable path .directory)
    | some content =>
      match textOfBytes? content.toList with
      | none => .error (.unreadable path .notText)
      | some text =>
        match (Toml.document? text).bind (ofMembers? e) with
        | none => .error (.malformed path)
        | some s => .ok (besideFile e path s)

/-- The settings of the file that is named, or else of the user's own. -/
def load (e : Environment) (path : Option String) : Except SettingsFault Settings :=
  ofFile e (path.getD (standardPath e))

/-- The text of a new settings file, which says nothing but the standard values. -/
def template : String :=
  "\n".intercalate ["# coupling-lens configuration file",
    "",
    "# Enable debug logging to file (default: false)",
    "debug = false",
    "",
    "# Path to log directory (default: ~/.config/coupling-lens/logs)",
    "# log_path = \"~/.config/coupling-lens/logs\"",
    "",
    "# Log filter directive, e.g. \"info\" or \"coupling_lens=debug\" (default: \"debug\")",
    "log_level = \"debug\"",
    "",
    "# Cut point used by `modules` when --cp is not given (default: 0.05)",
    "cp = 0.05",
    "",
    "# Cut direction: \"similarity\" keeps merges scoring >= cp, \"distance\" <= cp",
    "mode = \"similarity\"",
    "",
    "# Only analyse files matching this glob, relative to the source root",
    "# glob = \"**/*.java\"",
    ""]

/-- The files with a new settings file at a path. -/
def generate (e : Environment) (path : String) : Except SettingsFault FileTree :=
  let withParent : Except SettingsFault FileTree := match Path.parent? path with
    | none => .ok e.files
    | some parent =>
      (e.files.withDirectories e.workingDirectory parent).mapError (.noDirectory parent)
  match withParent with
  | .error fault => .error fault
  | .ok t =>
    (t.write e.workingDirectory path (.bytes template.toUTF8) 0).mapError (.unwritable path)

end Settings

end Cohesion
