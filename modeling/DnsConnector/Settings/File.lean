import DnsConnector.Octets
import DnsConnector.Services
import DnsConnector.Settings.Document

/-!
# DnsConnector.Settings.File

Settings from configuration files.  A file that is named has to be there; with
no name, the first of the usual places that exists is read, and if none does,
the defaults hold.  Overrides are applied before anything is checked.
-/

namespace DnsConnector

/-- Why a file cannot be read. -/
inductive FileFault where
  | missing
  | directory
  /-- The octets are not UTF-8. -/
  | notText
  /-- Anything else that the system reports. -/
  | system (report : String)
deriving DecidableEq, Repr

namespace FileFault

/-- The wording of a fault. -/
def message : FileFault → String
  | .missing => "No such file or directory (os error 2)"
  | .directory => "Is a directory (os error 21)"
  | .notText => "stream did not contain valid UTF-8"
  | .system report => report

end FileFault

/-- What reading a path gives. -/
abbrev FileSystem := String → Except FileFault Octets

/-- Why there are no settings. -/
inductive SettingsFault where
  | unreadable (path : String) (fault : FileFault)
  /-- The text is no document, or the document no configuration. -/
  | unparsable
  | invalid (fault : SettingFault)
deriving DecidableEq, Repr

namespace SettingsFault

/-- The wording of a fault. -/
def message : SettingsFault → String
  | .unreadable path fault => "Failed to read config file " ++ path ++ ": " ++ fault.message
  | .unparsable => "Failed to parse config"
  | .invalid fault => fault.report

end SettingsFault

namespace Settings

/-- The files that are looked for if none is named. -/
def usualPlaces : List String := ["natc.toml", "/etc/natc/config.toml"]

/-- The text of a file. -/
def readText (fs : FileSystem) (path : String) : Except FileFault String :=
  match fs path with
  | .error fault => .error fault
  | .ok octets =>
    match String.fromUTF8? ⟨octets.toArray⟩ with
    | some text => .ok text
    | none => .error .notText

/-- The settings in a file. -/
def readFile (fs : FileSystem) (path : String) : Except SettingsFault Settings :=
  match readText fs path with
  | .error fault => .error (.unreadable path fault)
  | .ok text =>
    match ofToml? text with
    | some s => .ok s
    | none => .error .unparsable

/-- Whether a path leads to something. -/
def pathExists (fs : FileSystem) (path : String) : Bool :=
  match fs path with
  | .error .missing => false
  | _ => true

/-- The settings in the named file, or in the first usual place that exists. -/
def read (fs : FileSystem) (path : Option String) : Except SettingsFault Settings :=
  match path.or (usualPlaces.find? (pathExists fs)) with
  | some path => readFile fs path
  | none => .ok {}

/-- Reads the settings, applies overrides and checks the result. -/
def load (fs : FileSystem) (path : Option String) (o : Overrides) :
    Except SettingsFault Settings :=
  match read fs path with
  | .error fault => .error fault
  | .ok s =>
    match (s.override o).validate with
    | .error fault => .error (.invalid fault)
    | .ok () => .ok (s.override o)

end Settings

end DnsConnector
