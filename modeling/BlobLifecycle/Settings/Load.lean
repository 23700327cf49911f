import BlobLifecycle.Settings.Layer

/-! Loading of settings: defaults below the data directory, an optional file on top of
them, the environment on top of both. -/
namespace BlobLifecycle.Settings

inductive LoadFault where
  | defaultsNotText
  | unreadable (path : Option String)
  | unusable
  deriving DecidableEq, Repr

def LoadFault.message : LoadFault → String
  | defaultsNotText => "Failed to encode default config"
  | unreadable none => "Failed to read config"
  | unreadable (some path) => s!"Failed to read config from {path}"
  | unusable => "Failed to parse blob store config"

/-- A configuration file that was asked for, and its text if it exists. -/
structure SettingsFile where
  path : String
  text : Option String
  deriving DecidableEq, Repr

/-- A missing file is as good as an empty one. A byte order mark of the file does not belong
to the document, which may have one of its own. -/
def SettingsFile.layer? (file : SettingsFile) : Option Layer :=
  match file.text with
  | none => some []
  | some text =>
    (Toml.parse? .v11 (String.ofList (Toml.skipByteOrderMark text.toList))).bind Layer.ofDocument?

/-- The program's directory below the user's data directory: the one that the environment
names, or else the usual one at home. -/
def dataDirectory (home : Bytes) (environment : List (String × Bytes)) : Bytes :=
  let base := match environment.lookup "XDG_DATA_HOME" with
    | some directory => directory
    | none => Path.joinBytes home (utf8 ".local/share")
  Path.joinBytes base (utf8 "blobvault")

/-- Lays file and environment over the defaults. -/
def loadOver (defaults : Settings) (file : Option SettingsFile)
    (environment : List (String × Bytes)) : Except LoadFault Settings :=
  let unreadable := LoadFault.unreadable (file.map SettingsFile.path)
  match (file.map SettingsFile.layer?).getD (some []), Layer.ofEnvironment? environment with
  | some fileLayer, some environmentLayer =>
    match ofLayers? [environmentLayer, fileLayer, .ofSettings defaults] with
    | some settings => .ok settings
    | none => .error .unusable
  | _, _ => .error unreadable

def load (home : Bytes) (environment : List (String × Bytes)) (file : Option SettingsFile) :
    Except LoadFault Settings :=
  match utf8? (dataDirectory home environment) with
  | some directory => loadOver (defaults directory) file environment
  | none => .error .defaultsNotText

end BlobLifecycle.Settings
