import MockHttp.Folder
import MockHttp.Json.Fault
import MockHttp.Settings.Document
/-!
# Which settings hold

The settings of a file, or the defaults, with what the command line says in their place.  A file
has to be admissible by itself, and the outcome has to be admissible again.
-/

namespace MockHttp

inductive LoadError where
  | missing (path : String)
  | unreadable (path : String) (failure : ReadFailure)
  | badSettingsFile
  | badDocument (error : Json.Error)
  | badSettings (problems : List SettingsProblem)

/-- The words for an error; a settings file that is not well-formed is described by its error
alone. -/
def LoadError.message : LoadError → String
  | .missing path => "file does not exist: " ++ path
  | .unreadable path failure => "IO error reading " ++ path ++ ": " ++ failure.describe
  | .badSettingsFile => "Parse error"
  | .badDocument error => "error decoding the route tree: " ++ error.message
  | .badSettings problems => Settings.problemsMessage problems

def Files.load (files : Files) (path : String) : Except LoadError Bytes :=
  match files path with
  | .ok content => .ok content
  | .error .missing => .error (.missing path)
  | .error failure => .error (.unreadable path failure)

structure Overrides where
  settingsFile : Option String
  routeFile : Option String
  bindAddress : Option String
  logLevel : Option String
  deriving DecidableEq

namespace Settings

/-- Admissible settings, or all their problems. -/
def checked (settings : Settings) : Except LoadError Settings :=
  if settings.problems = [] then .ok settings else .error (.badSettings settings.problems)

def load (files : Files) (path : String) : Except LoadError Settings := do
  let content ← files.load path
  match parse? content with
  | none => throw .badSettingsFile
  | some settings => settings.checked

def overridden (settings : Settings) (overrides : Overrides) : Settings :=
  { settings with
    routeFile := overrides.routeFile.getD settings.routeFile
    bindAddress := overrides.bindAddress.getD settings.bindAddress
    logLevel := overrides.logLevel.getD settings.logLevel }

def resolve (files : Files) (overrides : Overrides) : Except LoadError Settings := do
  let settings ← match overrides.settingsFile with
    | some path => load files path
    | none => .ok default
  (settings.overridden overrides).checked

end Settings

end MockHttp
