import MockHttp.CommandLine.Options
import MockHttp.Log.Filter
import MockHttp.Site.Load
/-!
# A run of the program

Options are settled, settings resolved, the site loaded, and then the server listens.  Whatever
fails ends the run, and the error is written out in full.
-/

namespace MockHttp

/-- A text in quotes that takes the place of a path: apostrophes are escaped as well. -/
def Text.quotePath (path : String) : String :=
  String.ofList ('"' :: path.toList.flatMap (fun c =>
    if c = '\'' then ['\\', c] else quoteChar c) ++ ['"'])

/-- A name with named values between braces. -/
def Text.record (name : String) (fields : List (String × String)) : String :=
  name ++ " \x7b " ++ ", ".intercalate (fields.map fun (field, value) => field ++ ": " ++ value)
    ++ " \x7d"

def ReadFailure.detail : ReadFailure → String
  | .missing => "Kind(NotFound)"
  | .system code kind text =>
      Text.record "Os" [("code", toString code), ("kind", kind), ("message", Text.quote text)]
  | .nulInPath =>
      Text.record "Error" [("kind", "InvalidInput"), ("message", Text.quote nulText)]

def SettingsProblem.detail : SettingsProblem → String
  | .badBindAddress text => "InvalidBindAddress(" ++ Text.quote text ++ ")"
  | .zeroTimeout => "ZeroRequestTimeout"
  | .badMetricsAddress text => "InvalidMetricsAddress(" ++ Text.quote text ++ ")"
  | .noRouteFile => "EmptyRouteFile"
  | .unknownLogLevel text => "UnknownLogLevel(" ++ Text.quote text ++ ")"

def Json.Error.detail (error : Json.Error) : String :=
  "Error(" ++ Text.quote error.cause.describe ++ ", line: " ++ toString error.place.line
    ++ ", column: " ++ toString error.place.column ++ ")"

/-- A load error in full; nothing more is said of a settings file that is not well-formed. -/
def LoadError.detail : LoadError → String
  | .missing path => "NotFound(" ++ Text.quotePath path ++ ")"
  | .unreadable path failure =>
      Text.record "Io" [("path", Text.quotePath path), ("source", failure.detail)]
  | .badSettingsFile => "Parse"
  | .badDocument error => "Decode(" ++ error.detail ++ ")"
  | .badSettings problems =>
      "Validation([" ++ ", ".intercalate (problems.map SettingsProblem.detail) ++ "])"

def MountError.detail : MountError → String
  | .trailingSlash segment => "TrailingSlash(" ++ Text.quote segment ++ ")"
  | .noLeadingSlash segment => "MissingLeadingSlash(" ++ Text.quote segment ++ ")"
  | .pathTaken path => Text.record "DuplicatePath" [("path", Text.quote path)]
  | .badMethod path method =>
      Text.record "InvalidMethod" [("path", Text.quote path), ("method", Text.quote method)]
  | .badStatus path method status =>
      Text.record "InvalidStatus"
        [("path", Text.quote path), ("method", Text.quote method), ("status", toString status)]
  | .badHeader path method name =>
      Text.record "InvalidHeader"
        [("path", Text.quote path), ("method", Text.quote method), ("name", Text.quote name)]

def StartError.detail : StartError → String
  | .notLoaded error => "Config(" ++ error.detail ++ ")"
  | .notMounted error => "Registration(" ++ error.detail ++ ")"

namespace Program

/-- What the world outside gives a run: files, what the environment says about logging, the address
that an attempt to listen for requests leads to, and what becomes of one to listen for metrics.
Failures are in the words that are shown. -/
structure World where
  files : Files
  logFilter : Option String
  listen : String → Except String Address
  expose : Address → Except String Unit

/-- A world in which every address can be listened on. -/
def World.free (files : Files) (logFilter : Option String) : World where
  files := files
  logFilter := logFilter
  listen text := match Address.parse? text with
    | some address => .ok address
    | none => .error "Custom \x7b kind: InvalidInput, error: \"invalid socket address\" \x7d"
  expose _ := .ok ()

inductive Outcome where
  | helped (text : String)
  | refused (text : String)
  | failed (error : String) (log : List String)
  | panicked (log : List String)
  | serving (site : Site) (settings : Settings) (filter : Log.Filter) (log : List String)

def errorLine (error : String) : String :=
  "Error: " ++ error ++ "\n"

/-- What is written for an error that ends a run.  A settings file that is not well-formed is
described by the reader of its format, of which nothing but the kind is kept. -/
def errorText : LoadError → String
  | .badSettingsFile => "Error: Parse"
  | error => errorLine error.detail

/-- The events of the metrics listener, if there is to be one; `none` if it has no address. -/
def metricsEvents (world : World) (settings : Settings) : Option (List Event) :=
  if settings.metricsEnabled then
    (Address.parse? settings.metricsAddress).map fun address =>
      match world.expose address with
      | .ok () => [.metricsListening address.text]
      | .error reason => [.metricsFailed address.text reason]
  else some []

def stoppingEvents : List Event :=
  [.signalReceived, .serverStopped, .shutdownComplete]

def start (world : World) (overrides : Overrides) : Outcome :=
  match Settings.resolve world.files overrides with
  | .error error => .failed (errorText error) []
  | .ok settings =>
      let filter := Log.Filter.chosen world.logFilter settings.logLevel
      let (loaded, events) := Site.load world.files settings
      let begun := .programStarting :: events
      match loaded with
      | .error .panicked => .panicked (filter.lines begun)
      | .error (.returned error) => .failed (errorLine error.detail) (filter.lines begun)
      | .ok site =>
          match world.listen settings.bindAddress with
          | .error failure => .failed (errorLine failure) (filter.lines begun)
          | .ok address =>
              let listening :=
                begun ++ [.listening address.text settings.requestSeconds.toNat]
              match metricsEvents world settings with
              | none => .failed (errorLine "AddrParseError(Socket)") (filter.lines listening)
              | some metrics =>
                  let started := listening ++ metrics ++ [.serverStarting address.text site.size]
                  .serving site settings filter (filter.lines started)

/-- Runs the program with the given arguments up to the point where it serves. -/
def run (world : World) (arguments : List String) : Outcome :=
  match CommandLine.parse arguments with
  | .help => .helped CommandLine.helpText
  | .refuse error => .refused error.text
  | .start overrides => start world overrides

end Program

end MockHttp
