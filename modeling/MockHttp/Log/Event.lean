import MockHttp.Text.Quoted
/-!
# What is worth logging

Every event of the program, with its level, the part of the program that reports it, its words and
its fields.
-/

namespace MockHttp

/-- How serious an event is, the least serious first. -/
inductive Level where
  | trace
  | debug
  | info
  | warn
  | error
  deriving DecidableEq

def Level.rank : Level → Nat
  | .trace => 0
  | .debug => 1
  | .info => 2
  | .warn => 3
  | .error => 4

def Level.label : Level → String
  | .trace => "TRACE"
  | .debug => "DEBUG"
  | .info => "INFO"
  | .warn => "WARN"
  | .error => "ERROR"

/-- The value of a field.  A text is quoted in a log line, a display value is not. -/
inductive FieldValue where
  | display (text : String)
  | text (text : String)
  | number (value : Nat)
  | texts (list : List String)

abbrev Field := String × FieldValue

inductive Event where
  | programStarting
  | treeLoading (file : String)
  | treeDecoded (file : String) (segments : Nat)
  | levelEntered (base : String)
  | mountedAtRoot (segment : String)
  | rootSlashDropped (segment : String)
  | methodRepeated (path : String) (method : String)
  | pathOffered (path : String) (methods : List String)
  | treeMounted (endpoints : Nat)
  | siteReady (endpoints : Nat) (paths : List String)
  | listening (address : String) (timeoutSeconds : Nat)
  | metricsListening (address : String)
  | metricsFailed (address : String) (reason : String)
  | serverStarting (address : String) (endpoints : Nat)
  | requestServed (requestId method path : String) (status : Nat)
  | serverStopped
  | signalReceived
  | shutdownComplete
  deriving DecidableEq

namespace Event

def version : String := "0.1.0"

def level : Event → Level
  | treeDecoded .. | levelEntered .. | mountedAtRoot .. => .debug
  | rootSlashDropped .. | methodRepeated .. => .warn
  | metricsFailed .. => .error
  | _ => .info

/-- Whether an event belongs to the mounting of a tree and is reported under its span. -/
def inMounting : Event → Bool
  | levelEntered .. | mountedAtRoot .. | rootSlashDropped .. | methodRepeated ..
  | pathOffered .. | treeMounted .. => true
  | _ => false

/-- The part of the program that reports an event. -/
def target : Event → String
  | programStarting | listening .. | shutdownComplete => "json_server"
  | treeLoading .. | siteReady .. => "json_server::lifecycle::startup"
  | treeDecoded .. => "json_server::config::loader"
  | levelEntered .. | mountedAtRoot .. | rootSlashDropped .. | methodRepeated ..
  | pathOffered .. | treeMounted .. => "json_server::routing::compiler"
  | metricsListening .. | metricsFailed .. => "json_server::observability::metrics"
  | serverStarting .. | requestServed .. | serverStopped => "json_server::http::server"
  | signalReceived => "json_server::lifecycle::signals"

def message : Event → String
  | programStarting => "json-server v" ++ version ++ " starting"
  | treeLoading .. => "Loading route tree"
  | treeDecoded .. => "Route tree decoded"
  | levelEntered .. => "Registering routes"
  | mountedAtRoot .. => "Mounting segment at the server root"
  | rootSlashDropped .. =>
      "Base route part of children, removing /. Place the main route in the handlers"
  | methodRepeated .. => "Duplicate method in group, last definition wins"
  | pathOffered .. => "Registering path"
  | treeMounted .. => "Route tree compiled"
  | siteReady .. => "Routes ready"
  | listening .. => "Listening for connections"
  | metricsListening .. => "Metrics endpoint listening"
  | metricsFailed .. => "Failed to install metrics exporter"
  | serverStarting .. => "HTTP server starting"
  | requestServed .. => "Request served"
  | serverStopped => "HTTP server stopped"
  | signalReceived => "Shutdown signal received"
  | shutdownComplete => "Shutdown complete"

def fields : Event → List Field
  | programStarting | serverStopped | signalReceived | shutdownComplete => []
  | treeLoading file => [("file", .display file)]
  | treeDecoded file segments => [("path", .display file), ("segments", .number segments)]
  | levelEntered base => [("base", .text base)]
  | mountedAtRoot segment => [("segment", .text segment)]
  | rootSlashDropped segment => [("segment", .text segment)]
  | methodRepeated path method => [("path", .text path), ("method", .display method)]
  | pathOffered path methods => [("path", .display path), ("methods", .texts methods)]
  | treeMounted endpoints => [("endpoints", .number endpoints)]
  | siteReady endpoints paths => [("endpoints", .number endpoints), ("paths", .texts paths)]
  | listening address timeoutSeconds =>
      [("address", .display address), ("request_timeout_secs", .number timeoutSeconds)]
  | metricsListening address => [("address", .display address)]
  | metricsFailed address reason =>
      [("address", .display address), ("error", .display reason)]
  | serverStarting address endpoints =>
      [("address", .display address), ("endpoints", .number endpoints)]
  | requestServed requestId method path status =>
      [("request_id", .display requestId), ("method", .display method), ("path", .display path),
        ("status", .number status)]

def plainValue : FieldValue → String
  | .display text => text
  | .text text => text
  | .number value => toString value
  | .texts list => Text.quoteList list

def loggedValue : FieldValue → String
  | .text text => Text.quote text
  | value => plainValue value

def shownFields (shown : FieldValue → String) (event : Event) : String :=
  String.join (event.fields.map fun (name, value) => " " ++ name ++ "=" ++ shown value)

/-- The plain line of an event: level, span, words and fields. -/
def plainLine (span : String) (event : Event) : String :=
  event.level.label ++ (if event.inMounting then " " ++ span else "") ++ " " ++ event.message
    ++ event.shownFields plainValue

/-- The log line of an event without its time: level, span, target, words and fields. -/
def logLine (span : Option String) (event : Event) : String :=
  let scope := match span with
    | some span => if event.inMounting then span ++ ": " else ""
    | none => ""
  event.level.label ++ " " ++ scope ++ event.target ++ ": " ++ event.message
    ++ event.shownFields loggedValue

end Event

end MockHttp
