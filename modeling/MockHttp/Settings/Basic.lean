import MockHttp.Settings.Address
import MockHttp.Text.Quoted
/-!
# Settings

What can be set about a server, the defaults, and the rules that admissible settings keep.
-/

namespace MockHttp

structure Settings where
  bindAddress : String
  routeFile : String
  requestSeconds : UInt64
  logLevel : String
  metricsEnabled : Bool
  metricsAddress : String
  deriving DecidableEq

inductive SettingsProblem where
  | badBindAddress (text : String)
  | zeroTimeout
  | badMetricsAddress (text : String)
  | noRouteFile
  | unknownLogLevel (text : String)
  deriving DecidableEq

def SettingsProblem.message : SettingsProblem → String
  | .badBindAddress text =>
      "listener.bind_address " ++ Text.quote text ++ " is not a socket address"
  | .zeroTimeout => "timeouts.request_secs must be greater than zero"
  | .badMetricsAddress text =>
      "observability.metrics_address " ++ Text.quote text ++ " is not a socket address"
  | .noRouteFile => "routes.file must not be empty"
  | .unknownLogLevel text =>
      "observability.log_level " ++ Text.quote text
        ++ " is not one of trace, debug, info, warn, error"

namespace Settings

def default : Settings where
  bindAddress := "0.0.0.0:3000"
  routeFile := "server.json"
  requestSeconds := 30
  logLevel := "info"
  metricsEnabled := false
  metricsAddress := "0.0.0.0:9090"

def logLevels : List String := ["trace", "debug", "info", "warn", "error"]

/-- The rules that the settings break, each once and in a fixed order.  The metrics address matters
only while metrics are enabled. -/
def problems (settings : Settings) : List SettingsProblem :=
  (if (Address.parse? settings.bindAddress).isNone then [.badBindAddress settings.bindAddress]
    else [])
  ++ (if settings.requestSeconds = 0 then [.zeroTimeout] else [])
  ++ (if settings.metricsEnabled ∧ (Address.parse? settings.metricsAddress).isNone then
      [.badMetricsAddress settings.metricsAddress] else [])
  ++ (if settings.routeFile = "" then [.noRouteFile] else [])
  ++ (if logLevels.contains settings.logLevel.toLower then []
    else [.unknownLogLevel settings.logLevel])

def problemsMessage (problems : List SettingsProblem) : String :=
  "Validation failed: " ++ ", ".intercalate (problems.map SettingsProblem.message)

end Settings

end MockHttp
