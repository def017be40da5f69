import MockHttp.Http.Target
import MockHttp.Log.Event
import MockHttp.Site.Basic
/-!
# Answering requests

A request is looked up by its path and method alone.  The reply is what the site has, with a length
and a request id where the site gives none; only `HEAD` and a successful `CONNECT` lose the body.
Each request is reported and counted.
-/

namespace MockHttp

structure Request where
  method : Method
  target : Target
  headers : Headers
  body : Bytes

/-- What is measured of a request: it is counted, and its duration observed. -/
inductive Measurement where
  | counted (method : String) (status : Nat) (path : String)
  | timed (method : String) (path : String)
  deriving DecidableEq

def Measurement.requestCounter : String := "json_server_requests_total"

def Measurement.durationHistogram : String := "json_server_request_duration_seconds"

def Measurement.line : Measurement → String
  | .counted method status path =>
      "counter " ++ requestCounter ++ "\x7bmethod=" ++ method ++ ",status=" ++ toString status
        ++ ",path=" ++ path ++ "\x7d +1"
  | .timed method path =>
      "histogram " ++ durationHistogram ++ "\x7bmethod=" ++ method ++ ",path=" ++ path
        ++ "\x7d observed"

structure Answer where
  reply : Reply
  event : Event
  measurements : List Measurement

namespace Request

def idHeader : String := "x-request-id"

/-- Bytes that are shown in a log: visible ASCII, spaces and tabs. -/
def isShownByte (b : UInt8) : Bool :=
  b = 9 ∨ (32 ≤ b ∧ b < 127)

/-- The request id that is logged: the first one given, if it can be shown. -/
def shownId (headers : Headers) : String :=
  match headers.first? idHeader with
  | some value => if value.all isShownByte then (Text.ofBytes? value).getD "unknown" else "unknown"
  | none => "unknown"

def idOr (request : Request) (newId : Bytes) : Bytes :=
  (request.headers.first? idHeader).getD newId

def identified (request : Request) (newId : Bytes) : Request :=
  { request with headers := request.headers.setIfAbsent idHeader newId }

end Request

namespace Site

def unknownPathBody : String := "404 page not found\n"

/-- The reply for a lookup, before anything is added to it. -/
def plainReply : Lookup → Reply
  | .found reply => reply
  | .wrongMethod => ⟨⟨405, by decide⟩, [], []⟩
  | .unknownPath =>
      ⟨⟨404, by decide⟩, [("content-type", Text.bytes "text/plain; charset=utf-8")],
        Text.bytes unknownPathBody⟩

/-- The path that a lookup is counted under; all unknown paths share one. -/
def countedPath (path : String) : Lookup → String
  | .unknownPath => "none"
  | _ => path

/-- Adds a length to a reply unless it has one, and takes the body off a reply to `HEAD`.  A
successful reply to `CONNECT` has no body and is given no length. -/
def framed (method : Method) (reply : Reply) : Reply :=
  if method.text = "CONNECT" ∧ reply.status.isSuccess then { reply with body := [] }
  else
    let headers := reply.headers.setIfAbsent "content-length"
      (Text.bytes (toString reply.body.length))
    ⟨reply.status, headers, if method.text = "HEAD" then [] else reply.body⟩

/-- Answers a request, given an id in case it has none of its own. -/
def answer (site : Site) (newId : Bytes) (request : Request) : Answer :=
  let method := request.method
  let path := request.target.path
  let found := site.lookup path method
  let reply := plainReply found
  let counted := countedPath path found
  let named := { reply with
    headers := reply.headers.setIfAbsent Request.idHeader (request.idOr newId) }
  { reply := framed method named
    event := .requestServed (Request.shownId (request.identified newId).headers) method.text path
      reply.status.code
    measurements := [.counted method.text reply.status.code counted, .timed method.text counted] }

/-- The events of a server that listens at an address, answers the given requests one by one, each
with an id in case it has none of its own, and is stopped. -/
def serviceEvents (site : Site) (address : String) (requests : List (Bytes × Request)) :
    List Event :=
  .serverStarting address site.size
    :: requests.map (fun (newId, request) => (site.answer newId request).event)
    ++ [.serverStopped]

def serviceMeasurements (site : Site) (requests : List (Bytes × Request)) : List Measurement :=
  requests.flatMap fun (newId, request) => (site.answer newId request).measurements

end Site

end MockHttp
