import MockHttp.Http.Message
import MockHttp.Keyed
/-!
# Sites

What is served: one endpoint for each absolute path, with one canned reply for each of its
methods.  A request is answered by equality of the path and then of the method, and nothing else.
-/

namespace MockHttp

/-- The replies at one path, by method. -/
structure Endpoint where
  replies : Keyed Reply
  deriving DecidableEq

namespace Endpoint

def empty : Endpoint := ⟨[]⟩

def reply? (endpoint : Endpoint) (method : Method) : Option Reply :=
  endpoint.replies.find? method.text

/-- Puts the reply to a method, in place of the one that was there. -/
def insert (endpoint : Endpoint) (method : Method) (reply : Reply) : Endpoint :=
  ⟨endpoint.replies.insert method.text reply⟩

def methods (endpoint : Endpoint) : List String :=
  endpoint.replies.keys

end Endpoint

/-- The endpoints of a server, by absolute path. -/
structure Site where
  endpoints : Keyed Endpoint
  deriving DecidableEq

inductive Lookup where
  | found (reply : Reply)
  | wrongMethod
  | unknownPath

namespace Site

def empty : Site := ⟨[]⟩

def endpoint? (site : Site) (path : String) : Option Endpoint :=
  site.endpoints.find? path

def lookup (site : Site) (path : String) (method : Method) : Lookup :=
  match site.endpoint? path with
  | none => .unknownPath
  | some endpoint =>
      match endpoint.reply? method with
      | some reply => .found reply
      | none => .wrongMethod

def paths (site : Site) : List String :=
  site.endpoints.keys

def size (site : Site) : Nat :=
  site.endpoints.length

end Site

end MockHttp
