import MockHttp.Log.Event
import MockHttp.Site.Basic
import MockHttp.Site.Tree
/-!
# Mounting a tree

A tree is walked in the order of its segments, the nodes below a node before the node itself.  The
absolute path of a node is its parent's with its own segment behind it, where a parent path `/`
counts as empty.  Each node becomes an endpoint that is offered to a registry; the first defect or
refusal ends the walk.
-/

namespace MockHttp

/-- How a step ends that has no result: it returns an error, or it panics. -/
inductive Failure (ε : Type) where
  | returned (error : ε)
  | panicked
  deriving DecidableEq

def Failure.map {ε δ : Type} (f : ε → δ) : Failure ε → Failure δ
  | .returned error => .returned (f error)
  | .panicked => .panicked

inductive MountError where
  | trailingSlash (segment : String)
  | noLeadingSlash (segment : String)
  | pathTaken (path : String)
  | badMethod (path method : String)
  | badStatus (path method : String) (status : Nat)
  | badHeader (path method name : String)
  deriving DecidableEq

def MountError.message : MountError → String
  | .trailingSlash segment => "path " ++ segment ++ " ends with a /"
  | .noLeadingSlash segment => "path " ++ Text.quote segment ++ " does not start with a /"
  | .pathTaken path => "path " ++ path ++ " is registered more than once"
  | .badMethod path method => "invalid method " ++ Text.quote method ++ " at " ++ path
  | .badStatus path method status =>
      "invalid status " ++ toString status ++ " for " ++ method ++ " " ++ path
  | .badHeader path method name =>
      "invalid header " ++ Text.quote name ++ " for " ++ method ++ " " ++ path

abbrev MountFailure := Failure MountError

/-- Where endpoints are offered, one path at a time.  A registry has a state, and takes or refuses
each endpoint. -/
structure Registry (σ : Type) where
  offer : String → Endpoint → σ → Except MountFailure Unit × σ

/-- How far a mounting has come: the state of the registry and the events so far. -/
structure Progress (σ : Type) where
  state : σ
  events : List Event

/-- Steps of a mounting, of which the first that fails is the last. -/
abbrev Mounting (σ : Type) := ExceptT MountFailure (StateM (Progress σ))

namespace Mounting

variable {σ : Type}

def log (event : Event) : Mounting σ Unit :=
  modify fun progress => { progress with events := progress.events ++ [event] }

def offer (registry : Registry σ) (path : String) (endpoint : Endpoint) : Mounting σ Unit := do
  let progress ← get
  let (answer, state) := registry.offer path endpoint progress.state
  set { progress with state := state }
  match answer with
  | .ok () => pure ()
  | .error failure => throw failure

def outcome (mounting : Mounting σ Unit) (state : σ) : Except MountFailure Unit × Progress σ :=
  mounting.run ⟨state, []⟩

end Mounting

namespace Handler

/-- The header fields of a reply, taken in the given order; a later value takes the place of an
earlier one under the same name.  A table for all of them is made first, whatever they are.  The
first that may not be sent is named as written. -/
def replyHeaders (written : List (String × String)) : Except (Failure String) Headers :=
  if Headers.canHold written.length then
    written.foldlM (fun headers (name, value) =>
      match Headers.field? (Text.bytes name) (Text.bytes value) with
      | some (name, value) => .ok (headers.set name value)
      | none => .error (.returned name)) []
  else .error .panicked

def reply (path : String) (handler : Handler) : Except MountFailure Reply :=
  match Status.ofCode? handler.status.toNat with
  | none => .error (.returned (.badStatus path handler.method handler.status.toNat))
  | some status =>
      match replyHeaders handler.headers with
      | .error failure => .error (failure.map (.badHeader path handler.method))
      | .ok headers => .ok ⟨status, headers, handler.body⟩

/-- The method and the reply of a handler of a node; the method is checked first. -/
def resolve (path : String) (handler : Handler) : Except MountFailure (Method × Reply) :=
  match Method.ofText? handler.method with
  | none => .error (.returned (.badMethod path handler.method))
  | some method => (handler.reply path).map fun reply => (method, reply)

end Handler

namespace Endpoint

/-- Adds a node's handlers one by one, a later one of a method taking the place of an earlier one.
Every handler is checked; the events tell of each that takes a place. -/
def addHandlers (path : String) (endpoint : Endpoint) :
    List Handler → Except MountFailure Endpoint × List Event
  | [] => (.ok endpoint, [])
  | handler :: handlers =>
      match handler.resolve path with
      | .error failure => (.error failure, [])
      | .ok (method, reply) =>
          let replaced := (endpoint.reply? method).isSome
          let (result, events) := (endpoint.insert method reply).addHandlers path handlers
          (result, if replaced then .methodRepeated path handler.method :: events else events)

def ofHandlers (path : String) (handlers : List Handler) :
    Except MountFailure Endpoint × List Event :=
  empty.addHandlers path handlers

end Endpoint

namespace SegmentTree

variable {σ : Type}

/-- Checks the slashes of a segment: it is `/` or has no `/` at its end, and it starts with one. -/
def checkSegment (segment : String) : Except MountFailure Unit :=
  if segment.toList.getLast? = some '/' ∧ segment ≠ "/" then
    .error (.returned (.trailingSlash segment))
  else if segment.toList.head? ≠ some '/' then .error (.returned (.noLeadingSlash segment))
  else .ok ()

/-- The part of a base that paths begin with: the whole of it, or nothing when it is `/`. -/
def stem (base : String) : String :=
  if base = "/" then "" else base

def pathUnder (base segment : String) : String :=
  stem base ++ segment

/-- What there is to report of a segment under a base shorter than two bytes. -/
def rootEvents (base segment : String) : List Event :=
  if 2 ≤ base.utf8ByteSize then []
  else if base = "/" then [.rootSlashDropped segment]
  else [.mountedAtRoot segment]

def levelEvents (base : String) (tree : SegmentTree) : List Event :=
  if tree.isEmpty then [] else [.levelEntered base]

def mountNode (registry : Registry σ) (path : String) (handlers : List Handler) :
    Mounting σ Unit := do
  let (result, events) := Endpoint.ofHandlers path handlers
  events.forM Mounting.log
  match result with
  | .error failure => throw failure
  | .ok endpoint =>
      Mounting.log (.pathOffered path endpoint.methods)
      Mounting.offer registry path endpoint

/-- Mounts the nodes of one level, each behind what is below it. -/
def mountNodes (registry : Registry σ) (base : String) : SegmentTree → Mounting σ Unit
  | .nil => pure ()
  | .node segment handlers children siblings => do
      match checkSegment segment with
      | .error failure => throw failure
      | .ok () =>
          (rootEvents base segment).forM Mounting.log
          let path := pathUnder base segment
          match children with
          | none => pure ()
          | some below =>
              (levelEvents path below).forM Mounting.log
              below.mountNodes registry path
          mountNode registry path handlers
          siblings.mountNodes registry base

def mount (registry : Registry σ) (base : String) (tree : SegmentTree) : Mounting σ Unit := do
  (levelEvents base tree).forM Mounting.log
  tree.mountNodes registry base

end SegmentTree

namespace Site

def offer (path : String) (endpoint : Endpoint) (site : Site) : Except MountFailure Unit × Site :=
  if (site.endpoint? path).isSome then (.error (.returned (.pathTaken path)), site)
  else (.ok (), ⟨site.endpoints.insert path endpoint⟩)

def registry : Registry Site := ⟨offer⟩

/-- Mounts a tree under a base into a site.  What was mounted before a failure stays. -/
def mount (site : Site) (base : String) (tree : SegmentTree) :
    Except MountFailure Unit × Progress Site :=
  (tree.mount registry base).outcome site

/-- The site of a tree, and the events on the way.  A tree that fails has none. -/
def ofTree (tree : SegmentTree) : Except MountFailure Site × List Event :=
  match empty.mount "" tree with
  | (.error failure, progress) => (.error failure, progress.events)
  | (.ok (), progress) =>
      (.ok progress.state, progress.events ++ [.treeMounted progress.state.size])

end Site

end MockHttp
