import MockHttp.Json.Structure
import MockHttp.Site.Tree
/-!
# Reading a route document

A document is `null` or an object from segments to groups.  A group or a handler is an object, or
a list of its fields in order.  Each bracket that is opened counts against a depth limit, payloads
and unknown members excepted, which are only passed over.
-/

namespace MockHttp.SegmentTree

open Json

def maxDepth : Nat := 127

/-- Reads one header, behind its name; the last of several values of one name stays. -/
def headerMember (headers : Keyed String) (name : String) : Reader (Keyed String) := fun s => do
  let (value, s) ← memberValue text s
  return (headers.insert name value, s)

def readHeaders (depth : Nat) : Reader (Keyed String) :=
  withFirst fun b s =>
    if b ≠ ascii '\x7b' then refuse "a map" (b :: s)
    else
      match depth with
      | 0 => .error (.at .tooDeep (b :: s))
      | _ + 1 => object headerMember [] s

/-- Makes a status of a number that fits 16 bits; `s` is what follows the number. -/
def statusOf (read : Number) (s : Bytes) : Except Fault (UInt16 × Bytes) :=
  match read with
  | .natural value =>
      if value < 65536 then .ok (UInt16.ofNat value, s)
      else .error (.before (.wrongValue value "u16") s)
  | .belowZero magnitude => .error (.before (.wrongValue (-magnitude) "u16") s)
  | .fraction negative value => .error (.before (.wrongType (.fraction negative value) "u16") s)

def readStatus : Reader UInt16 :=
  withFirst fun b s =>
    if b = ascii '-' then do
      let (read, s) ← number true s
      statusOf read s
    else if isDigit b then do
      let (read, s) ← number false (b :: s)
      statusOf read s
    else refuse "u16" (b :: s)

structure HandlerFields where
  method : Option String
  status : Option UInt16
  headers : Option (Keyed String)
  payload : Option Bytes

def handlerMember (depth : Nat) (fields : HandlerFields) (name : String) :
    Reader HandlerFields := fun s => do
  if name = "method" then
    if fields.method.isSome then throw (repeated name s)
    let (value, s) ← memberValue text s
    return (⟨some value, fields.status, fields.headers, fields.payload⟩, s)
  else if name = "status" then
    if fields.status.isSome then throw (repeated name s)
    let (value, s) ← memberValue readStatus s
    return (⟨fields.method, some value, fields.headers, fields.payload⟩, s)
  else if name = "headers" then
    if fields.headers.isSome then throw (repeated name s)
    let (value, s) ← memberValue (readHeaders depth) s
    return (⟨fields.method, fields.status, some value, fields.payload⟩, s)
  else if name = "response" then
    if fields.payload.isSome then throw (repeated name s)
    let (value, s) ← memberValue raw s
    return (⟨fields.method, fields.status, fields.headers, some value⟩, s)
  else
    return (fields, ← skipMember s)

def handlerObject (depth : Nat) : Reader Handler := fun s => do
  let (fields, s) ← object (handlerMember depth) ⟨none, none, none, none⟩ s
  match fields.method, fields.status with
  | none, _ => throw (.before (.missingField "method") s)
  | some _, none => throw (.before (.missingField "status") s)
  | some method, some status =>
      return (⟨method, status, fields.headers.getD [], fields.payload⟩, s)

/-- Reads a handler written as a list, behind its bracket: the method, the status, and perhaps the
headers and the payload. -/
def handlerList (depth : Nat) : Reader Handler := fun s => do
  let (method, s) ← element? text true s
  let some method := method
    | throw (.before (.wrongLength 0 "struct Route with 4 elements") (← closeList s))
  let (status, s) ← element? readStatus false s
  let some status := status
    | throw (.before (.wrongLength 1 "struct Route with 4 elements") (← closeList s))
  let (headers, s) ← element? (readHeaders depth) false s
  let (payload, s) ← element? raw false s
  return (⟨method, status, headers.getD [], payload⟩, ← closeList s)

def readHandler (depth : Nat) : Reader Handler :=
  withFirst fun b s =>
    if b = ascii '[' ∨ b = ascii '\x7b' then
      match depth with
      | 0 => .error (.at .tooDeep (b :: s))
      | depth + 1 => if b = ascii '[' then handlerList depth s else handlerObject depth s
    else refuse "struct Route" (b :: s)

def readHandlers (depth : Nat) : Reader (List Handler) :=
  withFirst fun b s =>
    if b ≠ ascii '[' then refuse "a sequence" (b :: s)
    else
      match depth with
      | 0 => .error (.at .tooDeep (b :: s))
      | depth + 1 => list (readHandler depth) s

def nullOr {α : Type} (read : Reader α) : Reader (Option α) := fun s =>
  match skipBlank s with
  | [] => do
      let (value, s) ← read []
      return (some value, s)
  | b :: s =>
      if b = ascii 'n' then do return (none, ← word ['u', 'l', 'l'] s)
      else do
        let (value, s) ← read (b :: s)
        return (some value, s)

structure GroupFields where
  handlers : Option (List Handler)
  children : Option (Option SegmentTree)

/-- What a group is without the fields that are missing. -/
def GroupFields.group (fields : GroupFields) : Group :=
  ⟨fields.handlers.getD [], fields.children.getD none⟩

def groupMember (handlers : Reader (List Handler)) (children : Reader (Option SegmentTree))
    (fields : GroupFields) (name : String) : Reader GroupFields := fun s => do
  if name = "handlers" then
    if fields.handlers.isSome then throw (repeated name s)
    let (value, s) ← memberValue handlers s
    return (⟨some value, fields.children⟩, s)
  else if name = "children" then
    if fields.children.isSome then throw (repeated name s)
    let (value, s) ← memberValue children s
    return (⟨fields.handlers, some value⟩, s)
  else
    return (fields, ← skipMember s)

/-- Reads a group written as a list, behind its bracket: perhaps the handlers, and perhaps the
children. -/
def groupList (handlers : Reader (List Handler)) (children : Reader (Option SegmentTree)) :
    Reader Group := fun s => do
  let (first, s) ← element? handlers true s
  let (second, s) ← element? children first.isNone s
  return (GroupFields.group ⟨first, second⟩, ← closeList s)

/-- Reads a group behind its bracket, given readers for its fields. -/
def groupBehind (bracket : UInt8) (handlers : Reader (List Handler))
    (children : Reader (Option SegmentTree)) : Reader Group := fun s =>
  if bracket = ascii '[' then groupList handlers children s
  else do
    let (fields, s) ← object (groupMember handlers children) ⟨none, none⟩ s
    return (fields.group, s)

/-- Reads one node of a tree, behind its segment; the last of several with one segment stays. -/
def treeMember (group : Reader Group) (tree : SegmentTree) (segment : String) :
    Reader SegmentTree := fun s => do
  let (value, s) ← memberValue group s
  return (tree.insert segment value, s)

mutual

/-- Reads the nodes of one level while so many more brackets may be opened. -/
def readTree (depth : Nat) : Reader SegmentTree :=
  withFirst fun b s =>
    if b ≠ ascii '\x7b' then refuse "a map" (b :: s)
    else
      match depth with
      | 0 => .error (.at .tooDeep (b :: s))
      | depth + 1 => object (treeMember (readGroup depth)) .nil s

/-- Reads a group while so many more brackets may be opened. -/
def readGroup (depth : Nat) : Reader Group :=
  withFirst fun b s =>
    if b = ascii '[' ∨ b = ascii '\x7b' then
      match depth with
      | 0 => .error (.at .tooDeep (b :: s))
      | depth + 1 => groupBehind b (readHandlers depth) (nullOr (readTree depth)) s
    else refuse "struct PathGroup" (b :: s)

end

/-- The tree of a route document; `null` is the empty one. -/
def parse (document : Bytes) : Except Json.Error SegmentTree :=
  (whole (nullOr (readTree maxDepth)) document).map fun tree => tree.getD .nil

end MockHttp.SegmentTree
