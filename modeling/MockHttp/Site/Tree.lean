import MockHttp.Keyed
import MockHttp.Text.Utf8
/-!
# Segment trees

What a route document says: path segments in byte order, each with the canned answers for its own
path and, possibly, the segments below it.  Nothing is checked here but the form.
-/

namespace MockHttp

/-- One method's canned answer as the document gives it.  The payload is the raw text of a value,
absent when none is written. -/
structure Handler where
  method : String
  status : UInt16
  headers : Keyed String
  payload : Option Bytes
  deriving DecidableEq

def Handler.body (handler : Handler) : Bytes :=
  handler.payload.getD []

/-- The nodes that share a parent.  A node has a segment, its handlers in document order and its
children, which the document may leave out. -/
inductive SegmentTree where
  | nil
  | node (segment : String) (handlers : List Handler) (children : Option SegmentTree)
      (siblings : SegmentTree)

structure Group where
  handlers : List Handler
  children : Option SegmentTree

namespace SegmentTree

def isEmpty : SegmentTree → Bool
  | .nil => true
  | .node .. => false

def toList : SegmentTree → List (String × Group)
  | .nil => []
  | .node segment handlers children siblings =>
      (segment, ⟨handlers, children⟩) :: siblings.toList

def length (tree : SegmentTree) : Nat :=
  tree.toList.length

def size : SegmentTree → Nat
  | .nil => 0
  | .node _ _ none siblings => siblings.size + 1
  | .node _ _ (some children) siblings => children.size + siblings.size + 1

/-- Puts a group at a segment of the top level, in place of the one that was there. -/
def insert (segment : String) (group : Group) : SegmentTree → SegmentTree
  | .nil => .node segment group.handlers group.children .nil
  | .node s handlers children siblings =>
      if segment < s then
        .node segment group.handlers group.children (.node s handlers children siblings)
      else if segment = s then .node segment group.handlers group.children siblings
      else .node s handlers children (siblings.insert segment group)

end SegmentTree

end MockHttp
