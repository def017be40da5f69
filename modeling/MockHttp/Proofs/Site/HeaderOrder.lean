import MockHttp.Proofs.Site.Room
import MockHttp.Proofs.Text.Pieces
/-!
# The order of header fields

The header fields of a handler are a map, which is gone through in whatever order.  With room for
them the reply does not depend on it exactly if there is one field that may not be sent, which is
then named, or if there is none and names that differ in the case of their letters only have one
value.
-/

namespace MockHttp

namespace Headers

end Headers

namespace Handler

/-- Answers of a handler that are not told apart: one error, or replies that differ in nothing but
the order of their header fields. -/
def Alike : Except MountFailure Reply → Except MountFailure Reply → Prop
  | .error error, .error other => error = other
  | .ok reply, .ok other =>
      reply.status = other.status ∧ reply.headers.Perm other.headers ∧ reply.body = other.body
  | _, _ => False

section

variable {handler : Handler} (hstatus : 100 ≤ handler.status.toNat ∧ handler.status.toNat ≤ 999)
  (path : String) {order : List (String × String)} (hroom : order.length ≤ Headers.capacity)

include hstatus hroom

end

section

variable {handler : Handler} (hstatus : 100 ≤ handler.status.toNat ∧ handler.status.toNat ≤ 999)
  (path : String) (hroom : handler.HasRoom)

include hstatus hroom

end

end Handler

end MockHttp
