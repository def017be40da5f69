import MockHttp.Http.Server
import MockHttp.Proofs.Text.Pieces
/-!
# What a reply carries

A reply is what the site has, with a request id and a length where the site gives none.  Nothing
else is added, and only the body can go.
-/

namespace MockHttp

namespace Headers

variable (headers : Headers)

/-- The values under a name, in their order. -/
def values (name : String) : List Bytes :=
  (headers.filter fun field => field.1 = name).map Prod.snd

end Headers

/-! ## Request ids -/

namespace Request

end Request

/-! ## Replies -/

/-- The name of the header that carries a length. -/
def Headers.lengthHeader : String := "content-length"

/-- Whether a reply opens a tunnel: it is one of success to `CONNECT`. -/
def Method.opensTunnel (method : Method) (status : Status) : Bool :=
  method.text = "CONNECT" && status.isSuccess

/-- The reply that a look-up stands for: the one that was found, or a fixed one. -/
inductive Lookup.Means : Lookup → Reply → Prop
  | found (reply : Reply) : Means (.found reply) reply
  | wrongMethod {reply : Reply} (status : reply.status.code = 405) (headers : reply.headers = [])
      (body : reply.body = []) : Means .wrongMethod reply
  | unknownPath {reply : Reply} (status : reply.status.code = 404)
      (headers : reply.headers = [("content-type", Text.bytes "text/plain; charset=utf-8")])
      (body : reply.body = Text.bytes "404 page not found\n") : Means .unknownPath reply

namespace Site

theorem framed_of_opensTunnel {method : Method} {reply : Reply}
    (htunnel : method.opensTunnel reply.status = true) :
    framed method reply = { reply with body := [] } := by
  rw [Method.opensTunnel, Bool.and_eq_true, decide_eq_true_iff] at htunnel
  exact if_pos htunnel

theorem framed_of_not_opensTunnel {method : Method} {reply : Reply}
    (htunnel : method.opensTunnel reply.status = false) :
    framed method reply =
      ⟨reply.status, reply.headers.setIfAbsent Headers.lengthHeader
        (Text.bytes (toString reply.body.length)),
        if method.text = "HEAD" then [] else reply.body⟩ := by
  refine if_neg ?_
  rwa [← decide_eq_true_iff (p := method.text = "CONNECT"), ← Bool.and_eq_true,
    Bool.not_eq_true]

theorem status_framed (method : Method) (reply : Reply) :
    (framed method reply).status = reply.status := by
  cases htunnel : method.opensTunnel reply.status with
  | true => rw [framed_of_opensTunnel htunnel]
  | false => rw [framed_of_not_opensTunnel htunnel]

theorem body_framed (method : Method) (reply : Reply) :
    (framed method reply).body =
      if method.text = "HEAD" ∨ method.opensTunnel reply.status then [] else reply.body := by
  cases htunnel : method.opensTunnel reply.status with
  | true => rw [framed_of_opensTunnel htunnel, if_pos (.inr rfl)]
  | false => simp [framed_of_not_opensTunnel htunnel]

end Site

end MockHttp
