import MockHttp.Proofs.Http.Overlay
import MockHttp.Proofs.Http.Targets
/-!
# What an answer depends on

Two requests of one method and one path are answered alike, whatever else they carry: neither the
rest of the target nor header fields or a body get through, but for the request id.  And a path is
the same however a target spells it.
-/

namespace MockHttp

/-! ## Answers up to the id -/

/-- The answers differ in nothing but the request id. -/
structure Answer.Agrees (answer other : Answer) : Prop where
  status : answer.reply.status = other.reply.status
  body : answer.reply.body = other.reply.body
  headers : answer.reply.headers.filter (fun field => field.1 ≠ Request.idHeader) =
    other.reply.headers.filter (fun field => field.1 ≠ Request.idHeader)
  event : ∃ shown shown' method path status,
    answer.event = .requestServed shown method path status ∧
      other.event = .requestServed shown' method path status
  measurements : answer.measurements = other.measurements

namespace Headers

theorem filter_ne_setIfAbsent_self (headers : Headers) (name : String) (value : Bytes) :
    (headers.setIfAbsent name value).filter (fun field => field.1 ≠ name) =
      headers.filter fun field => field.1 ≠ name := by
  rw [setIfAbsent]
  split
  · rfl
  · simp

theorem has_filter_ne (headers : Headers) {name other : String} (hne : other ≠ name) :
    has (headers.filter fun field => field.1 ≠ name) other = headers.has other := by
  rw [has, has, List.any_filter]
  congr 1
  funext field
  by_cases hfield : field.1 = other <;> simp [hfield, hne]

theorem filter_ne_setIfAbsent (headers : Headers) {name other : String} (hne : other ≠ name)
    (value : Bytes) :
    (headers.setIfAbsent other value).filter (fun field => field.1 ≠ name) =
      setIfAbsent (headers.filter fun field => field.1 ≠ name) other value := by
  rw [setIfAbsent, setIfAbsent, has_filter_ne headers hne]
  split
  · rfl
  · simp [hne]

end Headers

namespace Site

/-- Apart from ids, the header fields of a framed reply depend on those of the reply alone. -/
theorem filter_headers_framed (method : Method) {reply other : Reply}
    (hstatus : reply.status = other.status) (hbody : reply.body = other.body)
    (hheaders : reply.headers.filter (fun field => field.1 ≠ Request.idHeader) =
      other.headers.filter fun field => field.1 ≠ Request.idHeader) :
    (framed method reply).headers.filter (fun field => field.1 ≠ Request.idHeader) =
      (framed method other).headers.filter fun field => field.1 ≠ Request.idHeader := by
  have hnames : Headers.lengthHeader ≠ Request.idHeader := by decide
  cases htunnel : method.opensTunnel reply.status with
  | true =>
      rw [framed_of_opensTunnel htunnel, framed_of_opensTunnel (hstatus ▸ htunnel)]
      exact hheaders
  | false =>
      rw [framed_of_not_opensTunnel htunnel, framed_of_not_opensTunnel (hstatus ▸ htunnel),
        Headers.filter_ne_setIfAbsent _ hnames, Headers.filter_ne_setIfAbsent _ hnames, hheaders,
        hbody]

/-- Requests of one method and one path are answered alike. -/
theorem agrees_answer (site : Site) {request other : Request}
    (hmethod : request.method = other.method)
    (hpath : request.target.path = other.target.path) (newId otherId : Bytes) :
    (site.answer newId request).Agrees (site.answer otherId other) := by
  simp only [answer, hmethod, hpath]
  constructor
  case status => rw [status_framed, status_framed]
  case body => rw [body_framed, body_framed]
  case headers =>
    refine filter_headers_framed other.method rfl rfl ?_
    rw [Headers.filter_ne_setIfAbsent_self, Headers.filter_ne_setIfAbsent_self]
  case event => exact ⟨_, _, _, _, _, rfl, rfl⟩
  case measurements => rfl

open Target

/-- An answer is decided by the method and the path, up to the request id.  Every spelling of a path
is read back to it, unless it is longer than a target may be.  So the path alone, the path with a
query and the path behind a scheme and an authority get the same answer, whatever the requests bring
along. -/
theorem answer_sees_method_and_path (site : Site) :
    (∀ request other : Request, request.method = other.method →
      request.target.path = other.target.path →
        ∀ newId otherId, (site.answer newId request).Agrees (site.answer otherId other)) ∧
    (∀ text path, IsPath path → Spells text path →
      (parse? text).map Target.path =
        if text.utf8ByteSize ≤ maxLength then some path else none) ∧
    ∀ path query : String, IsPath path → (∀ c ∈ query.toList, isQueryChar c = true) →
      ∀ text ∈ [path, path ++ "?" ++ query, "http://host" ++ path],
      ∀ another ∈ [path, path ++ "?" ++ query, "http://host" ++ path],
      ∀ request other : Request, request.method = other.method →
        parse? text = some request.target → parse? another = some other.target →
          ∀ newId otherId, (site.answer newId request).Agrees (site.answer otherId other) := by
  refine ⟨fun request other => agrees_answer site, fun text path hpath hspells =>
    hspells.path_parse? hpath, ?_⟩
  intro path query hpath hquery text htext another hanother request other hmethod hread hread'
  have hspells : ∀ text ∈ [path, path ++ "?" ++ query, "http://host" ++ path],
      Spells text path := by
    simp only [List.forall_mem_cons, List.not_mem_nil, IsEmpty.forall_iff, implies_true, and_true]
    exact ⟨spells_self path, spells_query path hquery, spells_absolute path⟩
  apply agrees_answer site hmethod
  rw [(hspells text htext).path_eq hpath hread, (hspells another hanother).path_eq hpath hread']

/-- One endpoint with one reply. -/
def oneReply : Site :=
  ⟨[("/a", ⟨[("GET", ⟨⟨200, by decide⟩, [("x-mock", [49])], [104, 105]⟩)]⟩)]⟩

theorem answer_two_spellings :
    ∃ target target', parse? "/a?b=1" = some target ∧ parse? "http://host/a" = some target' ∧
      (oneReply.answer [48] ⟨⟨"GET", by decide⟩, target, [(Request.idHeader, [49])], [1, 2]⟩).Agrees
        (oneReply.answer [48] ⟨⟨"GET", by decide⟩, target', [], []⟩) := by
  obtain ⟨-, hspelled, hforms⟩ := answer_sees_method_and_path oneReply
  have hpath : IsPath "/a" := ⟨by decide, List.all_eq_true.1 (by decide)⟩
  have hquery : ∀ c ∈ "b=1".toList, isQueryChar c = true := List.all_eq_true.1 (by decide)
  have hread := hspelled ("/a" ++ "?" ++ "b=1") "/a" hpath (spells_query "/a" hquery)
  have hread' := hspelled ("http://host" ++ "/a") "/a" hpath (spells_absolute "/a")
  rw [if_pos (by decide), Option.map_eq_some_iff] at hread hread'
  obtain ⟨target, hread, -⟩ := hread
  obtain ⟨target', hread', -⟩ := hread'
  exact ⟨target, target', hread, hread', hforms "/a" "b=1" hpath hquery _ (by simp) _ (by simp)
    ⟨_, target, _, _⟩ ⟨_, target', _, _⟩ rfl hread hread' _ _⟩

end Site

end MockHttp
