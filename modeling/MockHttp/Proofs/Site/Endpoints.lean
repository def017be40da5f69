import MockHttp.Proofs.Keyed
import MockHttp.Proofs.Site.Room
import MockHttp.Proofs.Text.ByteOrder
/-!
# Making an endpoint

Handlers become one endpoint.  All of them are checked, also those whose place a later one takes,
and the first defect in the order of the document decides how they fail.  If there is none, the
endpoint has each method once, with the reply of the last handler of that method, and every handler
whose method has occurred before is reported.
-/

namespace MockHttp

/-! ## The first defect -/

namespace Handler

/-- How a handler fails.  Its method is checked first and its status then; a table is made for its
header fields, and they are gone through in their order. -/
inductive FirstDefect (path : String) (handler : Handler) : MountFailure → Prop
  | method (hmethod : isToken handler.method = false) :
      FirstDefect path handler (.returned (.badMethod path handler.method))
  | status (hmethod : isToken handler.method = true)
      (hstatus : ¬ (100 ≤ handler.status.toNat ∧ handler.status.toNat ≤ 999)) :
      FirstDefect path handler (.returned (.badStatus path handler.method handler.status.toNat))
  | room (hmethod : isToken handler.method = true)
      (hstatus : 100 ≤ handler.status.toNat ∧ handler.status.toNat ≤ 999)
      (hcrowded : ¬ handler.HasRoom) : FirstDefect path handler .panicked
  | header {before after : List (String × String)} {field : String × String}
      (hmethod : isToken handler.method = true)
      (hstatus : 100 ≤ handler.status.toNat ∧ handler.status.toNat ≤ 999)
      (hroom : handler.HasRoom) (hheaders : handler.headers = before ++ field :: after)
      (hbefore : ∀ other ∈ before, (sent? other).isSome) (hunsent : sent? field = none) :
      FirstDefect path handler (.returned (.badHeader path handler.method field.1))

theorem resolve_of_isToken {path : String} {handler : Handler}
    (hmethod : isToken handler.method = true) :
    handler.resolve path =
      (handler.reply path).map fun reply => (⟨handler.method, hmethod⟩, reply) := by
  rw [resolve, Method.ofText?, dif_pos hmethod]

theorem FirstDefect.resolve {path : String} {handler : Handler} {failure : MountFailure}
    (hdefect : handler.FirstDefect path failure) : handler.resolve path = .error failure := by
  cases hdefect with
  | method hmethod => rw [Handler.resolve, Method.ofText?, dif_neg (by simp [hmethod])]
  | status hmethod hstatus =>
      rw [resolve_of_isToken hmethod, reply, Status.ofCode?, dif_neg hstatus]
      rfl
  | room hmethod hstatus hcrowded =>
      rw [resolve_of_isToken hmethod, handler.reply_of_not_hasRoom hstatus hcrowded]
      rfl
  | @header before after field hmethod hstatus hroom hheaders hbefore hunsent =>
      have hfind : List.find? (fun field => (sent? field).isNone) handler.headers = some field := by
        refine List.find?_eq_some_iff_append.2 ⟨by simp [hunsent], before, after, hheaders, ?_⟩
        intro other hother
        simpa [Option.isSome_iff_ne_none] using hbefore other hother
      rw [resolve_of_isToken hmethod, handler.reply_of_find? hstatus hroom hfind]
      rfl

end Handler

namespace Endpoint

/-- The handlers whose method an earlier one has, in their order. -/
def repeats (handlers : List Handler) : List Handler :=
  (handlers.zipIdx.filter fun (handler, i) =>
    (handlers.take i).any fun earlier => earlier.method = handler.method).map Prod.fst

theorem repeats_concat (handlers : List Handler) (handler : Handler) :
    repeats (handlers ++ [handler]) =
      repeats handlers ++
        if handlers.any fun earlier => earlier.method = handler.method then [handler] else [] := by
  have hfront : ∀ entry ∈ handlers.zipIdx,
      ((handlers ++ [handler]).take entry.2).any (fun earlier => earlier.method = entry.1.method) =
        (handlers.take entry.2).any fun earlier => earlier.method = entry.1.method := by
    intro entry hentry
    have hlt := (List.mem_zipIdx hentry).2.1
    rw [List.take_append_of_le_length (by omega)]
  rw [repeats, repeats, List.zipIdx_append, List.filter_append, List.map_append,
    List.filter_congr hfront]
  congr 1
  by_cases hrepeated : handlers.any fun earlier => earlier.method = handler.method <;>
    simp [hrepeated]

/-! ## One handler after the other -/

theorem addHandlers_append (path : String) (endpoint : Endpoint) (handlers rest : List Handler) :
    endpoint.addHandlers path (handlers ++ rest) =
      match endpoint.addHandlers path handlers with
      | (.error error, events) => (.error error, events)
      | (.ok made, events) =>
          ((made.addHandlers path rest).1, events ++ (made.addHandlers path rest).2) := by
  induction handlers generalizing endpoint with
  | nil => rfl
  | cons handler handlers ih =>
      rw [List.cons_append, addHandlers, addHandlers]
      cases handler.resolve path with
      | error error => rfl
      | ok answer =>
          obtain ⟨method, reply⟩ := answer
          dsimp only
          rw [ih]
          rcases (endpoint.insert method reply).addHandlers path handlers with ⟨_ | made, events⟩
          · rfl
          · dsimp only
            split <;> rfl

/-- What an endpoint and its events have to do with the handlers that were merged into it. -/
structure Merged (path : String) (handlers : List Handler) (endpoint : Endpoint)
    (events : List Event) : Prop where
  sorted : endpoint.methods.Pairwise (· < ·)
  methods : ∀ method, method ∈ endpoint.methods ↔ ∃ handler ∈ handlers, handler.method = method
  count : events.length + endpoint.methods.length = handlers.length
  reported : events = (repeats handlers).map fun handler => .methodRepeated path handler.method

theorem reply?_isSome_iff {endpoint : Endpoint} {method : Method} :
    (endpoint.reply? method).isSome ↔ method.text ∈ endpoint.methods := by
  rw [Option.isSome_iff_ne_none, reply?, ne_eq, Keyed.find?_eq_none_iff, not_not, methods]

theorem mem_methods_insert {endpoint : Endpoint} {method : Method} {reply : Reply}
    {other : String} :
    other ∈ (endpoint.insert method reply).methods ↔
      other = method.text ∨ other ∈ endpoint.methods :=
  Keyed.mem_keys_insert

theorem length_methods_insert {endpoint : Endpoint} (hsorted : endpoint.methods.Pairwise (· < ·))
    (method : Method) (reply : Reply) :
    (endpoint.insert method reply).methods.length =
      if (endpoint.reply? method).isSome then endpoint.methods.length
      else endpoint.methods.length + 1 := by
  split
  · rename_i hsome
    exact congrArg List.length (Keyed.keys_insert_of_isSome hsorted hsome)
  · rename_i hnone
    have habsent : endpoint.reply? method = none := by simpa using hnone
    exact (Keyed.keys_insert_perm habsent).length_eq

theorem Merged.concat {path : String} {handlers : List Handler} {endpoint : Endpoint}
    {events : List Event} (hmerged : Merged path handlers endpoint events) {handler : Handler}
    {method : Method} (hmethod : method.text = handler.method) (reply : Reply) :
    Merged path (handlers ++ [handler]) (endpoint.insert method reply)
      (events ++ if (endpoint.reply? method).isSome then [.methodRepeated path handler.method]
        else []) := by
  obtain ⟨hsorted, hmethods, hcount, hreported⟩ := hmerged
  have hrepeated : (endpoint.reply? method).isSome ↔
      (handlers.any fun earlier => earlier.method = handler.method) = true := by
    rw [reply?_isSome_iff, hmethods, hmethod]
    simp
  have hlength := length_methods_insert hsorted method reply
  constructor
  case sorted => exact Keyed.pairwise_keys_insert hsorted
  case methods =>
    intro other
    rw [mem_methods_insert, hmethods, hmethod]
    simp only [List.mem_append, List.mem_singleton, or_and_right, exists_or, exists_eq_left]
    rw [or_comm, eq_comm]
  case count =>
    rw [List.length_append, List.length_append, hlength, List.length_singleton]
    split
    · rw [List.length_singleton]
      omega
    · rw [List.length_nil]
      omega
  case reported =>
    rw [repeats_concat, List.map_append, ← hreported]
    simp only [hrepeated]
    split <;> rfl

theorem merged_ofHandlers {path : String} {handlers : List Handler} {endpoint : Endpoint}
    (hmade : (ofHandlers path handlers).1 = .ok endpoint) :
    Merged path handlers endpoint (ofHandlers path handlers).2 := by
  induction handlers using List.reverseRecOn generalizing endpoint with
  | nil =>
      obtain rfl : empty = endpoint := Except.ok.inj hmade
      exact ⟨List.Pairwise.nil, by simp [methods, empty, Keyed.keys], rfl, rfl⟩
  | append_singleton handlers handler ih =>
      rw [ofHandlers, addHandlers_append] at hmade ⊢
      unfold ofHandlers at ih
      generalize empty.addHandlers path handlers = front at hmade ih ⊢
      obtain ⟨error | made, events⟩ := front
      · cases hmade
      · cases hresolve : handler.resolve path with
        | error error => simp [addHandlers, hresolve] at hmade
        | ok answer =>
            obtain ⟨method, reply⟩ := answer
            simp only [addHandlers, hresolve] at hmade ⊢
            obtain rfl := Except.ok.inj hmade
            exact (ih rfl).concat (Handler.resolve_eq_ok_iff.1 hresolve).1 reply

/-! ## The endpoint of a node -/

/-- A method in two spellings, the second of them twice. -/
def spelledTwice : List Handler :=
  [⟨"get", 200, [], none⟩, ⟨"GET", 201, [], none⟩, ⟨"GET", 202, [], none⟩]

end Endpoint

end MockHttp
