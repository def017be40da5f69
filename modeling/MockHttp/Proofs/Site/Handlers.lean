import Mathlib.Data.List.Induction
import Mathlib.Data.List.Nodup
import MockHttp.Site.Mount
/-!
# Handlers and the endpoints they make

Handlers are taken one by one, each is checked, and a later one of a method takes the place of an
earlier one.  So an endpoint exists exactly if all handlers are valid and have room for their
headers, and answers a method as the last handler of that method says.
-/

namespace MockHttp

/-! ## Header fields -/

namespace Headers

/-- Sets fields one after the other. -/
def setAll (headers : Headers) (fields : List (String × Bytes)) : Headers :=
  fields.foldl (fun headers field => headers.set field.1 field.2) headers

/-- The last value under a name. -/
def last? (fields : List (String × Bytes)) (name : String) : Option Bytes :=
  ((fields.filter fun field => field.1 = name).getLast?).map Prod.snd

/-- The greatest number of fields that a table can be made for. -/
def capacity : Nat := 24576

theorem canHold_iff {count : Nat} : canHold count = true ↔ count ≤ capacity := by
  rw [canHold, decide_eq_true_iff, maxSlots, capacity]
  omega

theorem mem_set {headers : Headers} {name other : String} {value v : Bytes} :
    (name, value) ∈ headers.set other v ↔
      if other = name then v = value else (name, value) ∈ headers := by
  rw [set, List.mem_append, List.mem_filter, List.mem_singleton, Prod.mk.injEq]
  by_cases hname : other = name
  · simp [hname, eq_comm]
  · have hname' : name ≠ other := fun h => hname h.symm
    simp [hname, hname']

theorem last?_append_singleton (fields : List (String × Bytes)) (field : String × Bytes)
    (name : String) :
    last? (fields ++ [field]) name =
      if field.1 = name then some field.2 else last? fields name := by
  rw [last?, last?, List.filter_append]
  by_cases hname : field.1 = name <;> simp [hname]

/-- Of the fields that are set, the last one of each name stays. -/
theorem mem_setAll {fields : List (String × Bytes)} {name : String} {value : Bytes} :
    (name, value) ∈ setAll [] fields ↔ last? fields name = some value := by
  induction fields using List.reverseRecOn with
  | nil => simp [setAll, last?]
  | append_singleton fields field ih =>
      rw [last?_append_singleton, setAll, List.foldl_append, List.foldl_cons, List.foldl_nil,
        mem_set]
      split
      · simp
      · exact ih

theorem nodup_names_set {headers : Headers} (hnodup : (headers.map Prod.fst).Nodup)
    (name : String) (value : Bytes) : ((headers.set name value).map Prod.fst).Nodup := by
  have hkept : ((headers.filter fun field => field.1 ≠ name).map Prod.fst).Nodup :=
    hnodup.sublist ((List.filter_sublist).map Prod.fst)
  rw [set, List.map_append, List.nodup_append]
  refine ⟨hkept, by simp, ?_⟩
  intro other hother last hlast
  simp only [List.mem_map, List.mem_filter, decide_eq_true_eq] at hother
  obtain ⟨field, ⟨_, hne⟩, rfl⟩ := hother
  rw [List.map_singleton, List.mem_singleton] at hlast
  exact hlast ▸ hne

theorem nodup_names_setAll (fields : List (String × Bytes)) :
    ((setAll [] fields).map Prod.fst).Nodup := by
  induction fields using List.reverseRecOn with
  | nil => simp [setAll]
  | append_singleton fields field ih =>
      rw [setAll, List.foldl_append]
      exact nodup_names_set ih field.1 field.2

end Headers

/-! ## One handler -/

namespace Handler

/-- The field that a written header stands for, if it may be sent. -/
def sent? (written : String × String) : Option (String × Bytes) :=
  Headers.field? (Text.bytes written.1) (Text.bytes written.2)

/-- A handler with nothing wrong in it: its method is a token, its status has three digits, and the
names and the values of its headers may be sent. -/
structure Valid (handler : Handler) : Prop where
  method : isToken handler.method = true
  status : 100 ≤ handler.status.toNat ∧ handler.status.toNat ≤ 999
  headers : ∀ written ∈ handler.headers,
    (Headers.name? (Text.bytes written.1)).isSome ∧
      (Headers.value? (Text.bytes written.2)).isSome

/-- A table can be made for the headers of a handler. -/
def HasRoom (handler : Handler) : Prop :=
  handler.headers.length ≤ Headers.capacity

instance (handler : Handler) : Decidable handler.HasRoom :=
  inferInstanceAs (Decidable (_ ≤ _))

/-- A handler that can be served: it is valid, and there is room for its headers. -/
structure Servable (handler : Handler) : Prop where
  valid : handler.Valid
  room : handler.HasRoom

/-- A reply says what a handler says: the status, the body, and under each header name the last
value that is written for it. -/
structure Gives (handler : Handler) (reply : Reply) : Prop where
  status : reply.status.code = handler.status.toNat
  body : reply.body = handler.body
  names : (reply.headers.map Prod.fst).Nodup
  headers : ∀ name value, (name, value) ∈ reply.headers ↔
    Headers.last? (handler.headers.filterMap sent?) name = some value

theorem isSome_sent? {written : String × String} :
    (sent? written).isSome ↔
      (Headers.name? (Text.bytes written.1)).isSome ∧
        (Headers.value? (Text.bytes written.2)).isSome := by
  rw [sent?, Headers.field?]
  cases Headers.name? (Text.bytes written.1) <;>
    cases Headers.value? (Text.bytes written.2) <;> simp

/-- Sets the field that a written header stands for, or names the header. -/
def setSent (headers : Headers) (written : String × String) : Except (Failure String) Headers :=
  match sent? written with
  | some field => .ok (headers.set field.1 field.2)
  | none => .error (.returned written.1)

theorem foldlM_setSent (headers : Headers) (written : List (String × String)) :
    written.foldlM setSent headers =
      match written.find? fun field => (sent? field).isNone with
      | some field => .error (.returned field.1)
      | none => .ok (headers.setAll (written.filterMap sent?)) := by
  induction written generalizing headers with
  | nil => rfl
  | cons first written ih =>
      rw [List.foldlM_cons, setSent]
      cases hsent : sent? first with
      | none => rw [List.find?_cons_of_pos (by simp [hsent])]; rfl
      | some field =>
          rw [List.find?_cons_of_neg (by simp [hsent]), List.filterMap_cons_some hsent]
          exact ih (headers.set field.1 field.2)

section

variable {written : List (String × String)}

/-- With room for them, headers are refused because of the first that may not be sent; else all of
them are set. -/
theorem replyHeaders_of_le (hroom : written.length ≤ Headers.capacity) :
    replyHeaders written =
      match written.find? fun field => (sent? field).isNone with
      | some field => .error (.returned field.1)
      | none => .ok (Headers.setAll [] (written.filterMap sent?)) := by
  rw [replyHeaders, if_pos (Headers.canHold_iff.2 hroom), ← foldlM_setSent]
  congr 1
  funext headers field
  obtain ⟨name, value⟩ := field
  rw [setSent, sent?]
  dsimp only
  cases Headers.field? (Text.bytes name) (Text.bytes value) <;> rfl

theorem replyHeaders_of_lt (hcrowded : Headers.capacity < written.length) :
    replyHeaders written = .error .panicked := by
  rw [replyHeaders, if_neg]
  rw [Headers.canHold_iff]
  exact Nat.not_le.2 hcrowded

theorem replyHeaders_eq_ok_iff {headers : Headers} :
    replyHeaders written = .ok headers ↔
      written.length ≤ Headers.capacity ∧ (∀ field ∈ written, (sent? field).isSome) ∧
        headers = Headers.setAll [] (written.filterMap sent?) := by
  by_cases hroom : written.length ≤ Headers.capacity
  · rw [replyHeaders_of_le hroom]
    cases hfind : written.find? fun field => (sent? field).isNone with
    | none =>
        have hall : ∀ field ∈ written, (sent? field).isSome := by
          simpa [Option.isSome_iff_ne_none] using hfind
        simp only [Except.ok.injEq]
        exact ⟨fun h => ⟨hroom, hall, h.symm⟩, fun h => h.2.2.symm⟩
    | some field =>
        have hmem : field ∈ written := List.mem_of_find?_eq_some hfind
        have hnone : (sent? field).isNone := by simpa using List.find?_some hfind
        constructor
        · intro h; simp at h
        · rintro ⟨-, hall, -⟩
          have hsome := hall field hmem
          rw [Option.isNone_iff_eq_none.1 hnone] at hsome
          cases hsome
  · rw [replyHeaders_of_lt (Nat.not_le.1 hroom)]
    simp [hroom]

end

theorem reply_eq_ok_iff {path : String} {handler : Handler} {reply : Reply} :
    handler.reply path = .ok reply ↔
      (100 ≤ handler.status.toNat ∧ handler.status.toNat ≤ 999) ∧ handler.HasRoom ∧
        (∀ written ∈ handler.headers, (sent? written).isSome) ∧
          reply.status.code = handler.status.toNat ∧ reply.body = handler.body ∧
            reply.headers = Headers.setAll [] (handler.headers.filterMap sent?) := by
  obtain ⟨⟨code, hcode⟩, headers, body⟩ := reply
  rw [Handler.reply, Status.ofCode?]
  by_cases hstatus : 100 ≤ handler.status.toNat ∧ handler.status.toNat ≤ 999
  · rw [dif_pos hstatus]
    cases hheaders : replyHeaders handler.headers with
    | error failure =>
        constructor
        · intro h; cases h
        · rintro ⟨-, hroom, hall, -⟩
          have hok := replyHeaders_eq_ok_iff.2 ⟨hroom, hall, rfl⟩
          rw [hheaders] at hok
          cases hok
    | ok set =>
        obtain ⟨hroom, hall, hset⟩ := replyHeaders_eq_ok_iff.1 hheaders
        simp only [hstatus, hset, Except.ok.injEq, Reply.mk.injEq, Status.mk.injEq]
        constructor
        · rintro ⟨rfl, rfl, rfl⟩
          exact ⟨⟨trivial, trivial⟩, hroom, hall, rfl, rfl, rfl⟩
        · rintro ⟨-, -, -, rfl, rfl, rfl⟩
          exact ⟨rfl, rfl, rfl⟩
  · rw [dif_neg hstatus]
    simp [hstatus]

section

variable {path : String} (handler : Handler)
  (hstatus : 100 ≤ handler.status.toNat ∧ handler.status.toNat ≤ 999)

include hstatus

/-- The first header that may not be sent is the one that is named. -/
theorem reply_of_find? (hroom : handler.HasRoom) {field : String × String}
    (hfind : List.find? (fun field => (sent? field).isNone) handler.headers = some field) :
    handler.reply path = .error (.returned (.badHeader path handler.method field.1)) := by
  have hrefused : replyHeaders handler.headers = .error (.returned field.1) := by
    rw [replyHeaders_of_le hroom, hfind]
  rw [Handler.reply, Status.ofCode?, dif_pos hstatus]
  dsimp only
  rw [hrefused]
  rfl

theorem reply_of_not_hasRoom (hcrowded : ¬ handler.HasRoom) :
    handler.reply path = .error .panicked := by
  rw [Handler.reply, Status.ofCode?, dif_pos hstatus]
  dsimp only
  rw [replyHeaders_of_lt (Nat.not_le.1 hcrowded)]
  rfl

end

theorem resolve_eq_ok_iff {path : String} {handler : Handler} {method : Method} {reply : Reply} :
    handler.resolve path = .ok (method, reply) ↔
      method.text = handler.method ∧ handler.reply path = .ok reply := by
  obtain ⟨text, htext⟩ := method
  rw [Handler.resolve, Method.ofText?]
  by_cases htoken : isToken handler.method = true
  · rw [dif_pos htoken]
    cases handler.reply path with
    | error error => simp [Except.map]
    | ok given => simp [Except.map, eq_comm]
  · rw [dif_neg htoken]
    have hne : text ≠ handler.method := by
      rintro rfl
      exact htoken htext
    simp [hne]

theorem exists_resolve_eq_ok_iff {path : String} {handler : Handler} :
    (∃ answer, handler.resolve path = .ok answer) ↔ handler.Servable := by
  constructor
  · rintro ⟨⟨method, reply⟩, hresolve⟩
    obtain ⟨hmethod, hreply⟩ := resolve_eq_ok_iff.1 hresolve
    obtain ⟨hstatus, hroom, hheaders, -⟩ := reply_eq_ok_iff.1 hreply
    exact ⟨⟨hmethod ▸ method.valid, hstatus,
      fun written hwritten => isSome_sent?.1 (hheaders written hwritten)⟩, hroom⟩
  · rintro ⟨⟨hmethod, hstatus, hheaders⟩, hroom⟩
    refine ⟨⟨⟨handler.method, hmethod⟩, ⟨⟨handler.status.toNat, hstatus⟩,
      Headers.setAll [] (handler.headers.filterMap sent?), handler.body⟩⟩, ?_⟩
    refine resolve_eq_ok_iff.2 ⟨rfl, reply_eq_ok_iff.2 ⟨hstatus, hroom, ?_, rfl, rfl, rfl⟩⟩
    exact fun written hwritten => isSome_sent?.2 (hheaders written hwritten)

theorem gives_of_resolve {path : String} {handler : Handler} {method : Method} {reply : Reply}
    (hresolve : handler.resolve path = .ok (method, reply)) :
    method.text = handler.method ∧ handler.Gives reply := by
  obtain ⟨hmethod, hreply⟩ := resolve_eq_ok_iff.1 hresolve
  obtain ⟨-, -, -, hstatus, hbody, hheaders⟩ := reply_eq_ok_iff.1 hreply
  refine ⟨hmethod, hstatus, hbody, hheaders ▸ Headers.nodup_names_setAll _, ?_⟩
  intro name value
  rw [hheaders]
  exact Headers.mem_setAll

end Handler

/-! ## The handlers of a node -/

namespace Endpoint

@[simp] theorem reply?_insert (endpoint : Endpoint) (method m : Method) (reply : Reply) :
    (endpoint.insert method reply).reply? m =
      if method.text = m.text then some reply else endpoint.reply? m := by
  simp [insert, reply?]

theorem addHandlers_cons_of_ok {path : String} {endpoint : Endpoint} {handler : Handler}
    {handlers : List Handler} {method : Method} {reply : Reply}
    (hresolve : handler.resolve path = .ok (method, reply)) :
    (endpoint.addHandlers path (handler :: handlers)).1 =
      ((endpoint.insert method reply).addHandlers path handlers).1 := by
  simp only [addHandlers, hresolve]

theorem addHandlers_cons_of_error {path : String} {endpoint : Endpoint} {handler : Handler}
    {handlers : List Handler} {failure : MountFailure}
    (hresolve : handler.resolve path = .error failure) :
    (endpoint.addHandlers path (handler :: handlers)).1 = .error failure := by
  simp only [addHandlers, hresolve]

theorem exists_addHandlers_eq_ok_iff {path : String} {endpoint : Endpoint}
    {handlers : List Handler} :
    (∃ made, (endpoint.addHandlers path handlers).1 = .ok made) ↔
      ∀ handler ∈ handlers, handler.Servable := by
  induction handlers generalizing endpoint with
  | nil => simp [addHandlers]
  | cons handler handlers ih =>
      have hservable : handler.Servable ↔ ∃ answer, handler.resolve path = .ok answer :=
        Handler.exists_resolve_eq_ok_iff.symm
      rw [List.forall_mem_cons, hservable]
      cases hresolve : handler.resolve path with
      | error error => simp [addHandlers_cons_of_error hresolve]
      | ok answer =>
          obtain ⟨method, reply⟩ := answer
          rw [addHandlers_cons_of_ok hresolve, ih]
          simp

/-- The last handler of a method. -/
def lastHandler? (method : String) (handlers : List Handler) : Option Handler :=
  (handlers.filter fun handler => handler.method = method).getLast?

theorem lastHandler?_cons (method : String) (handler : Handler) (handlers : List Handler) :
    lastHandler? method (handler :: handlers) =
      (lastHandler? method handlers).or
        (if handler.method = method then some handler else none) := by
  rw [lastHandler?, lastHandler?, List.filter_cons]
  by_cases hmethod : handler.method = method
  · simp only [hmethod, decide_true, if_true, List.getLast?_cons]
    cases (handlers.filter fun handler => handler.method = method).getLast? <;> rfl
  · simp [hmethod]

theorem lastHandler?_eq_none_iff {method : String} {handlers : List Handler} :
    lastHandler? method handlers = none ↔ ∀ handler ∈ handlers, handler.method ≠ method := by
  simp [lastHandler?]

/-- The reply to a method after handlers were added: that of the last handler of the method, or
else the one from before. -/
theorem reply?_addHandlers {path : String} {endpoint made : Endpoint} {handlers : List Handler}
    (hmade : (endpoint.addHandlers path handlers).1 = .ok made) (method : Method) :
    match lastHandler? method.text handlers with
    | some handler =>
        ∃ reply, made.reply? method = some reply ∧ handler.resolve path = .ok (method, reply)
    | none => made.reply? method = endpoint.reply? method := by
  induction handlers generalizing endpoint with
  | nil =>
      obtain rfl : endpoint = made := by simpa [addHandlers] using hmade
      rfl
  | cons handler handlers ih =>
      cases hresolve : handler.resolve path with
      | error error =>
          rw [addHandlers_cons_of_error hresolve] at hmade
          cases hmade
      | ok answer =>
          obtain ⟨own, reply⟩ := answer
          obtain ⟨hown, hgiven⟩ := Handler.resolve_eq_ok_iff.1 hresolve
          rw [addHandlers_cons_of_ok hresolve] at hmade
          have ih := ih hmade
          rw [lastHandler?_cons]
          cases hlast : lastHandler? method.text handlers with
          | some last => rw [hlast] at ih; exact ih
          | none =>
              rw [hlast, reply?_insert, hown] at ih
              by_cases hmethod : handler.method = method.text
              · rw [if_pos hmethod] at ih ⊢
                exact ⟨reply, ih, Handler.resolve_eq_ok_iff.2 ⟨hmethod.symm, hgiven⟩⟩
              · rw [if_neg hmethod] at ih ⊢
                exact ih

end Endpoint

end MockHttp
