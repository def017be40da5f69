import MockHttp.Proofs.Json.Parts
import MockHttp.Proofs.Site.Parsed
/-!
# What a document that is read says

Where the text of each part of a tree stands in the document it was read from: the group of a node
behind the segments that lead to it, its handlers in a list of the group, and in each of them the
method and the payload.
-/

namespace MockHttp.SegmentTree

open Json

/-! ## Handlers -/

/-- The text of a handler gives a method. -/
def GivesMethod (written : Bytes) (method : String) : Prop :=
  ∃ literal, FieldOf written "method" 0 literal ∧ IsString method literal

/-- A payload that the text of a handler gives. -/
def GivesPayload (written payload : Bytes) : Prop :=
  FieldOf written "response" 3 payload

/-- The text says the method of a handler, and gives exactly its payload. -/
structure HandlerMeans (handler : Handler) (written : Bytes) : Prop where
  method : GivesMethod written handler.method
  payload (payload : Bytes) : GivesPayload written payload ↔ handler.payload = some payload

theorem takes_readStatus : Takes readStatus fun _ _ => True := by
  have hstatus {negative : Bool} {s rest : Bytes} {status : UInt16}
      (hread : (number negative s >>= fun read => statusOf read.1 read.2) = .ok (status, rest)) :
      negative = false ∧ ∃ whole, Whole whole ∧ s = whole ++ rest := by
    obtain ⟨⟨read, s'⟩, hnumber, hnext⟩ := bind_eq_ok_iff.1 hread
    cases read with
    | natural value =>
        dsimp only [statusOf] at hnext
        split at hnext
        · obtain ⟨-, rfl⟩ := Prod.mk.inj (Except.ok.inj hnext)
          exact exists_of_number hnumber
        · cases hnext
    | belowZero magnitude => cases hnext
    | fraction sign value => cases hnext
  refine takes_withFirst fun b s status rest hread => ?_
  split at hread
  · cases (hstatus hread).1
  · split at hread
    · obtain ⟨-, whole, hwhole, hs⟩ := hstatus hread
      refine ⟨whole, .scalar (.unsigned ?_), trivial, hs⟩
      simpa using Unsigned.mk hwhole .absent .absent
    · exact absurd hread not_ok_of_refuse

theorem takes_readHeaders (depth : Nat) : Takes (readHeaders depth) fun _ _ => True := by
  have hstep : TakesMember headerMember fun _ _ _ => True := by
    intro headers name s next rest hread
    obtain ⟨value, _, hs, -⟩ := exists_of_keeps takes_text (headers.insert name) hread
    exact ⟨value, hs, trivial⟩
  refine takes_withFirst fun b s headers rest hread => ?_
  split at hread
  · exact absurd hread not_ok_of_refuse
  · rename_i hb
    split at hread
    · cases hread
    · obtain ⟨written, row, hrow, -, rfl⟩ := exists_of_members hstep hread
      exact ⟨_, (IsObject.mk hrow).isValue, trivial, by rw [not_not.1 hb]; rfl⟩

theorem takes_raw : Takes raw Eq := by
  intro s payload rest hread
  obtain ⟨blank, hblank, hvalue, hs⟩ := exists_of_raw hread
  exact ⟨blank, payload, hblank, hvalue, rfl, hs⟩

/-- What a member adds to the fields of a handler that have been read. -/
inductive HandlerNext (fields : HandlerFields) : String × Bytes → HandlerFields → Prop where
  | method {name : String} {value : Bytes} {method : String} : name = "method" →
      fields.method = none → IsString method value →
        HandlerNext fields (name, value) { fields with method := some method }
  | status {name : String} {value : Bytes} {status : UInt16} : name = "status" →
      fields.status = none → HandlerNext fields (name, value) { fields with status := some status }
  | headers {name : String} {value : Bytes} {headers : Keyed String} : name = "headers" →
      fields.headers = none →
        HandlerNext fields (name, value) { fields with headers := some headers }
  | payload {name : String} {value : Bytes} : name = "response" → fields.payload = none →
      HandlerNext fields (name, value) { fields with payload := some value }
  | unknown {name : String} {value : Bytes} : name ∉ ["method", "status", "headers", "response"] →
      HandlerNext fields (name, value) fields

theorem takesMember_handlerMember (depth : Nat) :
    TakesMember (handlerMember depth) HandlerNext := by
  intro fields name s next rest hread
  unfold handlerMember at hread
  split at hread
  · rename_i hname
    split at hread
    · cases hread
    · rename_i hnone
      obtain ⟨value, method, hs, hmeans, rfl⟩ := exists_of_keeps takes_text
        (fun own => { fields with method := some own }) hread
      exact ⟨value, hs, .method hname (by simpa using hnone) hmeans⟩
  · rename_i hmethod
    split at hread
    · rename_i hname
      split at hread
      · cases hread
      · rename_i hnone
        obtain ⟨value, status, hs, -, rfl⟩ := exists_of_keeps takes_readStatus
          (fun own => { fields with status := some own }) hread
        exact ⟨value, hs, .status hname (by simpa using hnone)⟩
    · rename_i hstatus
      split at hread
      · rename_i hname
        split at hread
        · cases hread
        · rename_i hnone
          obtain ⟨value, headers, hs, -, rfl⟩ := exists_of_keeps (takes_readHeaders depth)
            (fun own => { fields with headers := some own }) hread
          exact ⟨value, hs, .headers hname (by simpa using hnone)⟩
      · rename_i hheaders
        split at hread
        · rename_i hname
          split at hread
          · cases hread
          · rename_i hnone
            obtain ⟨value, payload, hs, rfl, rfl⟩ := exists_of_keeps takes_raw
              (fun own => { fields with payload := some own }) hread
            exact ⟨payload, hs, .payload hname (by simpa using hnone)⟩
        · rename_i hresponse
          obtain ⟨value, hs, rfl⟩ := exists_of_passes hread
          exact ⟨value, hs, .unknown (by simp [hmethod, hstatus, hheaders, hresponse])⟩

theorem setsOnce_method : SetsOnce HandlerNext HandlerFields.method "method" IsString where
  own hstep := by
    cases hstep with
    | method _ hnone hmeans => exact ⟨hnone, _, rfl, hmeans⟩
    | status h => exact absurd h (by decide)
    | headers h => exact absurd h (by decide)
    | payload h => exact absurd h (by decide)
    | unknown h => simp at h
  other hname hstep := by
    cases hstep with
    | method h => exact absurd h hname
    | status _ _ => rfl
    | headers _ _ => rfl
    | payload _ _ => rfl
    | unknown _ => rfl

theorem setsOnce_payload : SetsOnce HandlerNext HandlerFields.payload "response" Eq where
  own hstep := by
    cases hstep with
    | method h => exact absurd h (by decide)
    | status h => exact absurd h (by decide)
    | headers h => exact absurd h (by decide)
    | payload _ hnone => exact ⟨hnone, _, rfl, rfl⟩
    | unknown h => simp at h
  other hname hstep := by
    cases hstep with
    | method _ _ _ => rfl
    | status _ _ => rfl
    | headers _ _ => rfl
    | payload h => exact absurd h hname
    | unknown _ => rfl

theorem handlerMeans_of_handlerObject {depth : Nat} {s rest : Bytes} {handler : Handler}
    (hread : handlerObject depth s = .ok (handler, rest)) :
    ∃ row, IsValue (ascii '\x7b' :: row) ∧ HandlerMeans handler (ascii '\x7b' :: row) ∧
      s = row ++ rest := by
  obtain ⟨⟨fields, s'⟩, hfields, hnext⟩ := bind_eq_ok_iff.1 hread
  obtain ⟨members, row, hrow, hwalk, rfl⟩ :=
    exists_of_members (takesMember_handlerMember depth) hfields
  have hobject : IsObject members (ascii '\x7b' :: row) := .mk hrow
  dsimp only at hnext
  split at hnext
  · cases hnext
  · cases hnext
  · rename_i method status hmethod hstatus
    obtain ⟨rfl, rfl⟩ := Prod.mk.inj (Except.ok.inj hnext)
    refine ⟨row, hobject.isValue, ⟨?_, fun payload => ?_⟩, rfl⟩
    · exact setsOnce_method.exists_fieldOf hwalk rfl hobject 0 hmethod
    · rw [GivesPayload, fieldOf_object hobject]
      rcases setsOnce_payload.valuesOf_eq hwalk with
        ⟨hfinal, hvalues⟩ | ⟨-, own, value, hget, rfl, hvalues⟩
      · simp [hvalues, hfinal]
      · simp [hvalues, hget]

/-- A written handler with these elements says the method of the first and the payload of the
fourth, if there is one. -/
theorem handlerMeans_of_isList {elements : List Bytes} {written : Bytes} {handler : Handler}
    (hlist : IsList elements written) {literal : Bytes} (hget : elements[0]? = some literal)
    (hmethod : IsString handler.method literal) (hpayload : elements[3]? = handler.payload) :
    HandlerMeans handler written where
  method := ⟨literal, (fieldOf_list hlist).2 hget, hmethod⟩
  payload payload := by rw [GivesPayload, fieldOf_list hlist, hpayload]

theorem handlerMeans_of_handlerList {depth : Nat} {s rest : Bytes} {handler : Handler}
    (hread : handlerList depth s = .ok (handler, rest)) :
    ∃ row, IsValue (ascii '[' :: row) ∧ HandlerMeans handler (ascii '[' :: row) ∧
      s = row ++ rest := by
  obtain ⟨⟨method, s₁⟩, hmethod, hread⟩ := bind_eq_ok_iff.1 hread
  dsimp only at hread
  split at hread
  rotate_left
  · obtain ⟨_, -, hthrow⟩ := bind_eq_ok_iff.1 hread
    cases hthrow
  rename_i method
  obtain ⟨⟨status, s₂⟩, hstatus, hread⟩ := bind_eq_ok_iff.1 hread
  dsimp only at hread
  split at hread
  rotate_left
  · obtain ⟨_, -, hthrow⟩ := bind_eq_ok_iff.1 hread
    cases hthrow
  rename_i status
  obtain ⟨⟨headers, s₃⟩, hheaders, hread⟩ := bind_eq_ok_iff.1 hread
  obtain ⟨⟨payload, s₄⟩, hpayload, hread⟩ := bind_eq_ok_iff.1 hread
  obtain ⟨s₅, hclose, hreturn⟩ := bind_eq_ok_iff.1 hread
  obtain ⟨rfl, rfl⟩ := Prod.mk.inj (Except.ok.inj hreturn)
  dsimp only at hstatus hheaders hpayload hclose
  -- the elements are collected from the last one on
  obtain ⟨others, row₂, hrow₂, rfl, hothers⟩ : ∃ others row, Row Element .list false others row ∧
      s₂ = row ++ s₅ ∧ others[1]? = payload := by
    cases headers with
    | none =>
        obtain ⟨row, u, hrow, rfl, rfl⟩ := row_of_element?_none (takes_readHeaders depth) hheaders
        have hnone := element?_close raw false blank_nil u
        obtain ⟨rfl, rfl⟩ := Prod.mk.inj (Except.ok.inj (hpayload.symm.trans hnone))
        obtain rfl := Except.ok.inj (hclose.symm.trans (closeList_append blank_nil u))
        exact ⟨[], row, hrow, rfl, rfl⟩
    | some headers =>
        cases payload with
        | none =>
            obtain ⟨row, u, hrow, rfl, rfl⟩ := row_of_element?_none takes_raw hpayload
            obtain rfl := Except.ok.inj (hclose.symm.trans (closeList_append blank_nil u))
            obtain ⟨value, row', -, hrow', rfl⟩ :=
              row_of_element?_some (takes_readHeaders depth) hheaders hrow
            exact ⟨[value], row', hrow', rfl, rfl⟩
        | some payload =>
            obtain ⟨row, hrow, rfl⟩ := row_of_closeList hclose false
            obtain ⟨_, row', rfl, hrow', rfl⟩ := row_of_element?_some takes_raw hpayload hrow
            obtain ⟨value, row'', -, hrow'', rfl⟩ :=
              row_of_element?_some (takes_readHeaders depth) hheaders hrow'
            exact ⟨[value, payload], row'', hrow'', rfl, rfl⟩
  obtain ⟨code, row₁, -, hrow₁, rfl⟩ := row_of_element?_some takes_readStatus hstatus hrow₂
  obtain ⟨literal, row, hmeans, hrow, rfl⟩ := row_of_element?_some takes_text hmethod hrow₁
  have hlist : IsList (literal :: code :: others) (ascii '[' :: row) := .mk hrow
  exact ⟨row, hlist.isValue, handlerMeans_of_isList hlist rfl hmeans hothers, rfl⟩

theorem takes_readHandler (depth : Nat) : Takes (readHandler depth) HandlerMeans := by
  refine takes_withFirst fun b s handler rest hread => ?_
  split at hread
  · rename_i hb
    split at hread
    · cases hread
    · split at hread
      · rename_i hlist
        obtain ⟨row, hvalue, hmeans, rfl⟩ := handlerMeans_of_handlerList hread
        exact ⟨_, hvalue, hmeans, by rw [hlist]; rfl⟩
      · rename_i hlist
        obtain ⟨row, hvalue, hmeans, rfl⟩ := handlerMeans_of_handlerObject hread
        exact ⟨_, hvalue, hmeans, by rw [hb.resolve_left hlist]; rfl⟩
  · exact absurd hread not_ok_of_refuse

/-- The handlers are what the elements of a list say, one by one. -/
def HandlersMean (handlers : List Handler) (written : Bytes) : Prop :=
  ∃ elements, IsList elements written ∧ List.Forall₂ HandlerMeans handlers elements

theorem takes_readHandlers (depth : Nat) : Takes (readHandlers depth) HandlersMean := by
  refine takes_withFirst fun b s handlers rest hread => ?_
  split at hread
  · exact absurd hread not_ok_of_refuse
  · rename_i hb
    split at hread
    · cases hread
    · obtain ⟨elements, row, hrow, hmeans, rfl⟩ := exists_of_elements (takes_readHandler _) hread
      have hlist : IsList elements (ascii '[' :: row) := .mk hrow
      exact ⟨_, hlist.isValue, ⟨elements, hlist, hmeans⟩, by rw [not_not.1 hb]; rfl⟩

/-! ## Groups -/

/-- The text of the group that a way of segments leads to: each of them to a member of an object,
and all but the last from there into the children of that group. -/
inductive GroupAt : Bytes → List String → Bytes → Prop where
  | here {tree group : Bytes} {segment : String} : MemberOf tree segment group →
      GroupAt tree [segment] group
  | deeper {tree group children inner : Bytes} {segment : String} {way : List String} :
      MemberOf tree segment group → FieldOf group "children" 1 children →
        GroupAt children way inner → GroupAt tree (segment :: way) inner

/-- The text of a group says its handlers, if there are any. -/
def SaysHandlers (handlers : List Handler) (written : Bytes) : Prop :=
  handlers ≠ [] → ∃ list, FieldOf written "handlers" 0 list ∧ HandlersMean handlers list

/-- Every node of the tree has its group at its place in the text. -/
def TreeMeans (tree : SegmentTree) (written : Bytes) : Prop :=
  ∀ node ∈ tree.nodes, ∃ group, GroupAt written node.chain group ∧
    SaysHandlers node.group.handlers group

/-- The text says the children, unless there are none. -/
def ChildrenMean (children : Option SegmentTree) (written : Bytes) : Prop :=
  ∀ tree ∈ children, TreeMeans tree written

/-- The text says the handlers of a group, and what is below it. -/
structure GroupMeans (group : Group) (written : Bytes) : Prop where
  handlers : SaysHandlers group.handlers written
  children : ∀ tree ∈ group.children, ∃ children, FieldOf written "children" 1 children ∧
    TreeMeans tree children

theorem takes_nullOr {read : Reader SegmentTree} (hread : Takes read TreeMeans) :
    Takes (nullOr read) ChildrenMean := by
  intro s children rest hnull
  -- with or without a first byte, a tree is read behind the blanks
  have htree {t : Bytes} (ht : skipBlank s = t) (hown : (do
      let (value, s) ← read t
      return (some value, s) : Except Fault (Option SegmentTree × Bytes)) = .ok (children, rest)) :
      ∃ blank value, Blank blank ∧ IsValue value ∧ ChildrenMean children value ∧
        s = blank ++ (value ++ rest) := by
    obtain ⟨⟨tree, s'⟩, htree, hreturn⟩ := bind_eq_ok_iff.1 hown
    obtain ⟨rfl, rfl⟩ := Prod.mk.inj (Except.ok.inj hreturn)
    obtain ⟨blank, hblank, hs⟩ := exists_blank_of_skipBlank ht
    obtain ⟨gap, value, hgap, hvalue, hmeans, rfl⟩ := hread t tree s' htree
    refine ⟨blank ++ gap, value, hblank.append hgap, hvalue, ?_, by simpa using hs⟩
    intro other hother
    obtain rfl := Option.some.inj hother
    exact hmeans
  unfold nullOr at hnull
  split at hnull
  · rename_i hskip
    exact htree hskip hnull
  · rename_i b t hskip
    split at hnull
    · rename_i hb
      obtain ⟨s', hword, hreturn⟩ := bind_eq_ok_iff.1 hnull
      obtain ⟨rfl, rfl⟩ := Prod.mk.inj (Except.ok.inj hreturn)
      obtain ⟨blank, hblank, hs⟩ := exists_blank_of_skipBlank hskip
      have hnone : ChildrenMean none (['n', 'u', 'l', 'l'].map ascii) := by
        intro tree htree
        cases htree
      refine ⟨blank, _, hblank, .scalar .null, hnone, ?_⟩
      rw [hs, hb, eq_of_word hword]
      rfl
    · exact htree hskip hnull

/-- What a member adds to the fields of a group that have been read. -/
inductive GroupNext (fields : GroupFields) : String × Bytes → GroupFields → Prop where
  | handlers {name : String} {value : Bytes} {handlers : List Handler} : name = "handlers" →
      fields.handlers = none → HandlersMean handlers value →
        GroupNext fields (name, value) { fields with handlers := some handlers }
  | children {name : String} {value : Bytes} {children : Option SegmentTree} : name = "children" →
      fields.children = none → ChildrenMean children value →
        GroupNext fields (name, value) { fields with children := some children }
  | unknown {name : String} {value : Bytes} : name ∉ ["handlers", "children"] →
      GroupNext fields (name, value) fields

section

variable {handlers : Reader (List Handler)} {children : Reader (Option SegmentTree)}
  (hhandlers : Takes handlers HandlersMean) (hchildren : Takes children ChildrenMean)
include hhandlers hchildren

theorem takesMember_groupMember : TakesMember (groupMember handlers children) GroupNext := by
  intro fields name s next rest hread
  unfold groupMember at hread
  split at hread
  · rename_i hname
    split at hread
    · cases hread
    · rename_i hnone
      obtain ⟨value, own, hs, hmeans, rfl⟩ := exists_of_keeps hhandlers
        (fun own => { fields with handlers := some own }) hread
      exact ⟨value, hs, .handlers hname (by simpa using hnone) hmeans⟩
  · rename_i hname
    split at hread
    · rename_i hname'
      split at hread
      · cases hread
      · rename_i hnone
        obtain ⟨value, own, hs, hmeans, rfl⟩ := exists_of_keeps hchildren
          (fun own => { fields with children := some own }) hread
        exact ⟨value, hs, .children hname' (by simpa using hnone) hmeans⟩
    · rename_i hname'
      obtain ⟨value, hs, rfl⟩ := exists_of_passes hread
      exact ⟨value, hs, .unknown (by simp [hname, hname'])⟩

omit hhandlers hchildren in
theorem setsOnce_handlers :
    SetsOnce GroupNext GroupFields.handlers "handlers" HandlersMean where
  own hstep := by
    cases hstep with
    | handlers _ hnone hmeans => exact ⟨hnone, _, rfl, hmeans⟩
    | children h => exact absurd h (by decide)
    | unknown h => simp at h
  other hname hstep := by
    cases hstep with
    | handlers h => exact absurd h hname
    | children _ _ _ => rfl
    | unknown _ => rfl

omit hhandlers hchildren in
theorem setsOnce_children :
    SetsOnce GroupNext GroupFields.children "children" ChildrenMean where
  own hstep := by
    cases hstep with
    | handlers h => exact absurd h (by decide)
    | children _ hnone hmeans => exact ⟨hnone, _, rfl, hmeans⟩
    | unknown h => simp at h
  other hname hstep := by
    cases hstep with
    | handlers _ _ _ => rfl
    | children h => exact absurd h hname
    | unknown _ => rfl

omit hhandlers hchildren in
/-- A group means what its fields were read from. -/
theorem groupMeans_of_fields {fields : GroupFields} {written : Bytes}
    (hhandlers : ∀ handlers ∈ fields.handlers,
      ∃ list, FieldOf written "handlers" 0 list ∧ HandlersMean handlers list)
    (hchildren : ∀ children ∈ fields.children,
      ∃ value, FieldOf written "children" 1 value ∧ ChildrenMean children value) :
    GroupMeans fields.group written := by
  obtain ⟨handlers, children⟩ := fields
  constructor
  · intro hne
    cases handlers with
    | none => exact absurd rfl hne
    | some handlers => exact hhandlers handlers rfl
  · intro tree htree
    cases children with
    | none => cases htree
    | some children =>
        obtain ⟨value, hfield, hmeans⟩ := hchildren children rfl
        exact ⟨value, hfield, hmeans tree htree⟩

theorem groupMeans_of_object {s rest : Bytes} {fields : GroupFields}
    (hread : object (groupMember handlers children) ⟨none, none⟩ s = .ok (fields, rest)) :
    ∃ row, IsValue (ascii '\x7b' :: row) ∧ GroupMeans fields.group (ascii '\x7b' :: row) ∧
      s = row ++ rest := by
  obtain ⟨members, row, hrow, hwalk, rfl⟩ :=
    exists_of_members (takesMember_groupMember hhandlers hchildren) hread
  have hobject : IsObject members (ascii '\x7b' :: row) := .mk hrow
  refine ⟨row, hobject.isValue, groupMeans_of_fields ?_ ?_, rfl⟩
  · exact fun _ => setsOnce_handlers.exists_fieldOf hwalk rfl hobject 0
  · exact fun _ => setsOnce_children.exists_fieldOf hwalk rfl hobject 1

theorem groupMeans_of_groupList {s rest : Bytes} {group : Group}
    (hread : groupList handlers children s = .ok (group, rest)) :
    ∃ row, IsValue (ascii '[' :: row) ∧ GroupMeans group (ascii '[' :: row) ∧
      s = row ++ rest := by
  obtain ⟨⟨first, s₁⟩, hfirst, hread⟩ := bind_eq_ok_iff.1 hread
  obtain ⟨⟨second, s₂⟩, hsecond, hread⟩ := bind_eq_ok_iff.1 hread
  obtain ⟨s₃, hclose, hreturn⟩ := bind_eq_ok_iff.1 hread
  obtain ⟨rfl, rfl⟩ := Prod.mk.inj (Except.ok.inj hreturn)
  obtain ⟨elements, row, hrow, rfl, hget, hget'⟩ :
      ∃ elements row, Row Element .list true elements row ∧ s = row ++ s₃ ∧
        (∀ own ∈ first, ∃ value, elements[0]? = some value ∧ HandlersMean own value) ∧
        ∀ own ∈ second, ∃ value, elements[1]? = some value ∧ ChildrenMean own value := by
    cases first with
    | none =>
        obtain ⟨row, u, hrow, rfl, rfl⟩ := row_of_element?_none hhandlers hfirst
        have hnone := element?_close children true blank_nil u
        obtain ⟨rfl, rfl⟩ := Prod.mk.inj (Except.ok.inj (hsecond.symm.trans hnone))
        obtain rfl := Except.ok.inj (hclose.symm.trans (closeList_append blank_nil u))
        exact ⟨[], row, hrow, rfl, by simp, by simp⟩
    | some own =>
        cases second with
        | none =>
            obtain ⟨row, u, hrow, rfl, rfl⟩ := row_of_element?_none hchildren hsecond
            obtain rfl := Except.ok.inj (hclose.symm.trans (closeList_append blank_nil u))
            obtain ⟨value, row', hmeans, hrow', rfl⟩ := row_of_element?_some hhandlers hfirst hrow
            exact ⟨[value], row', hrow', rfl, by simpa using hmeans, by simp⟩
        | some other =>
            obtain ⟨row, hrow, rfl⟩ := row_of_closeList hclose false
            obtain ⟨value, row', hmeans, hrow', rfl⟩ := row_of_element?_some hchildren hsecond hrow
            obtain ⟨value', row'', hmeans', hrow'', rfl⟩ :=
              row_of_element?_some hhandlers hfirst hrow'
            exact ⟨[value', value], row'', hrow'', rfl, by simpa using hmeans',
              by simpa using hmeans⟩
  have hlist : IsList elements (ascii '[' :: row) := .mk hrow
  refine ⟨row, hlist.isValue, groupMeans_of_fields ?_ ?_, rfl⟩
  · intro own hown
    obtain ⟨value, hvalue, hmeans⟩ := hget own hown
    exact ⟨value, (fieldOf_list hlist).2 hvalue, hmeans⟩
  · intro own hown
    obtain ⟨value, hvalue, hmeans⟩ := hget' own hown
    exact ⟨value, (fieldOf_list hlist).2 hvalue, hmeans⟩

theorem exists_of_groupBehind {b : UInt8} (hb : b = ascii '[' ∨ b = ascii '\x7b') {s rest : Bytes}
    {group : Group} (hread : groupBehind b handlers children s = .ok (group, rest)) :
    ∃ value, IsValue value ∧ GroupMeans group value ∧ b :: s = value ++ rest := by
  unfold groupBehind at hread
  split at hread
  · rename_i hlist
    obtain ⟨row, hvalue, hmeans, rfl⟩ := groupMeans_of_groupList hhandlers hchildren hread
    exact ⟨_, hvalue, hmeans, by rw [hlist]; rfl⟩
  · rename_i hlist
    obtain ⟨⟨fields, s'⟩, hfields, hreturn⟩ := bind_eq_ok_iff.1 hread
    obtain ⟨rfl, rfl⟩ := Prod.mk.inj (Except.ok.inj hreturn)
    obtain ⟨row, hvalue, hmeans, rfl⟩ := groupMeans_of_object hhandlers hchildren hfields
    exact ⟨_, hvalue, hmeans, by rw [hb.resolve_left hlist]; rfl⟩

end

/-! ## Trees -/

/-- What a member adds to the nodes that have been read. -/
def TreeNext (tree : SegmentTree) (member : String × Bytes) (next : SegmentTree) : Prop :=
  ∃ group, next = tree.insert member.1 group ∧ GroupMeans group member.2 ∧ GroupOrdered group

theorem takesMember_treeMember {group : Reader Group} (hmeans : Takes group GroupMeans)
    (hordered : Yields GroupOrdered group) : TakesMember (treeMember group) TreeNext := by
  intro tree segment s next rest hread
  obtain ⟨⟨own, s'⟩, hmember, hreturn⟩ := bind_eq_ok_iff.1 hread
  obtain ⟨rfl, rfl⟩ := Prod.mk.inj (Except.ok.inj hreturn)
  obtain ⟨value, hs, hown⟩ := exists_of_memberValue hmeans hmember
  exact ⟨value, hs, own, rfl, hown, hordered.of_memberValue s own s' hmember⟩

/-- The groups of a tree are those of the last members with their segments. -/
def LastMembers (tree : SegmentTree) (members : List (String × Bytes)) : Prop :=
  ∀ segment group, (segment, group) ∈ tree.toList →
    ∃ value, (valuesOf segment members).getLast? = some value ∧ GroupMeans group value

theorem lastMembers_of_walk {tree final : SegmentTree} {before members : List (String × Bytes)}
    (hwalk : Walk TreeNext tree members final) (hordered : tree.Ordered)
    (hlast : LastMembers tree before) : LastMembers final (before ++ members) := by
  induction hwalk generalizing before with
  | nil => rwa [List.append_nil]
  | @cons tree next final member members hstep _ ih =>
      obtain ⟨segment, value⟩ := member
      obtain ⟨group, rfl, hmeans, hgroup⟩ := hstep
      have hnext : LastMembers (tree.insert segment group) (before ++ [(segment, value)]) := by
        intro other own hmem
        rw [valuesOf_append]
        rcases (mem_toList_insert hordered).1 hmem with ⟨rfl, rfl⟩ | ⟨hother, hmem⟩
        · exact ⟨value, by rw [valuesOf_cons_self]; simp, hmeans⟩
        · rw [valuesOf_cons_of_ne (Ne.symm hother), valuesOf_nil, List.append_nil]
          exact hlast other own hmem
      have h := ih (hordered.insert segment hgroup) hnext
      rwa [List.append_assoc] at h

theorem treeMeans_of_lastMembers {tree : SegmentTree} {members : List (String × Bytes)}
    {written : Bytes} (hobject : IsObject members written) (hlast : LastMembers tree members) :
    TreeMeans tree written := by
  intro node hnode
  obtain ⟨segment, group, hmem, hplace⟩ := mem_nodes_iff.1 hnode
  obtain ⟨value, hvalue, hmeans⟩ := hlast segment group hmem
  have hmember : MemberOf written segment value := ⟨members, hobject, hvalue⟩
  rcases hplace with rfl | ⟨inner, hinner, rfl⟩
  · exact ⟨value, .here hmember, hmeans.handlers⟩
  · cases hchildren : group.children with
    | none =>
        rw [hchildren] at hinner
        cases hinner
    | some children =>
        rw [hchildren] at hinner
        obtain ⟨list, hfield, htree⟩ := hmeans.children children hchildren
        obtain ⟨text, hat, hsays⟩ := htree inner hinner
        exact ⟨text, .deeper hmember hfield hat, hsays⟩

/-- Trees and groups that are read are written as what they mean, by induction on the brackets
left. -/
theorem takes_readTree_and_readGroup (depth : Nat) :
    Takes (readTree depth) TreeMeans ∧ Takes (readGroup depth) GroupMeans := by
  induction depth with
  | zero =>
      constructor
      · rw [readTree]
        refine takes_withFirst fun b s tree rest hread => ?_
        split at hread
        · exact absurd hread not_ok_of_refuse
        · cases hread
      · rw [readGroup]
        refine takes_withFirst fun b s group rest hread => ?_
        split at hread
        · cases hread
        · exact absurd hread not_ok_of_refuse
  | succ depth ih =>
      obtain ⟨htree, hgroup⟩ := ih
      constructor
      · rw [readTree]
        refine takes_withFirst fun b s tree rest hread => ?_
        split at hread
        · exact absurd hread not_ok_of_refuse
        · rename_i hb
          have hstep := takesMember_treeMember hgroup (yields_readTree_and_readGroup depth).2
          obtain ⟨members, row, hrow, hwalk, rfl⟩ := exists_of_members hstep hread
          have hobject : IsObject members (ascii '\x7b' :: row) := .mk hrow
          have hlast : LastMembers .nil [] := fun segment group hmem => by cases hmem
          refine ⟨_, hobject.isValue, ?_, by rw [not_not.1 hb]; rfl⟩
          exact treeMeans_of_lastMembers hobject (lastMembers_of_walk hwalk trivial hlast)
      · rw [readGroup]
        refine takes_withFirst fun b s group rest hread => ?_
        split at hread
        · rename_i hb
          exact exists_of_groupBehind (takes_readHandlers depth) (takes_nullOr htree) hb hread
        · exact absurd hread not_ok_of_refuse

/-- The one value of a document, without the blanks around it. -/
def RootOf (document root : Bytes) : Prop :=
  ∃ before behind, Blank before ∧ Blank behind ∧ IsValue root ∧
    document = before ++ (root ++ behind)

theorem exists_root_of_parse {document : Bytes} {tree : SegmentTree}
    (hparse : parse document = .ok tree) : ∃ root, RootOf document root ∧ TreeMeans tree root := by
  unfold parse whole at hparse
  cases hread : nullOr (readTree maxDepth) document with
  | error fault => rw [hread] at hparse; cases hparse
  | ok read =>
      obtain ⟨children, rest⟩ := read
      rw [hread] at hparse
      dsimp only at hparse
      cases hended : ended rest with
      | error fault => rw [hended] at hparse; cases hparse
      | ok ended =>
          rw [hended] at hparse
          obtain rfl := Except.ok.inj hparse
          obtain ⟨before, root, hbefore, hroot, hmeans, hdocument⟩ :=
            takes_nullOr (takes_readTree_and_readGroup maxDepth).1 _ _ _ hread
          refine ⟨root, ⟨before, rest, hbefore, ended_eq_ok_iff.1 hended, hroot, hdocument⟩, ?_⟩
          cases children with
          | none => intro node hnode; cases hnode
          | some tree => exact hmeans tree rfl

end MockHttp.SegmentTree
