import MockHttp.Proofs.Json.Writing
import MockHttp.Proofs.Site.Parsed
/-!
# Every way to write a tree is read as the tree

A tree is written as an object, and so are its groups and their handlers.  The members of an object
stand in any order, with any blanks and any unknown members between them, strings are spelled in any
way, and what is empty or absent may be left out.  Whatever is chosen, the tree that was written is
the one that is read, as long as there are brackets enough for its levels; and for every tree there
is something to choose.
-/

namespace MockHttp.SegmentTree

open Json

/-! ## What is written -/

/-- The headers are entries of a map, and the payload is a value in UTF-8. -/
structure Writable (handler : Handler) : Prop where
  headers : handler.headers.keys.Pairwise (· < ·)
  payload : ∀ payload ∈ handler.payload, IsValue payload ∧ ∃ text, payload = Text.bytes text

/-- How many segments lie on the longest way into the tree. -/
def levels : SegmentTree → Nat
  | .nil => 0
  | .node _ _ none siblings => max 1 siblings.levels
  | .node _ _ (some children) siblings => max (children.levels + 1) siblings.levels

/-- An entry of a map is written as a member with its key. -/
inductive EntryWritten : String × String → String × Bytes → Prop where
  | mk {name value : String} {literal : Bytes} : IsString value literal →
      EntryWritten (name, value) (name, literal)

/-- Headers are written as an object, one member for each, in any order. -/
inductive HeadersWritten : Keyed String → Bytes → Prop where
  | mk {headers : Keyed String} {entries : List (String × String)}
      {members : List (String × Bytes)} {object : Bytes} : entries.Perm headers →
        List.Forall₂ EntryWritten entries members → IsObject members object →
          HeadersWritten headers object

/-- A status is written as a whole number. -/
def StatusWritten (status : UInt16) (digits : Bytes) : Prop :=
  Whole digits ∧ decimal digits = status.toNat

/-- What is written by the values of a member: nothing, if it may be left out, or one value. -/
inductive Optionally {α : Type} (Written : α → Bytes → Prop) (omitted : α) : α → List Bytes → Prop
    where
  | left : Optionally Written omitted omitted []
  | given {a : α} {value : Bytes} : Written a value → Optionally Written omitted a [value]

/-- A handler is written as an object.  It may have other members besides its own. -/
structure HandlerMembers (handler : Handler) (members : List (String × Bytes)) : Prop where
  method : ∃ literal, IsString handler.method literal ∧ valuesOf "method" members = [literal]
  status : ∃ digits, StatusWritten handler.status digits ∧ valuesOf "status" members = [digits]
  headers : Optionally HeadersWritten [] handler.headers (valuesOf "headers" members)
  payload : valuesOf "response" members = handler.payload.toList

/-- A handler is written as an object. -/
inductive HandlerWritten : Handler → Bytes → Prop where
  | mk {handler : Handler} {members : List (String × Bytes)} {object : Bytes} :
      HandlerMembers handler members → IsObject members object → HandlerWritten handler object

/-- Handlers are written as a list, in their order. -/
inductive HandlersWritten : List Handler → Bytes → Prop where
  | mk {handlers : List Handler} {elements : List Bytes} {list : Bytes} :
      List.Forall₂ HandlerWritten handlers elements → IsList elements list →
        HandlersWritten handlers list

mutual

/-- A tree is written as an object, one member for each node of its top level, in any order. -/
inductive TreeWritten : SegmentTree → Bytes → Prop where
  | mk {tree : SegmentTree} {entries : List (String × Group)} {members : List (String × Bytes)}
      {object : Bytes} : entries.Perm tree.toList → NodesWritten entries members →
        IsObject members object → TreeWritten tree object

/-- Each node is written as a member with its segment. -/
inductive NodesWritten : List (String × Group) → List (String × Bytes) → Prop where
  | nil : NodesWritten [] []
  | cons {segment : String} {group : Group} {value : Bytes} {entries : List (String × Group)}
      {members : List (String × Bytes)} : GroupWritten group value →
        NodesWritten entries members →
          NodesWritten ((segment, group) :: entries) ((segment, value) :: members)

/-- A group is written as an object.  It may have other members besides its own. -/
inductive GroupWritten : Group → Bytes → Prop where
  | mk {handlers : List Handler} {children : Option SegmentTree}
      {members : List (String × Bytes)} {object : Bytes} : IsObject members object →
      Optionally HandlersWritten [] handlers (valuesOf "handlers" members) →
        ChildrenWritten children (valuesOf "children" members) →
          GroupWritten ⟨handlers, children⟩ object

/-- Children that are absent are left out or written as `null`. -/
inductive ChildrenWritten : Option SegmentTree → List Bytes → Prop where
  | left : ChildrenWritten none []
  | null : ChildrenWritten none [['n', 'u', 'l', 'l'].map ascii]
  | given {tree : SegmentTree} {object : Bytes} : TreeWritten tree object →
      ChildrenWritten (some tree) [object]

end

/-- A document is an object that writes the tree, with blanks around it. -/
inductive DocumentWritten : SegmentTree → Bytes → Prop where
  | mk {tree : SegmentTree} {before object behind : Bytes} : Blank before →
      TreeWritten tree object → Blank behind → DocumentWritten tree (before ++ (object ++ behind))

/-! ## Handlers -/

theorem accepts_readStatus {status : UInt16} {digits : Bytes}
    (hwritten : StatusWritten status digits) : Accepts readStatus digits status := by
  obtain ⟨hwhole, hvalue⟩ := hwritten
  have hlt : status.toNat < 65536 := status.toNat_lt
  have hword : decimal digits ≤ maxWord := by
    rw [hvalue, maxWord]
    omega
  obtain ⟨b, t, rfl, hb, -⟩ := hwhole.1.exists_cons
  have hminus : b ≠ ascii '-' := by
    rintro rfl
    exact absurd hb (by decide)
  refine accepts_withFirst (StartsScalar.isBlank (.inr hb)) fun rest hrest => ?_
  have hnumber := number_append hwhole hword hrest
  rw [List.cons_append] at hnumber
  rw [if_neg hminus, if_pos hb, hnumber, hvalue]
  refine bind_eq_ok_iff.2 ⟨_, rfl, ?_⟩
  simp only [statusOf, if_pos hlt, UInt16.ofNat_toNat]

theorem accepts_raw {value : Bytes} (hvalue : IsValue value)
    (htext : ∃ text, value = Text.bytes text) : Accepts raw value value := by
  obtain ⟨text, htext⟩ := htext
  exact fun blank rest hblank hrest => raw_append hblank hvalue htext hrest

theorem walk_headerMember {entries : List (String × String)} {members : List (String × Bytes)}
    (hwritten : List.Forall₂ EntryWritten entries members) (headers : Keyed String) :
    Walk (AcceptsMember headerMember) headers members (Keyed.insertAll headers entries) := by
  induction hwritten generalizing headers with
  | nil => exact .nil
  | cons hentry _ ih =>
      obtain ⟨hliteral⟩ := hentry
      rename_i name value literal
      exact .cons (acceptsMember_of_keeps (headers.insert name) (fun _ => rfl)
        (accepts_text hliteral)) (ih _)

theorem accepts_readHeaders (depth : Nat) {headers : Keyed String} {object : Bytes}
    (hsorted : headers.keys.Pairwise (· < ·)) (hwritten : HeadersWritten headers object) :
    Accepts (readHeaders (depth + 1)) object headers := by
  obtain ⟨hperm, hentries, ⟨hrow⟩⟩ := hwritten
  refine accepts_withFirst (by decide) fun rest hrest => ?_
  have hwalk := walk_headerMember hentries []
  rw [Keyed.insertAll_eq_of_perm hperm hsorted] at hwalk
  rw [if_neg (by simp)]
  exact accepts_object hrow hwalk rest

section HandlerMember

variable {depth : Nat} {fields : HandlerFields}

theorem handlerMember_of_unknown {name : String}
    (hname : name ∉ ["method", "status", "headers", "response"]) (s : Bytes) :
    handlerMember depth fields name s = skipMember s >>= fun s => .ok (fields, s) := by
  simp only [List.mem_cons, List.not_mem_nil, or_false, not_or] at hname
  obtain ⟨hmethod, hstatus, hheaders, hpayload⟩ := hname
  simp only [handlerMember, if_neg hmethod, if_neg hstatus, if_neg hheaders, if_neg hpayload]
  rfl

/-- The members of a handler are walked through in any order, while each field is set or still to
come. -/
theorem walk_handlerMember {members : List (String × Bytes)} {final : HandlerFields}
    (hmethod : Pending (Accepts text) fields.method final.method (valuesOf "method" members))
    (hstatus : Pending (Accepts readStatus) fields.status final.status (valuesOf "status" members))
    (hheaders : Pending (Accepts (readHeaders depth)) fields.headers final.headers
      (valuesOf "headers" members))
    (hpayload : Pending (Accepts raw) fields.payload final.payload (valuesOf "response" members)) :
    Walk (AcceptsMember (handlerMember depth)) fields members final := by
  induction members generalizing fields with
  | nil =>
      have hfields : fields = final := by
        obtain ⟨m, s, h, p⟩ := fields
        obtain ⟨m', s', h', p'⟩ := final
        rw [HandlerFields.mk.injEq]
        exact ⟨hmethod.eq_of_nil, hstatus.eq_of_nil, hheaders.eq_of_nil, hpayload.eq_of_nil⟩
      exact hfields ▸ .nil
  | cons member members ih =>
      obtain ⟨name, value⟩ := member
      by_cases hname : name ∈ ["method", "status", "headers", "response"]
      · simp only [List.mem_cons, List.not_mem_nil, or_false] at hname
        rcases hname with rfl | rfl | rfl | rfl
        · obtain ⟨method, hown, hmethod⟩ := hmethod.acceptsMember_of_own
            (handlerMember depth) fields (fun own => { fields with method := some own })
            fun hnone _ => by simp only [handlerMember, hnone]; rfl
          exact .cons hown (ih hmethod (hstatus.of_other (by decide))
            (hheaders.of_other (by decide)) (hpayload.of_other (by decide)))
        · obtain ⟨status, hown, hstatus⟩ := hstatus.acceptsMember_of_own
            (handlerMember depth) fields (fun own => { fields with status := some own })
            fun hnone _ => by simp only [handlerMember, hnone]; rfl
          exact .cons hown (ih (hmethod.of_other (by decide)) hstatus
            (hheaders.of_other (by decide)) (hpayload.of_other (by decide)))
        · obtain ⟨headers, hown, hheaders⟩ := hheaders.acceptsMember_of_own
            (handlerMember depth) fields (fun own => { fields with headers := some own })
            fun hnone _ => by simp only [handlerMember, hnone]; rfl
          exact .cons hown (ih (hmethod.of_other (by decide)) (hstatus.of_other (by decide))
            hheaders (hpayload.of_other (by decide)))
        · obtain ⟨payload, hown, hpayload⟩ := hpayload.acceptsMember_of_own
            (handlerMember depth) fields (fun own => { fields with payload := some own })
            fun hnone _ => by simp only [handlerMember, hnone]; rfl
          exact .cons hown (ih (hmethod.of_other (by decide)) (hstatus.of_other (by decide))
            (hheaders.of_other (by decide)) hpayload)
      · have hunknown : AcceptsMember (handlerMember depth) fields (name, value) fields :=
          acceptsMember_of_passes (handlerMember_of_unknown hname)
        simp only [List.mem_cons, List.not_mem_nil, or_false, not_or] at hname
        obtain ⟨hm, hs, hh, hp⟩ := hname
        exact .cons hunknown (ih (hmethod.of_other hm) (hstatus.of_other hs)
          (hheaders.of_other hh) (hpayload.of_other hp))

end HandlerMember

/-- What may be left out is still to come, or else stays as it is when it is left out. -/
theorem Optionally.pending {α : Type} {Written : α → Bytes → Prop} {omitted a : α}
    {values : List Bytes} {read : Reader α} (hwritten : Optionally Written omitted a values)
    (hread : ∀ value, Written a value → Accepts read value a) :
    ∃ found, Pending (Accepts read) none found values ∧ found.getD omitted = a := by
  cases hwritten with
  | left => exact ⟨none, .settled, rfl⟩
  | given hvalue => exact ⟨some a, .awaited (hread _ hvalue), rfl⟩

theorem accepts_readHandler (depth : Nat) {handler : Handler} {object : Bytes}
    (hhandler : Writable handler) (hwritten : HandlerWritten handler object) :
    Accepts (readHandler (depth + 2)) object handler := by
  obtain ⟨hmembers, hobject⟩ := hwritten
  rename_i members
  obtain ⟨hrow⟩ := hobject
  obtain ⟨literal, hliteral, hmethod⟩ := hmembers.method
  obtain ⟨digits, hdigits, hstatus⟩ := hmembers.status
  obtain ⟨headers, hheaders, hheadersD⟩ := hmembers.headers.pending fun value hvalue =>
    accepts_readHeaders depth hhandler.headers hvalue
  have hpayload : Pending (Accepts raw) none handler.payload (valuesOf "response" members) := by
    rw [hmembers.payload]
    cases hown : handler.payload with
    | none => exact .settled
    | some payload =>
        obtain ⟨hvalue, htext⟩ := hhandler.payload payload hown
        exact .awaited (accepts_raw hvalue htext)
  have hwalk : Walk (AcceptsMember (handlerMember (depth + 1))) ⟨none, none, none, none⟩ members
      ⟨some handler.method, some handler.status, headers, handler.payload⟩ := by
    refine walk_handlerMember ?_ ?_ hheaders hpayload
    · rw [hmethod]
      exact .awaited (accepts_text hliteral)
    · rw [hstatus]
      exact .awaited (accepts_readStatus hdigits)
  refine accepts_withFirst (by decide) fun rest _ => ?_
  rw [if_pos (.inr rfl)]
  dsimp only
  rw [if_neg (by decide)]
  refine bind_eq_ok_iff.2 ⟨_, accepts_object hrow hwalk rest, ?_⟩
  dsimp only
  rw [hheadersD]
  rfl

theorem accepts_readHandlers (depth : Nat) {handlers : List Handler} {list : Bytes}
    (hhandlers : ∀ handler ∈ handlers, Writable handler)
    (hwritten : HandlersWritten handlers list) :
    Accepts (readHandlers (depth + 3)) list handlers := by
  obtain ⟨helements, ⟨hrow⟩⟩ := hwritten
  rename_i elements row
  have hread : List.Forall₂ (Accepts (readHandler (depth + 2))) elements handlers := by
    clear hrow
    induction helements with
    | nil => exact .nil
    | cons hfirst _ ih =>
        refine .cons (accepts_readHandler depth (hhandlers _ List.mem_cons_self) hfirst) (ih ?_)
        exact fun handler hhandler => hhandlers handler (.tail _ hhandler)
  refine accepts_withFirst (by decide) fun rest _ => ?_
  rw [if_neg (by simp)]
  exact accepts_list hrow hread rest

/-! ## Groups -/

section GroupMember

variable {handlers : Reader (List Handler)} {children : Reader (Option SegmentTree)}
  {fields : GroupFields}

theorem groupMember_of_unknown {name : String} (hname : name ∉ ["handlers", "children"])
    (s : Bytes) :
    groupMember handlers children fields name s = skipMember s >>= fun s => .ok (fields, s) := by
  simp only [List.mem_cons, List.not_mem_nil, or_false, not_or] at hname
  simp only [groupMember, if_neg hname.1, if_neg hname.2]
  rfl

/-- The members of a group are walked through in any order, too. -/
theorem walk_groupMember {members : List (String × Bytes)} {final : GroupFields}
    (hhandlers : Pending (Accepts handlers) fields.handlers final.handlers
      (valuesOf "handlers" members))
    (hchildren : Pending (Accepts children) fields.children final.children
      (valuesOf "children" members)) :
    Walk (AcceptsMember (groupMember handlers children)) fields members final := by
  induction members generalizing fields with
  | nil =>
      have hfields : fields = final := by
        obtain ⟨h, c⟩ := fields
        obtain ⟨h', c'⟩ := final
        rw [GroupFields.mk.injEq]
        exact ⟨hhandlers.eq_of_nil, hchildren.eq_of_nil⟩
      exact hfields ▸ .nil
  | cons member members ih =>
      obtain ⟨name, value⟩ := member
      by_cases hname : name ∈ ["handlers", "children"]
      · simp only [List.mem_cons, List.not_mem_nil, or_false] at hname
        rcases hname with rfl | rfl
        · obtain ⟨own, hown, hhandlers⟩ := hhandlers.acceptsMember_of_own
            (groupMember handlers children) fields (fun own => { fields with handlers := some own })
            fun hnone _ => by simp only [groupMember, hnone]; rfl
          exact .cons hown (ih hhandlers (hchildren.of_other (by decide)))
        · obtain ⟨own, hown, hchildren⟩ := hchildren.acceptsMember_of_own
            (groupMember handlers children) fields (fun own => { fields with children := some own })
            fun hnone _ => by simp only [groupMember, hnone]; rfl
          exact .cons hown (ih (hhandlers.of_other (by decide)) hchildren)
      · have hother : AcceptsMember (groupMember handlers children) fields (name, value) fields :=
          acceptsMember_of_passes (groupMember_of_unknown hname)
        simp only [List.mem_cons, List.not_mem_nil, or_false, not_or] at hname
        exact .cons hother (ih (hhandlers.of_other hname.1) (hchildren.of_other hname.2))

end GroupMember

/-! ## Trees -/

theorem levels_node (segment : String) (handlers : List Handler) (children : Option SegmentTree)
    (siblings : SegmentTree) :
    (node segment handlers children siblings).levels =
      max ((subtree children).levels + 1) siblings.levels := by
  cases children <;> rfl

/-- The tree can be written with so many brackets open at once: a level takes two, and what is
inside the last of its groups three. -/
structure Fits (depth : Nat) (tree : SegmentTree) : Prop where
  ordered : tree.Ordered
  writable : ∀ node ∈ tree.nodes, ∀ handler ∈ node.group.handlers, Writable handler
  levels : 2 * tree.levels + 3 ≤ depth

/-- A group can be written with so many brackets open inside its own. -/
structure GroupFits (depth : Nat) (group : Group) : Prop where
  writable : ∀ handler ∈ group.handlers, Writable handler
  children : Fits depth (subtree group.children)

theorem fits_node {depth : Nat} {segment : String} {handlers : List Handler}
    {children : Option SegmentTree} {siblings : SegmentTree}
    (hfits : Fits (depth + 2) (node segment handlers children siblings)) :
    GroupFits depth ⟨handlers, children⟩ ∧ Fits (depth + 2) siblings := by
  obtain ⟨hordered, hwritable, hlevels⟩ := hfits
  obtain ⟨-, hchildren, hsiblings⟩ := ordered_node.1 hordered
  simp only [nodes_node, List.mem_append, List.mem_map, List.mem_cons] at hwritable
  rw [levels_node] at hlevels
  have hbelow : Fits depth (subtree children) :=
    ⟨hchildren, fun inner hinner => hwritable (inner.under segment) (.inl ⟨inner, hinner, rfl⟩),
      by omega⟩
  constructor
  · exact ⟨hwritable _ (.inr (.inl rfl)), hbelow⟩
  · exact ⟨hsiblings, fun other hother => hwritable other (.inr (.inr hother)), by omega⟩

theorem Fits.of_mem {depth : Nat} {tree : SegmentTree} (hfits : Fits (depth + 2) tree) :
    ∀ entry ∈ tree.toList, GroupFits depth entry.2 := by
  induction tree using induction_subtree with
  | nil => exact fun _ hentry => absurd hentry List.not_mem_nil
  | node segment handlers children siblings _ ihs =>
      obtain ⟨hown, hsiblings⟩ := fits_node hfits
      exact List.forall_mem_cons.2 ⟨hown, ihs hsiblings⟩

/-- The groups put into a tree one after the other. -/
def insertAll (tree : SegmentTree) (added : List (String × Group)) : SegmentTree :=
  added.foldl (fun tree entry => tree.insert entry.1 entry.2) tree

theorem toList_insertAll (tree : SegmentTree) (added : List (String × Group)) :
    (tree.insertAll added).toList = Keyed.insertAll tree.toList added := by
  induction added generalizing tree with
  | nil => rfl
  | cons entry added ih =>
      have hrest := ih (tree.insert entry.1 entry.2)
      rwa [toList_insert] at hrest

theorem eq_of_toList_eq {tree other : SegmentTree} (heq : tree.toList = other.toList) :
    tree = other := by
  induction tree using induction_subtree generalizing other with
  | nil =>
      cases other with
      | nil => rfl
      | node _ _ _ _ => cases heq
  | node segment handlers children siblings _ ih =>
      cases other with
      | nil => cases heq
      | node _ _ _ _ =>
          obtain ⟨hentry, hrest⟩ := List.cons.inj heq
          obtain ⟨rfl, hgroup⟩ := Prod.mk.inj hentry
          obtain ⟨rfl, rfl⟩ := Group.mk.inj hgroup
          rw [ih hrest]

theorem insertAll_eq_of_perm {tree : SegmentTree} {entries : List (String × Group)}
    (hperm : entries.Perm tree.toList) (hordered : tree.Ordered) :
    nil.insertAll entries = tree := by
  apply eq_of_toList_eq
  rw [toList_insertAll]
  exact Keyed.insertAll_eq_of_perm hperm hordered.pairwise_keys

theorem accepts_treeMember {read : Reader Group} {value : Bytes} {group : Group}
    (hread : Accepts read value group) (tree : SegmentTree) (segment : String) :
    AcceptsMember (treeMember read) tree (segment, value) (tree.insert segment group) :=
  acceptsMember_of_keeps (tree.insert segment) (fun _ => rfl) hread

theorem accepts_nullOr_null (read : Reader SegmentTree) :
    Accepts (nullOr read) (['n', 'u', 'l', 'l'].map ascii) none := by
  intro blank rest hblank _
  have hword : word ['u', 'l', 'l'] (['u', 'l', 'l'].map ascii ++ rest) = .ok rest :=
    word_append ['u', 'l', 'l'] rest
  have hskip : skipBlank (blank ++ (['n', 'u', 'l', 'l'].map ascii ++ rest)) =
      ascii 'n' :: (['u', 'l', 'l'].map ascii ++ rest) := by
    rw [skipBlank_append hblank]
    exact skipBlank_cons (by decide) _
  unfold nullOr
  rw [hskip]
  dsimp only
  rw [if_pos rfl, hword]
  rfl

theorem accepts_nullOr_object {read : Reader SegmentTree} {members : List (String × Bytes)}
    {object : Bytes} {tree : SegmentTree} (hobject : IsObject members object)
    (hread : Accepts read object tree) : Accepts (nullOr read) object (some tree) := by
  intro blank rest hblank hrest
  obtain ⟨hrow⟩ := hobject
  rename_i row
  have hown := hread [] rest blank_nil hrest
  have hskip : skipBlank (blank ++ (ascii '\x7b' :: row ++ rest)) =
      ascii '\x7b' :: (row ++ rest) := by
    rw [skipBlank_append hblank]
    exact skipBlank_cons (by decide) _
  unfold nullOr
  rw [hskip]
  dsimp only
  rw [if_neg (by decide)]
  exact bind_eq_ok_iff.2 ⟨_, hown, rfl⟩

theorem accepts_readTree {depth : Nat} {members : List (String × Bytes)} {object : Bytes}
    {tree : SegmentTree} (hobject : IsObject members object)
    (hwalk : Walk (AcceptsMember (treeMember (readGroup depth))) .nil members tree) :
    Accepts (readTree (depth + 1)) object tree := by
  obtain ⟨hrow⟩ := hobject
  rw [readTree]
  refine accepts_withFirst (by decide) fun rest _ => ?_
  rw [if_neg (by simp)]
  exact accepts_object hrow hwalk rest

theorem accepts_readGroup {depth : Nat} {members : List (String × Bytes)} {object : Bytes}
    {fields : GroupFields} (hobject : IsObject members object)
    (hhandlers : Pending (Accepts (readHandlers depth)) none fields.handlers
      (valuesOf "handlers" members))
    (hchildren : Pending (Accepts (nullOr (readTree depth))) none fields.children
      (valuesOf "children" members)) :
    Accepts (readGroup (depth + 1)) object fields.group := by
  obtain ⟨hrow⟩ := hobject
  have hwalk : Walk (AcceptsMember (groupMember (readHandlers depth) (nullOr (readTree depth))))
      ⟨none, none⟩ members fields := walk_groupMember hhandlers hchildren
  rw [readGroup]
  refine accepts_withFirst (by decide) fun rest _ => ?_
  rw [if_pos (.inr rfl)]
  dsimp only
  rw [groupBehind, if_neg (by decide)]
  exact bind_eq_ok_iff.2 ⟨_, accepts_object hrow hwalk rest, rfl⟩

theorem TreeWritten.exists_isObject {tree : SegmentTree} {object : Bytes}
    (hwritten : TreeWritten tree object) : ∃ members, IsObject members object := by
  obtain ⟨-, -, hobject⟩ := hwritten
  exact ⟨_, hobject⟩

/-! A tree that fits is read as it was written, by induction on how it was written. -/

mutual

theorem TreeWritten.accepts : {tree : SegmentTree} → {object : Bytes} → TreeWritten tree object →
    ∀ depth, Fits depth tree → Accepts (readTree depth) object tree
  | tree, _, .mk hperm hnodes hobject, depth, hfits => by
      have hlevels := hfits.levels
      obtain ⟨depth, rfl⟩ : ∃ inner, depth = inner + 2 := ⟨depth - 2, by omega⟩
      have hgroups {entry : String × Group} (hentry : entry ∈ _) : GroupFits depth entry.2 :=
        hfits.of_mem entry (hperm.mem_iff.1 hentry)
      have hwalk := hnodes.walk depth (fun _ => hgroups) .nil
      rw [insertAll_eq_of_perm hperm hfits.ordered] at hwalk
      exact accepts_readTree hobject hwalk

theorem NodesWritten.walk : {entries : List (String × Group)} → {members : List (String × Bytes)} →
    NodesWritten entries members → ∀ depth, (∀ entry ∈ entries, GroupFits depth entry.2) →
      ∀ tree, Walk (AcceptsMember (treeMember (readGroup (depth + 1)))) tree members
        (tree.insertAll entries)
  | _, _, .nil, _, _, _ => .nil
  | _, _, .cons hgroup hothers, depth, hfits, tree => by
      obtain ⟨hown, hrest⟩ := List.forall_mem_cons.1 hfits
      exact .cons (accepts_treeMember (hgroup.accepts depth hown) tree _)
        (hothers.walk depth hrest _)

theorem GroupWritten.accepts : {group : Group} → {object : Bytes} → GroupWritten group object →
    ∀ depth, GroupFits depth group → Accepts (readGroup (depth + 1)) object group
  | _, _, .mk hobject hhandlers hchildren, depth, hfits => by
      have hlevels := hfits.children.levels
      obtain ⟨depth, rfl⟩ : ∃ inner, depth = inner + 3 := ⟨depth - 3, by omega⟩
      obtain ⟨found, hpending, rfl⟩ := hhandlers.pending fun list hlist =>
        accepts_readHandlers depth hfits.writable hlist
      obtain ⟨below, hpending', rfl⟩ := hchildren.pending (depth + 3) hfits.children
      exact @accepts_readGroup _ _ _ ⟨found, below⟩ hobject hpending hpending'

theorem ChildrenWritten.pending : {children : Option SegmentTree} → {values : List Bytes} →
    ChildrenWritten children values → ∀ depth, Fits depth (subtree children) →
      ∃ found, Pending (Accepts (nullOr (readTree depth))) none found values ∧
        found.getD none = children
  | _, _, .left, _, _ => ⟨none, .settled, rfl⟩
  | _, _, .null, depth, _ => ⟨some none, .awaited (accepts_nullOr_null (readTree depth)), rfl⟩
  | _, _, .given htree, depth, hfits => by
      obtain ⟨members, hobject⟩ := htree.exists_isObject
      exact ⟨_, .awaited (accepts_nullOr_object hobject (htree.accepts depth hfits)), rfl⟩

end

theorem DocumentWritten.parse_eq {tree : SegmentTree} {document : Bytes}
    (hwritten : DocumentWritten tree document) (hfits : Fits maxDepth tree) :
    parse document = .ok tree := by
  obtain ⟨hbefore, htree, hbehind⟩ := hwritten
  rename_i before object behind
  obtain ⟨members, hobject⟩ := htree.exists_isObject
  have hread := htree.accepts maxDepth hfits
  have hstops : Stops behind := by
    have hnil := stops_blank_append hbehind (s := []) (by simp [Stops])
    rwa [List.append_nil] at hnil
  have hnull := accepts_nullOr_object hobject hread before behind hbefore hstops
  simp only [parse, whole, hnull, ended_eq_ok_iff.2 hbehind]
  rfl

/-- However a tree of no more than 62 levels is written, it is what the document is read as. -/
theorem parse_written {tree : SegmentTree} {document : Bytes} (hordered : tree.Ordered)
    (hwritable : ∀ node ∈ tree.nodes, ∀ handler ∈ node.group.handlers, Writable handler)
    (hlevels : tree.levels ≤ 62) (hwritten : DocumentWritten tree document) :
    parse document = .ok tree :=
  hwritten.parse_eq ⟨hordered, hwritable, by rw [maxDepth]; omega⟩

/-- A tree with one answer, whose payload has a blank inside. -/
def sparseTree : SegmentTree :=
  .node "/a" [⟨"GET", 200, [], some (Text.bytes "[ ]")⟩] none .nil

/-- The tree written with an escape in its segment, with `null` for the children, and with a member
that stands for nothing. -/
def sparseDocument : Bytes :=
  Text.bytes (" \x7b\"\\/a\" : \x7b\"x\":[ ],\"children\":null,\"handlers\":[" ++
    "\x7b\"status\":200,\"response\":[ ],\"method\":\"GET\"\x7d]\x7d\x7d")

theorem sparseDocument_written : DocumentWritten sparseTree sparseDocument := by
  have hblank : Blank [ascii ' '] := by decide
  have hpayload : IsValue (Text.bytes "[ ]") := .hollow .list hblank
  have hnull : IsValue (['n', 'u', 'l', 'l'].map ascii) := .scalar .null
  have hget : IsString "GET" _ := .mk (denotes_plain (by decide +kernel))
  have hwhole : Whole (Text.bytes "200") := by
    refine ⟨⟨by decide +kernel, by decide +kernel⟩, by decide +kernel⟩
  have hstatus : IsValue (Text.bytes "200") :=
    .scalar (.unsigned (by simpa using Unsigned.mk hwhole .absent .absent))
  have hhandler : IsObject [("status", Text.bytes "200"), ("response", Text.bytes "[ ]"),
      ("method", _)] _ :=
    .mk (.part .first (member_plain (by decide +kernel) hstatus)
      (.part (.comma blank_nil) (member_plain (by decide +kernel) hpayload)
        (.part (.comma blank_nil) (member_plain (by decide +kernel) hget.isValue)
          (.close blank_nil))))
  have hlist : IsList [_] _ :=
    .mk (.part .first (.mk blank_nil hhandler.isValue) (.close blank_nil))
  have hgroup : IsObject [("x", Text.bytes "[ ]"), ("children", ['n', 'u', 'l', 'l'].map ascii),
      ("handlers", _)] _ :=
    .mk (.part .first (member_plain (by decide +kernel) hpayload)
      (.part (.comma blank_nil) (member_plain (by decide +kernel) hnull)
        (.part (.comma blank_nil) (member_plain (by decide +kernel) hlist.isValue)
          (.close blank_nil))))
  have hletter : Denotes [ascii 'a'] [ascii 'a'] :=
    denotes_plain (List.forall_mem_singleton.2 (by decide))
  have hsegment : Denotes (Text.bytes "\\/a") (Text.bytes "/a") :=
    .escape (e := [ascii '/']) (d := [ascii '/']) (.short (by decide)) hletter
  have htree : IsObject [("/a", _)] _ :=
    .mk (.part .first
      (.mk blank_nil hsegment hblank hblank hgroup.isValue) (.close blank_nil))
  have hstatus : StatusWritten 200 (Text.bytes "200") := ⟨hwhole, by decide +kernel⟩
  have hhandlers : HandlersWritten [⟨"GET", 200, [], some (Text.bytes "[ ]")⟩] _ :=
    .mk (.cons (.mk ⟨⟨_, hget, rfl⟩, ⟨_, hstatus, rfl⟩, .left, rfl⟩ hhandler) .nil) hlist
  have hwritten : TreeWritten sparseTree _ :=
    .mk (.refl _) (.cons (.mk hgroup (.given hhandlers) .null) .nil) htree
  have hdocument := DocumentWritten.mk hblank hwritten blank_nil
  convert hdocument using 1
  decide +kernel

theorem parse_sparseDocument : sparseTree.levels ≤ 62 ∧ parse sparseDocument = .ok sparseTree := by
  have hordered : sparseTree.Ordered :=
    ordered_node.2 ⟨fun _ hother => absurd hother List.not_mem_nil, trivial, trivial⟩
  have hwritable : ∀ node ∈ sparseTree.nodes, ∀ handler ∈ node.group.handlers,
      Writable handler := by
    intro node hnode handler hhandler
    obtain rfl := List.mem_singleton.1 hnode
    obtain rfl := List.mem_singleton.1 hhandler
    refine ⟨.nil, fun payload hpayload => ?_⟩
    obtain rfl := Option.some.inj hpayload
    have hblank : Blank [ascii ' '] := by decide
    exact ⟨.hollow .list hblank, _, rfl⟩
  have hlevels : sparseTree.levels ≤ 62 := by decide
  exact ⟨hlevels, parse_written hordered hwritable hlevels sparseDocument_written⟩

/-! ## Something to write for every tree -/

theorem exists_forall₂ {α β : Type} {R : α → β → Prop} {as : List α} (hR : ∀ a ∈ as, ∃ b, R a b) :
    ∃ bs, List.Forall₂ R as bs := by
  induction as with
  | nil => exact ⟨[], .nil⟩
  | cons a as ih =>
      obtain ⟨⟨b, hb⟩, hrest⟩ := List.forall_mem_cons.1 hR
      obtain ⟨bs, hbs⟩ := ih hrest
      exact ⟨b :: bs, .cons hb hbs⟩

theorem forall_mem_of_forall₂ {α β : Type} {R : α → β → Prop} {p : β → Prop}
    (hp : ∀ a b, R a b → p b) {as : List α} {bs : List β} (hbs : List.Forall₂ R as bs) :
    ∀ b ∈ bs, p b := by
  induction hbs with
  | nil => exact fun _ hb => absurd hb List.not_mem_nil
  | cons hab _ ih => exact List.forall_mem_cons.2 ⟨hp _ _ hab, ih⟩

theorem exists_headersWritten (headers : Keyed String) :
    ∃ object, HeadersWritten headers object ∧ IsValue object := by
  have hentries : ∀ entry ∈ headers, ∃ member, EntryWritten entry member := by
    rintro ⟨name, value⟩ -
    obtain ⟨literal, hliteral⟩ := exists_isString value
    exact ⟨_, .mk hliteral⟩
  obtain ⟨members, hmembers⟩ := exists_forall₂ hentries
  have hvalues : ∀ member ∈ members, IsValue member.2 := by
    refine forall_mem_of_forall₂ ?_ hmembers
    rintro entry member ⟨hliteral⟩
    exact hliteral.isValue
  obtain ⟨object, hobject⟩ := exists_isObject hvalues
  exact ⟨object, .mk (.refl _) hmembers hobject, hobject.isValue⟩

theorem exists_handlerWritten {handler : Handler} (hhandler : Writable handler) :
    ∃ object, HandlerWritten handler object ∧ IsValue object := by
  obtain ⟨method, status, entries, payload⟩ := handler
  obtain ⟨literal, hliteral⟩ := exists_isString method
  obtain ⟨digits, hwhole, hdecimal⟩ := exists_whole status.toNat
  obtain ⟨headers, hheaders, hvalue⟩ := exists_headersWritten entries
  have hstatus : IsValue digits :=
    .scalar (.unsigned (by simpa using Unsigned.mk hwhole .absent .absent))
  let members := [("method", literal), ("status", digits), ("headers", headers)] ++
    payload.toList.map fun payload => ("response", payload)
  have hvalues : ∀ member ∈ members, IsValue member.2 := by
    simpa [members, hliteral.isValue, hstatus, hvalue] using fun payload hpayload =>
      (hhandler.payload payload hpayload).1
  have hmembers : HandlerMembers ⟨method, status, entries, payload⟩ members := by
    have hnames : valuesOf "method" members = [literal] ∧ valuesOf "status" members = [digits] ∧
        valuesOf "headers" members = [headers] ∧ valuesOf "response" members = payload.toList := by
      cases payload <;> exact ⟨rfl, rfl, rfl, rfl⟩
    obtain ⟨hmethod, hcode, hfields, hpayload⟩ := hnames
    exact ⟨⟨literal, hliteral, hmethod⟩, ⟨digits, ⟨hwhole, hdecimal⟩, hcode⟩,
      hfields ▸ .given hheaders, hpayload⟩
  obtain ⟨object, hobject⟩ := exists_isObject hvalues
  exact ⟨object, .mk hmembers hobject, hobject.isValue⟩

theorem exists_handlersWritten {handlers : List Handler}
    (hhandlers : ∀ handler ∈ handlers, Writable handler) :
    ∃ list, HandlersWritten handlers list ∧ IsValue list := by
  obtain ⟨elements, helements⟩ := exists_forall₂ fun handler hhandler =>
    exists_handlerWritten (hhandlers handler hhandler)
  have hvalues : ∀ element ∈ elements, IsValue element :=
    forall_mem_of_forall₂ (fun _ _ hboth => hboth.2) helements
  obtain ⟨list, hlist⟩ := exists_isList hvalues
  exact ⟨list, .mk (helements.imp fun _ _ hboth => hboth.1) hlist, hlist.isValue⟩

theorem exists_groupWritten {handlers : List Handler} {children : Option SegmentTree}
    (hhandlers : ∀ handler ∈ handlers, Writable handler)
    (hchildren : ∃ object, TreeWritten (subtree children) object ∧ IsValue object) :
    ∃ object, GroupWritten ⟨handlers, children⟩ object ∧ IsValue object := by
  obtain ⟨list, hlist, hvalue⟩ := exists_handlersWritten hhandlers
  obtain ⟨below, hbelow, hvalue'⟩ := hchildren
  cases children with
  | none =>
      have hvalues : ∀ member ∈ [("handlers", list)], IsValue member.2 :=
        List.forall_mem_singleton.2 hvalue
      obtain ⟨object, hobject⟩ := exists_isObject hvalues
      exact ⟨object, .mk hobject (.given hlist) .left, hobject.isValue⟩
  | some children =>
      have hvalues : ∀ member ∈ [("handlers", list), ("children", below)], IsValue member.2 :=
        List.forall_mem_cons.2 ⟨hvalue, List.forall_mem_singleton.2 hvalue'⟩
      obtain ⟨object, hobject⟩ := exists_isObject hvalues
      exact ⟨object, .mk hobject (.given hlist) (.given hbelow), hobject.isValue⟩

theorem exists_treeWritten {tree : SegmentTree}
    (hwritable : ∀ node ∈ tree.nodes, ∀ handler ∈ node.group.handlers, Writable handler) :
    ∃ object, TreeWritten tree object ∧ IsValue object := by
  have hobject {tree : SegmentTree} {members : List (String × Bytes)}
      (hnodes : NodesWritten tree.toList members) (hvalues : ∀ member ∈ members, IsValue member.2) :
      ∃ object, TreeWritten tree object ∧ IsValue object := by
    obtain ⟨object, hobject⟩ := exists_isObject hvalues
    exact ⟨object, .mk (.refl _) hnodes hobject, hobject.isValue⟩
  suffices hnodes : ∃ members, NodesWritten tree.toList members ∧
      ∀ member ∈ members, IsValue member.2 by
    obtain ⟨members, hnodes, hvalues⟩ := hnodes
    exact hobject hnodes hvalues
  induction tree using induction_subtree with
  | nil => exact ⟨[], .nil, by simp⟩
  | node segment handlers children siblings ihc ihs =>
      simp only [nodes_node, List.mem_append, List.mem_map, List.mem_cons] at hwritable
      obtain ⟨inner, hinner, hinner'⟩ := ihc fun node hnode =>
        hwritable (node.under segment) (.inl ⟨node, hnode, rfl⟩)
      obtain ⟨object, hown, hvalue⟩ := exists_groupWritten (hwritable _ (.inr (.inl rfl)))
        (hobject hinner hinner')
      obtain ⟨members, hothers, hvalues⟩ := ihs fun node hnode =>
        hwritable node (.inr (.inr hnode))
      exact ⟨(segment, object) :: members, .cons hown hothers,
        List.forall_mem_cons.2 ⟨hvalue, hvalues⟩⟩

end MockHttp.SegmentTree
