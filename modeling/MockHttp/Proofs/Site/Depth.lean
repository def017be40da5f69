import MockHttp.Proofs.Site.Plan
import MockHttp.Proofs.Site.Written
/-!
# How deep a document goes

A mounting goes as deep as its tree, and nothing but the reading of a document limits that.  A level
of a tree takes two of the brackets that may be open at once, and handlers take two more inside
their group, however the document is written.  What is only passed over takes none.
-/

namespace MockHttp.SegmentTree

open Json

/-! ## Brackets that a node takes -/

/-- How many brackets are open at once when a node is read: two for each segment on the way to it,
and two more if it has handlers. -/
def Node.brackets (node : Node) : Nat :=
  2 * node.chain.length + if node.group.handlers = [] then 0 else 2

theorem Node.brackets_under (segment : String) (node : Node) :
    (node.under segment).brackets = node.brackets + 2 := by
  rw [brackets, brackets, chain_under, group_under, List.length_cons]
  omega

/-- A tree was read with so many brackets. -/
def Within (depth : Nat) (tree : SegmentTree) : Prop :=
  ∀ node ∈ tree.nodes, node.brackets ≤ depth

/-- A group was read with so many brackets, wherever it is put. -/
def GroupWithin (depth : Nat) (group : Group) : Prop :=
  (∀ segment, Node.brackets ⟨[], segment, group⟩ ≤ depth + 1) ∧
    ∀ node ∈ (subtree group.children).nodes, node.brackets + 1 ≤ depth

theorem Within.insert {depth : Nat} {tree : SegmentTree} (hwithin : Within (depth + 1) tree)
    (segment : String) {group : Group} (hgroup : GroupWithin depth group) :
    Within (depth + 1) (tree.insert segment group) := by
  intro node hnode
  obtain ⟨own, other, hentry, hown⟩ := mem_nodes_iff.1 hnode
  rw [toList_insert] at hentry
  rcases Keyed.eq_or_mem_of_mem_insert hentry with heq | hold
  · obtain ⟨rfl, rfl⟩ := Prod.mk.inj heq
    rcases hown with rfl | ⟨inner, hinner, rfl⟩
    · exact hgroup.1 own
    · have hbelow := hgroup.2 inner hinner
      rw [Node.brackets_under]
      omega
  · exact hwithin node (mem_nodes_iff.2 ⟨own, other, hold, hown⟩)

/-! ## Readers -/

theorem yields_readHandler (depth : Nat) : Yields (fun _ => 1 ≤ depth) (readHandler depth) := by
  refine Yields.of_withFirst fun b s value rest hread => ?_
  split at hread
  · cases depth with
    | zero => cases hread
    | succ depth => omega
  · exact absurd hread not_ok_of_refuse

/-- Handlers take a bracket for their list and one for each of them. -/
theorem yields_readHandlers (depth : Nat) :
    Yields (fun handlers => handlers ≠ [] → 2 ≤ depth) (readHandlers depth) := by
  refine Yields.of_withFirst fun b s value rest hread => ?_
  split at hread
  · exact absurd hread not_ok_of_refuse
  · cases depth with
    | zero => cases hread
    | succ depth =>
        intro hvalue
        obtain ⟨handler, hhandler⟩ := List.exists_mem_of_ne_nil value hvalue
        have hown := (yields_readHandler depth).of_list s value rest hread handler hhandler
        omega

theorem groupWithin_of_groupHas {depth : Nat} {group : Group}
    (hgroup : GroupHas (fun handlers => handlers ≠ [] → 2 ≤ depth) (Within depth) group) :
    GroupWithin (depth + 1) group := by
  obtain ⟨hhandlers, hbelow⟩ := hgroup
  constructor
  · intro segment
    have hchain : (Node.chain ⟨[], segment, group⟩).length = 1 := rfl
    rw [Node.brackets, hchain]
    by_cases hnone : group.handlers = []
    · rw [if_pos hnone]
      omega
    · have hdepth := hhandlers hnone
      rw [if_neg hnone]
      omega
  · exact fun node hnode => Nat.succ_le_succ (hbelow node hnode)

theorem within_of_parse {document : Bytes} {tree : SegmentTree}
    (hparse : parse document = .ok tree) : Within maxDepth tree := by
  have hnil (depth : Nat) : Within depth .nil := nofun
  have hread := yields_of_kept hnil (fun _ hnone => absurd rfl hnone) yields_readHandlers
    (fun _ _ => groupWithin_of_groupHas) (fun _ _ segment _ hwithin => hwithin.insert segment)
  exact property_of_parse (hnil maxDepth) (hread maxDepth).1 hparse

/-! ## Calls within calls -/

variable {σ : Type}

/-- Mounts one node, given how the level below it is mounted. -/
def mountEntry (registry : Registry σ) (below : String → SegmentTree → Mounting σ Unit)
    (base : String) (entry : String × Group) : Mounting σ Unit := do
  match checkSegment entry.1 with
  | .error error => throw error
  | .ok () =>
      (rootEvents base entry.1).forM Mounting.log
      match entry.2.children with
      | none => pure ()
      | some children => below (pathUnder base entry.1) children
      mountNode registry (pathUnder base entry.1) entry.2.handlers

/-- Mounts a tree by so many calls within each other, one for each level.  Whatever is deeper than
that is mounted in some other way. -/
def mountWithin (registry : Registry σ) (deeper : String → SegmentTree → Mounting σ Unit) :
    Nat → String → SegmentTree → Mounting σ Unit
  | 0, base, tree => deeper base tree
  | calls + 1, base, tree => do
      (levelEvents base tree).forM Mounting.log
      tree.toList.forM (mountEntry registry (mountWithin registry deeper calls) base)

/-- A mounting calls itself for what is below each of its nodes, and nowhere else. -/
theorem mountNodes_eq_forM (registry : Registry σ) (base : String) (tree : SegmentTree) :
    tree.mountNodes registry base =
      tree.toList.forM (mountEntry registry (mount registry) base) := by
  induction tree using induction_subtree with
  | nil => rfl
  | node segment handlers children siblings _ ihs =>
      have hcons : (node segment handlers children siblings).toList.forM
          (mountEntry registry (mount registry) base) =
          mountEntry registry (mount registry) base (segment, ⟨handlers, children⟩) >>=
            fun _ => siblings.mountNodes registry base := by
        rw [ihs]
        rfl
      rw [hcons, mountNodes, mountEntry]
      cases checkSegment segment with
      | error error => rfl
      | ok _ => cases children <;> simp [mount, bind_assoc]

theorem mountEntry_congr (registry : Registry σ) {base : String} {entry : String × Group}
    {below other : String → SegmentTree → Mounting σ Unit}
    (hbelow : ∀ children ∈ entry.2.children,
      below (pathUnder base entry.1) children = other (pathUnder base entry.1) children) :
    mountEntry registry below base entry = mountEntry registry other base entry := by
  obtain ⟨segment, handlers, children⟩ := entry
  cases children with
  | none => rfl
  | some children => simp only [mountEntry, hbelow children rfl]

theorem forM_congr {α : Type} {items : List α} {first other : α → Mounting σ Unit}
    (hitems : ∀ item ∈ items, first item = other item) : items.forM first = items.forM other := by
  induction items with
  | nil => rfl
  | cons item items ih =>
      obtain ⟨hitem, hitems⟩ := List.forall_mem_cons.1 hitems
      change (first item >>= fun _ => items.forM first) = (other item >>= fun _ => items.forM other)
      rw [hitem, ih hitems]

/-- A tree takes no more calls within each other than one for the tree and one for each segment on
the longest way into it. -/
theorem mountWithin_eq_mount (registry : Registry σ)
    (deeper : String → SegmentTree → Mounting σ Unit) {depth : Nat} {tree : SegmentTree}
    (hdepth : ∀ node ∈ tree.nodes, node.chain.length ≤ depth) (base : String) :
    mountWithin registry deeper (depth + 1) base tree = tree.mount registry base := by
  induction depth generalizing base tree with
  | zero =>
      have hempty : tree.toList = [] := by
        rw [List.eq_nil_iff_forall_not_mem]
        rintro ⟨segment, group⟩ hentry
        have hlength := hdepth _ (mem_nodes_nil_iff.2 hentry)
        simp [Node.chain] at hlength
      rw [mountWithin, mount, mountNodes_eq_forM, hempty]
      rfl
  | succ depth ih =>
      rw [mountWithin, mount, mountNodes_eq_forM]
      congr 1
      funext _
      refine forM_congr fun entry hentry => mountEntry_congr registry fun children hchildren => ?_
      refine ih (fun inner hinner => ?_) _
      have hbelow : inner.under entry.1 ∈ tree.nodes := by
        refine mem_nodes_iff.2 ⟨entry.1, entry.2, hentry, .inr ⟨inner, ?_, rfl⟩⟩
        rw [Option.mem_def.1 hchildren]
        exact hinner
      have hlength := hdepth _ hbelow
      rw [Node.chain_under, List.length_cons] at hlength
      omega

/-! ## Trees that go as deep as a document can -/

/-- Some object is read as the tree with so many brackets. -/
def Readable (depth : Nat) (tree : SegmentTree) : Prop :=
  ∃ members object, IsObject members object ∧ Accepts (readTree depth) object tree

/-- Some object is read as the group with so many brackets. -/
def GroupReadable (depth : Nat) (group : Group) : Prop :=
  ∃ members object, IsObject members object ∧ Accepts (readGroup depth) object group

variable {depth : Nat} {tree : SegmentTree}

theorem GroupReadable.readable {group : Group} (hgroup : GroupReadable depth group) :
    Readable (depth + 1) (.node "/a" group.handlers group.children .nil) := by
  obtain ⟨members, object, hobject, hread⟩ := hgroup
  have hname : ∀ b ∈ Text.bytes "/a", Json.Plain b := by decide +kernel
  have htree : IsObject [("/a", object)] _ :=
    .mk (.part .first (member_plain hname hobject.isValue) (.close blank_nil))
  exact ⟨_, _, htree, accepts_readTree htree (.cons (accepts_treeMember hread .nil "/a") .nil)⟩

theorem groupReadable_empty (depth : Nat) : GroupReadable (depth + 1) ⟨[], none⟩ := by
  have hobject : IsObject [] _ := .mk (.close blank_nil)
  exact ⟨_, _, hobject, @accepts_readGroup _ _ _ ⟨none, none⟩ hobject .settled .settled⟩

theorem Readable.groupReadable (hread : Readable depth tree) :
    GroupReadable (depth + 1) ⟨[], some tree⟩ := by
  obtain ⟨members, object, hobject, hread⟩ := hread
  have hname : ∀ b ∈ Text.bytes "children", Json.Plain b := by decide +kernel
  have hgroup : IsObject [("children", object)] _ :=
    .mk (.part .first (member_plain hname hobject.isValue) (.close blank_nil))
  exact ⟨_, _, hgroup, @accepts_readGroup _ _ _ ⟨none, some (some tree)⟩ hgroup .settled
    (.awaited (accepts_nullOr_object hobject hread))⟩

theorem Fits.readable {object : Bytes} (hfits : Fits depth tree)
    (hwritten : TreeWritten tree object) : Readable depth tree := by
  obtain ⟨members, hobject⟩ := hwritten.exists_isObject
  exact ⟨members, object, hobject, hwritten.accepts depth hfits⟩

theorem DocumentWritten.exists_treeWritten {document : Bytes}
    (hwritten : DocumentWritten tree document) : ∃ object, TreeWritten tree object := by
  obtain ⟨-, htree, -⟩ := hwritten
  exact ⟨_, htree⟩

theorem Readable.exists_parse (hread : Readable maxDepth tree) :
    ∃ document, parse document = .ok tree := by
  obtain ⟨members, object, hobject, hread⟩ := hread
  have hstops : Stops [] := by simp [Stops]
  have hnull := accepts_nullOr_object hobject hread [] [] blank_nil hstops
  rw [List.nil_append, List.append_nil] at hnull
  refine ⟨object, ?_⟩
  simp only [parse, whole, hnull, ended_eq_ok_iff.2 blank_nil]
  rfl

/-- The tree at the end of a chain of so many segments. -/
def lowered (tree : SegmentTree) : Nat → SegmentTree
  | 0 => tree
  | count + 1 => .node "/a" [] (some (tree.lowered count)) .nil

theorem Readable.lowered (hread : Readable depth tree) (count : Nat) :
    Readable (depth + 2 * count) (tree.lowered count) := by
  induction count with
  | zero => exact hread
  | succ count ih => exact ih.groupReadable.readable

theorem exists_mem_nodes_lowered {node : Node} (hnode : node ∈ tree.nodes) (count : Nat) :
    ∃ other ∈ (tree.lowered count).nodes,
      other.group = node.group ∧ other.chain.length = node.chain.length + count := by
  induction count with
  | zero => exact ⟨node, hnode, rfl, rfl⟩
  | succ count ih =>
      obtain ⟨other, hother, hgroup, hlength⟩ := ih
      refine ⟨other.under "/a", ?_, hgroup, ?_⟩
      · rw [SegmentTree.lowered, nodes_node]
        exact List.mem_append_left _ (List.mem_map_of_mem hother)
      · rw [Node.chain_under, List.length_cons, hlength]
        omega

/-- A node at the end of a chain that takes all the brackets of a document. -/
theorem exists_parse_lowered (hread : Readable depth tree) {node : Node}
    (hnode : node ∈ tree.nodes) (count : Nat) (hcount : depth + 2 * count = maxDepth) :
    ∃ document whole, parse document = .ok whole ∧ ∃ other ∈ whole.nodes,
      other.group = node.group ∧ other.chain.length = node.chain.length + count := by
  have hlowered := hread.lowered count
  rw [hcount] at hlowered
  obtain ⟨document, hparse⟩ := hlowered.exists_parse
  exact ⟨document, _, hparse, exists_mem_nodes_lowered hnode count⟩

theorem readable_sparseTree : Readable 5 sparseTree := by
  have hfits : Fits 5 sparseTree := by
    constructor
    case ordered => exact ordered_node.2 ⟨nofun, trivial, trivial⟩
    case levels => decide
    case writable =>
      intro node hnode handler hhandler
      obtain rfl := List.mem_singleton.1 hnode
      obtain rfl := List.mem_singleton.1 hhandler
      refine ⟨.nil, fun payload hpayload => ?_⟩
      obtain rfl := Option.some.inj hpayload
      have hblank : Blank [ascii ' '] := by decide
      exact ⟨.hollow .list hblank, _, rfl⟩
  obtain ⟨object, hwritten⟩ := sparseDocument_written.exists_treeWritten
  exact hfits.readable hwritten

/-- However a document is written, no node of its tree lies more than 63 segments deep, and none
with handlers more than 62.  So the calls of a mounting are never more than 64 within each other.
There are documents that go as deep as that. -/
theorem parse_bounds_depth :
    (∀ document tree, parse document = .ok tree →
      (∀ node ∈ tree.nodes, node.chain.length ≤ 63 ∧
        (node.group.handlers ≠ [] → node.chain.length ≤ 62)) ∧
      ∀ {σ : Type} (registry : Registry σ) (deeper : String → SegmentTree → Mounting σ Unit)
        (base : String), mountWithin registry deeper 64 base tree = tree.mount registry base) ∧
    (∃ document tree, parse document = .ok tree ∧ ∃ node ∈ tree.nodes, node.chain.length = 63) ∧
    ∃ document tree, parse document = .ok tree ∧ ∃ node ∈ tree.nodes,
      node.group.handlers ≠ [] ∧ node.chain.length = 62 := by
  refine ⟨fun document tree hparse => ?_, ?_, ?_⟩
  · have hwithin : ∀ node ∈ tree.nodes, node.brackets ≤ 127 := within_of_parse hparse
    have hdepth : ∀ node ∈ tree.nodes, node.chain.length ≤ 63 := by
      intro node hnode
      have hbrackets := hwithin node hnode
      rw [Node.brackets] at hbrackets
      omega
    refine ⟨fun node hnode => ⟨hdepth node hnode, fun hhandlers => ?_⟩,
      fun registry deeper => mountWithin_eq_mount registry deeper hdepth⟩
    have hbrackets := hwithin node hnode
    rw [Node.brackets, if_neg hhandlers] at hbrackets
    omega
  · have hread := (groupReadable_empty 1).readable
    obtain ⟨document, tree, hparse, node, hnode, -, hlength⟩ :=
      exists_parse_lowered hread (mem_nodes_nil_iff.2 List.mem_cons_self) 62 rfl
    exact ⟨document, tree, hparse, node, hnode, hlength⟩
  · obtain ⟨document, tree, hparse, node, hnode, hgroup, hlength⟩ :=
      exists_parse_lowered readable_sparseTree (mem_nodes_nil_iff.2 List.mem_cons_self) 61 rfl
    exact ⟨document, tree, hparse, node, hnode, by simp [hgroup], hlength⟩

/-- A payload of more lists within each other than a document may open. -/
def nestedPayload : Bytes :=
  List.replicate 200 (ascii '[') ++ List.replicate 200 (ascii ']')

/-- A document that is written with a list for each group and handler. -/
def nestedDocument : Bytes :=
  Text.bytes "\x7b\"/a\":[[[\"GET\",200,\x7b\x7d," ++ nestedPayload ++
    Text.bytes "]],\x7b\"/b\":[[]]\x7d]\x7d"

theorem parse_nestedDocument :
    ∃ tree, parse nestedDocument = .ok tree ∧ tree.levels = 2 ∧
      (∀ node ∈ tree.nodes, node.chain.length ≤ 63) ∧
      mountWithin Site.registry (fun _ _ => throw (.returned (.pathTaken ""))) 64 "" tree =
        tree.mount Site.registry "" := by
  have hok : (match parse nestedDocument with
      | .error _ => false
      | .ok tree => decide (tree.levels = 2)) = true := by
    decide +kernel
  split at hok
  · cases hok
  · rename_i tree hparse
    obtain ⟨hnodes, hmount⟩ := parse_bounds_depth.1 _ _ hparse
    exact ⟨tree, hparse, of_decide_eq_true hok, fun node hnode => (hnodes node hnode).1,
      hmount _ _ _⟩

end MockHttp.SegmentTree
