import Mathlib.Data.List.Induction
import Mathlib.Data.List.Nodup
import MockHttp.Site.Mount
/-!
# The nodes of a tree

A tree read without a base: each of its nodes with the segments on the way to it.  The absolute
path of a node is what these segments spell, without the run of `/` that may stand in front, and
this is where a mounting under the empty base puts it.
-/

namespace MockHttp.SegmentTree

/-- The tree below a node; an absent one and an empty one are not told apart. -/
def subtree (children : Option SegmentTree) : SegmentTree :=
  children.getD .nil

/-- The segments of the top level. -/
def segments (tree : SegmentTree) : List String :=
  tree.toList.map Prod.fst

/-- One case for every node, with or without children. -/
theorem induction_subtree {motive : SegmentTree → Prop} (nil : motive .nil)
    (node : ∀ segment handlers children siblings,
      motive (subtree children) → motive siblings →
        motive (.node segment handlers children siblings))
    (tree : SegmentTree) : motive tree := by
  induction tree using size.induct with
  | case1 => exact nil
  | case2 segment handlers siblings ih => exact node segment handlers none siblings nil ih
  | case3 segment handlers children siblings ihc ihs =>
      exact node segment handlers (some children) siblings ihc ihs

/-- Siblings stand in strictly increasing order at every level, as the entries of a map do. -/
def Ordered : SegmentTree → Prop
  | .nil => True
  | .node segment _ children siblings =>
      (∀ other ∈ siblings.segments, segment < other) ∧
        (match children with
          | none => True
          | some children => children.Ordered) ∧
        siblings.Ordered

theorem ordered_node {segment : String} {handlers : List Handler}
    {children : Option SegmentTree} {siblings : SegmentTree} :
    (node segment handlers children siblings).Ordered ↔
      (∀ other ∈ siblings.segments, segment < other) ∧ (subtree children).Ordered ∧
        siblings.Ordered := by
  cases children <;> simp [Ordered, subtree]

/-! ## Nodes and where they are -/

/-- A node of a tree: the segments above it from the root on, its own segment, and what the
document says about it. -/
structure Node where
  above : List String
  segment : String
  group : Group

namespace Node

/-- The segments on the way to the node, its own included. -/
def chain (node : Node) : List String :=
  node.above ++ [node.segment]

/-- The same node, seen from above a segment that leads to its tree. -/
def under (segment : String) (node : Node) : Node :=
  ⟨segment :: node.above, node.segment, node.group⟩

/-- The two are one node, or one of them is above the other. -/
def InLine (node other : Node) : Prop :=
  node.chain <+: other.chain ∨ other.chain <+: node.chain

/-- The segments that count for the path: a run of `/` in front of the node's own is left out. -/
def spelled (node : Node) : List String :=
  node.above.dropWhile (· = "/") ++ [node.segment]

/-- The absolute path of the node. -/
def path (node : Node) : String :=
  String.join node.spelled

/-- Where the node comes to be when its tree is mounted under a base. -/
def pathFrom (base : String) (node : Node) : String :=
  pathUnder (node.above.foldl pathUnder base) node.segment

@[simp] theorem chain_under (segment : String) (node : Node) :
    (node.under segment).chain = segment :: node.chain := rfl

theorem inLine_under {segment : String} {node other : Node} :
    (node.under segment).InLine (other.under segment) ↔ node.InLine other := by
  simp only [InLine, chain_under, List.cons_prefix_cons, true_and]

theorem not_inLine_of_ne {node other : Node} {first last : String} {rest tail : List String}
    (hnode : node.chain = first :: rest) (hother : other.chain = last :: tail)
    (hne : first ≠ last) : ¬ node.InLine other := by
  rw [InLine, hnode, hother, List.cons_prefix_cons, List.cons_prefix_cons]
  rintro (⟨h, -⟩ | ⟨h, -⟩)
  · exact hne h
  · exact hne h.symm

@[simp] theorem segment_under (segment : String) (node : Node) :
    (node.under segment).segment = node.segment := rfl

@[simp] theorem group_under (segment : String) (node : Node) :
    (node.under segment).group = node.group := rfl

@[simp] theorem pathFrom_under (base segment : String) (node : Node) :
    (node.under segment).pathFrom base = node.pathFrom (pathUnder base segment) := rfl

end Node

/-- The nodes of a tree, those below a node in front of it. -/
def nodes : SegmentTree → List Node
  | .nil => []
  | .node segment handlers children siblings =>
      (match children with
        | none => []
        | some children => children.nodes.map (Node.under segment)) ++
        ⟨[], segment, ⟨handlers, children⟩⟩ :: siblings.nodes

@[simp] theorem nodes_nil : nil.nodes = [] := rfl

@[simp] theorem nodes_node (segment : String) (handlers : List Handler)
    (children : Option SegmentTree) (siblings : SegmentTree) :
    (node segment handlers children siblings).nodes =
      (subtree children).nodes.map (Node.under segment) ++
        ⟨[], segment, ⟨handlers, children⟩⟩ :: siblings.nodes := by
  cases children <;> rfl

theorem length_nodes (tree : SegmentTree) : tree.nodes.length = tree.size := by
  induction tree using size.induct with
  | case1 => rfl
  | case2 segment handlers siblings ih => simp [size, subtree, ih]
  | case3 segment handlers children siblings ihc ihs =>
      simp [size, subtree, ihc, ihs]
      omega

theorem segments_node (segment : String) (handlers : List Handler)
    (children : Option SegmentTree) (siblings : SegmentTree) :
    (node segment handlers children siblings).segments = segment :: siblings.segments := rfl

theorem exists_chain_eq_cons {tree : SegmentTree} {node : Node} (hnode : node ∈ tree.nodes) :
    ∃ first ∈ tree.segments, ∃ rest, node.chain = first :: rest := by
  induction tree using induction_subtree with
  | nil => simp at hnode
  | node own handlers children siblings _ ihs =>
      rw [nodes_node, List.mem_append, List.mem_map, List.mem_cons] at hnode
      rw [segments_node]
      rcases hnode with ⟨inner, -, rfl⟩ | rfl | hnode
      · exact ⟨own, List.mem_cons_self, inner.chain, rfl⟩
      · exact ⟨own, List.mem_cons_self, [], rfl⟩
      · obtain ⟨first, hfirst, rest, hchain⟩ := ihs hnode
        exact ⟨first, List.mem_cons_of_mem own hfirst, rest, hchain⟩

theorem mem_nodes_iff {tree : SegmentTree} {node : Node} :
    node ∈ tree.nodes ↔ ∃ segment group, (segment, group) ∈ tree.toList ∧
      (node = ⟨[], segment, group⟩ ∨
        ∃ inner ∈ (subtree group.children).nodes, node = inner.under segment) := by
  induction tree using induction_subtree with
  | nil => simp [toList]
  | node own handlers children siblings _ ihs =>
      rw [nodes_node, List.mem_append, List.mem_map, List.mem_cons, ihs]
      constructor
      · rintro (⟨inner, hinner, rfl⟩ | rfl | ⟨segment, group, hentry, hnode⟩)
        · exact ⟨own, ⟨handlers, children⟩, List.mem_cons_self, .inr ⟨inner, hinner, rfl⟩⟩
        · exact ⟨own, ⟨handlers, children⟩, List.mem_cons_self, .inl rfl⟩
        · exact ⟨segment, group, List.mem_cons_of_mem _ hentry, hnode⟩
      · rintro ⟨segment, group, hentry, hnode⟩
        rcases List.mem_cons.1 hentry with heq | hentry
        · obtain ⟨rfl, rfl⟩ := Prod.mk.inj heq
          rcases hnode with rfl | ⟨inner, hinner, rfl⟩
          · exact .inr (.inl rfl)
          · exact .inl ⟨inner, hinner, rfl⟩
        · exact .inr (.inr ⟨segment, group, hentry, hnode⟩)

theorem mem_nodes_nil_iff {tree : SegmentTree} {segment : String} {group : Group} :
    ⟨[], segment, group⟩ ∈ tree.nodes ↔ (segment, group) ∈ tree.toList := by
  rw [mem_nodes_iff]
  constructor
  · rintro ⟨own, other, hentry, heq | ⟨inner, -, heq⟩⟩
    · obtain ⟨-, rfl, rfl⟩ := Node.mk.inj heq
      exact hentry
    · cases heq
  · exact fun hentry => ⟨segment, group, hentry, .inl rfl⟩

theorem mem_nodes_cons_iff {tree : SegmentTree} {first segment : String} {above : List String}
    {group : Group} :
    ⟨first :: above, segment, group⟩ ∈ tree.nodes ↔
      ∃ parent, (first, parent) ∈ tree.toList ∧
        ⟨above, segment, group⟩ ∈ (subtree parent.children).nodes := by
  rw [mem_nodes_iff]
  constructor
  · rintro ⟨own, other, hentry, heq | ⟨⟨above, _, _⟩, hinner, heq⟩⟩
    · cases heq
    · obtain ⟨habove, rfl, rfl⟩ := Node.mk.inj heq
      obtain ⟨rfl, rfl⟩ := List.cons.inj habove
      exact ⟨other, hentry, hinner⟩
  · rintro ⟨parent, hentry, hinner⟩
    exact ⟨first, parent, hentry, .inr ⟨_, hinner, rfl⟩⟩

/-- A node lies below each of those on the way to it. -/
theorem mem_nodes_append_iff {tree : SegmentTree} {before behind : List String}
    {middle segment : String} {group : Group} :
    ⟨before ++ middle :: behind, segment, group⟩ ∈ tree.nodes ↔
      ∃ parent, ⟨before, middle, parent⟩ ∈ tree.nodes ∧
        ⟨behind, segment, group⟩ ∈ (subtree parent.children).nodes := by
  induction before generalizing tree with
  | nil => simp only [List.nil_append, mem_nodes_cons_iff, mem_nodes_nil_iff]
  | cons first before ih =>
      simp only [List.cons_append, mem_nodes_cons_iff, ih]
      constructor
      · rintro ⟨own, hentry, parent, hparent, hnode⟩
        exact ⟨parent, ⟨own, hentry, hparent⟩, hnode⟩
      · rintro ⟨parent, ⟨own, hentry, hparent⟩, hnode⟩
        exact ⟨own, hentry, parent, hparent, hnode⟩

/-- Each segment above a node is that of a node. -/
theorem exists_node_of_mem_above {tree : SegmentTree} {node : Node} (hnode : node ∈ tree.nodes)
    {segment : String} (hsegment : segment ∈ node.above) :
    ∃ other ∈ tree.nodes, other.segment = segment := by
  induction tree using induction_subtree generalizing node with
  | nil => simp at hnode
  | node own handlers children siblings ihc ihs =>
      rw [nodes_node, List.mem_append, List.mem_map, List.mem_cons] at hnode
      simp only [nodes_node, List.mem_append, List.mem_map, List.mem_cons]
      rcases hnode with ⟨inner, hinner, rfl⟩ | rfl | hnode
      · rcases List.mem_cons.1 hsegment with rfl | hsegment
        · exact ⟨_, .inr (.inl rfl), rfl⟩
        · obtain ⟨other, hother, heq⟩ := ihc hinner hsegment
          exact ⟨other.under own, .inl ⟨other, hother, rfl⟩, heq⟩
      · simp at hsegment
      · obtain ⟨other, hother, heq⟩ := ihs hnode hsegment
        exact ⟨other, .inr (.inr hother), heq⟩

/-- Each segment that a node spells is that of a node. -/
theorem exists_node_of_mem_spelled {tree : SegmentTree} {node : Node} (hnode : node ∈ tree.nodes)
    {segment : String} (hsegment : segment ∈ node.spelled) :
    ∃ other ∈ tree.nodes, other.segment = segment := by
  rw [Node.spelled, List.mem_append, List.mem_singleton] at hsegment
  rcases hsegment with habove | rfl
  · exact exists_node_of_mem_above hnode ((List.dropWhile_sublist _).subset habove)
  · exact ⟨node, hnode, rfl⟩

/-! ## Slashes

A check of a segment looks at both ends of it.  Behind well-led segments the base of a mounting is
what the segments spell, and only a base that is `/` as a whole is dropped.
-/

/-- The segment starts with a slash. -/
def SlashLed (segment : String) : Prop :=
  ['/'] <+: segment.toList

/-- The segment ends with a slash and is more than that. -/
def SlashEnded (segment : String) : Prop :=
  segment ≠ "/" ∧ ['/'] <:+ segment.toList

instance (segment : String) : Decidable (SlashLed segment) :=
  inferInstanceAs (Decidable (['/'] <+: segment.toList))

instance (segment : String) : Decidable (SlashEnded segment) :=
  inferInstanceAs (Decidable (segment ≠ "/" ∧ ['/'] <:+ segment.toList))

/-- A segment that may stand in a tree: it starts with a slash, and is just that or does not end
with one. -/
def WellFormed (segment : String) : Prop :=
  SlashLed segment ∧ (segment = "/" ∨ ¬ ['/'] <:+ segment.toList)

theorem wellFormed_iff {segment : String} :
    WellFormed segment ↔ SlashLed segment ∧ ¬ SlashEnded segment := by
  simp only [WellFormed, SlashEnded, not_and_or, not_not]

instance (segment : String) : Decidable (WellFormed segment) :=
  decidable_of_iff _ wellFormed_iff.symm

theorem checkSegment_eq (segment : String) :
    checkSegment segment =
      if SlashEnded segment then .error (.returned (.trailingSlash segment))
      else if SlashLed segment then .ok ()
      else .error (.returned (.noLeadingSlash segment)) := by
  have hended : (segment.toList.getLast? = some '/' ∧ segment ≠ "/") ↔ SlashEnded segment := by
    rw [SlashEnded, List.singleton_suffix_iff_getLast?_eq_some, and_comm]
  have hled : segment.toList.head? ≠ some '/' ↔ ¬ SlashLed segment := by
    rw [SlashLed, List.singleton_prefix_iff_head?_eq_some]
  simp only [checkSegment, hended, hled, ite_not]

theorem checkSegment_eq_ok_iff {segment : String} :
    checkSegment segment = .ok () ↔ WellFormed segment := by
  rw [checkSegment_eq, wellFormed_iff]
  by_cases hended : SlashEnded segment
  · simp [hended]
  · by_cases hled : SlashLed segment <;> simp [hended, hled]

theorem exists_checkSegment_eq_error {segment : String} (hsegment : ¬ WellFormed segment) :
    ∃ error, checkSegment segment = .error (.returned error) := by
  rw [wellFormed_iff, not_and_or, not_not] at hsegment
  rw [checkSegment_eq]
  by_cases hended : SlashEnded segment
  · exact ⟨_, if_pos hended⟩
  · rw [if_neg hended, if_neg (hsegment.resolve_right hended)]
    exact ⟨_, rfl⟩

theorem ne_empty_of_slashLed {segment : String} (hled : SlashLed segment) : segment ≠ "" := by
  rintro rfl
  simp [SlashLed] at hled

theorem slashLed_join {segments : List String} (hsegments : segments ≠ [])
    (hled : ∀ segment ∈ segments, SlashLed segment) : SlashLed (String.join segments) := by
  cases segments with
  | nil => exact absurd rfl hsegments
  | cons first segments =>
      rw [SlashLed, String.join_cons, String.toList_append]
      exact (hled first List.mem_cons_self).trans (List.prefix_append _ _)

theorem append_ne_slash {base segment : String} (hbase : base ≠ "") (hled : SlashLed segment) :
    base ++ segment ≠ "/" := by
  intro heq
  have hlength := congrArg String.length heq
  rw [String.length_append] at hlength
  have hbase' : 0 < base.length := by
    rw [Nat.pos_iff_ne_zero]; simpa using hbase
  have hsegment : 0 < segment.length := by
    rw [Nat.pos_iff_ne_zero]; simpa using ne_empty_of_slashLed hled
  have hslash : "/".length = 1 := rfl
  omega

/-- What a base contributes behind segments that all start with a slash. -/
theorem stem_foldl_pathUnder {above : List String} (habove : ∀ segment ∈ above, SlashLed segment) :
    stem (above.foldl pathUnder "") = String.join (above.dropWhile (· = "/")) := by
  induction above using List.reverseRecOn with
  | nil => rfl
  | append_singleton above segment ih =>
      have hled : SlashLed segment := habove segment (by simp)
      have ih := ih fun other hother => habove other (by simp [hother])
      rw [List.foldl_append, List.foldl_cons, List.foldl_nil, pathUnder, ih,
        List.dropWhile_append]
      -- While the run of `/` goes on the stem is empty; behind it no base is `/` again.
      cases hrun : above.dropWhile (· = "/") with
      | nil =>
          by_cases hslash : segment = "/" <;> simp [stem, hslash]
      | cons first rest =>
          have hfirst : first ∈ above :=
            (List.dropWhile_sublist _).subset (hrun ▸ List.mem_cons_self)
          have hjoin : String.join (first :: rest) ≠ "" := by
            have hne := ne_empty_of_slashLed (habove first (by simp [hfirst]))
            simp [hne]
          rw [stem, if_neg (append_ne_slash hjoin hled)]
          simp [String.append_assoc]

/-- Mounted under the empty base, a node comes to be at its absolute path. -/
theorem Node.pathFrom_empty {node : Node} (habove : ∀ segment ∈ node.above, SlashLed segment) :
    node.pathFrom "" = node.path := by
  rw [Node.pathFrom, pathUnder, stem_foldl_pathUnder habove, Node.path, Node.spelled]
  simp

end MockHttp.SegmentTree
