import MockHttp.Proofs.Site.Reading
/-!
# Slashes in paths

Where the slashes of a path come from.  In a tree that has a site only the `/` of the top level is
left out, and only in front of what is below it.  Every other `/` that has something below it is
kept, and its slash is then followed by that of the next segment.
-/

namespace MockHttp

namespace SegmentTree

/-- Two slashes stand next to each other in the text. -/
def Doubled (text : String) : Prop :=
  ['/', '/'] <:+: text.toList

/-- A slash stands at the end of the text. -/
def EndsInSlash (text : String) : Prop :=
  ['/'] <:+ text.toList

instance (text : String) : Decidable (Doubled text) :=
  inferInstanceAs (Decidable (['/', '/'] <:+: text.toList))

/-! ## Joined segments -/

theorem doubled_append_iff {text rest : String} :
    Doubled (text ++ rest) ↔
      Doubled text ∨ Doubled rest ∨ EndsInSlash text ∧ SlashLed rest := by
  simp only [Doubled, EndsInSlash, SlashLed, String.toList_append, List.infix_append_iff]
  constructor
  · rintro (h | h | ⟨front, back, hsplit, hfront, hback⟩)
    · exact .inl h
    · exact .inr (.inl h)
    · -- The pair lies on one side, or is cut in the middle.
      rcases front with _ | ⟨first, _ | ⟨second, front⟩⟩
      · obtain rfl : ['/', '/'] = back := hsplit
        exact .inr (.inl hback.isInfix)
      · obtain ⟨rfl, rfl⟩ := List.cons.inj hsplit
        exact .inr (.inr ⟨hfront, hback⟩)
      · rw [List.cons_append, List.cons_append, List.cons.injEq, List.cons.injEq] at hsplit
        obtain ⟨rfl, rfl, hsplit⟩ := hsplit
        obtain ⟨rfl, rfl⟩ := List.append_eq_nil_iff.1 hsplit.symm
        exact .inl hfront.isInfix
  · rintro (h | h | ⟨htext, hrest⟩)
    · exact .inl h
    · exact .inr (.inl h)
    · exact .inr (.inr ⟨['/'], ['/'], rfl, htext, hrest⟩)

theorem endsInSlash_append_iff {text rest : String} (hrest : rest ≠ "") :
    EndsInSlash (text ++ rest) ↔ EndsInSlash rest := by
  have hlist : rest.toList ≠ [] := by simpa using hrest
  rw [EndsInSlash, EndsInSlash, List.singleton_suffix_iff_getLast?_eq_some,
    List.singleton_suffix_iff_getLast?_eq_some, String.toList_append,
    List.getLast?_append_of_ne_nil _ hlist]

theorem WellFormed.endsInSlash_iff {segment : String} (hsegment : WellFormed segment) :
    EndsInSlash segment ↔ segment = "/" := by
  constructor
  · intro hends
    rcases hsegment.2 with hslash | hnot
    · exact hslash
    · exact absurd hends hnot
  · rintro rfl
    exact List.suffix_rfl

/-- Well-formed segments join to a doubled slash in one of them, or behind one that is `/`. -/
theorem doubled_join_iff {segments : List String} (hsegments : ∀ s ∈ segments, WellFormed s) :
    Doubled (String.join segments) ↔
      (∃ s ∈ segments, Doubled s) ∨ "/" ∈ segments.dropLast := by
  induction segments with
  | nil => simp [Doubled]
  | cons first segments ih =>
      obtain ⟨hfirst, hsegments⟩ := List.forall_mem_cons.1 hsegments
      rw [String.join_cons, doubled_append_iff, ih hsegments, hfirst.endsInSlash_iff]
      simp only [List.mem_cons, exists_eq_or_imp]
      cases segments with
      | nil => simp [SlashLed]
      | cons second segments =>
          have hled : SlashLed (String.join (second :: segments)) :=
            slashLed_join (by simp) fun s hs => (hsegments s hs).1
          rw [List.dropLast_cons_cons, List.mem_cons, and_iff_left hled, eq_comm, or_assoc,
            or_assoc, or_comm (a := "/" = first)]

/-! ## Paths of nodes -/

variable {tree : SegmentTree} {node : Node}

theorem wellFormed_of_mem_spelled (hsegments : ∀ node ∈ tree.nodes, WellFormed node.segment)
    (hnode : node ∈ tree.nodes) : ∀ s ∈ node.spelled, WellFormed s := by
  intro s hs
  obtain ⟨other, hother, rfl⟩ := exists_node_of_mem_spelled hnode hs
  exact hsegments other hother

theorem doubled_path_iff (hsegments : ∀ node ∈ tree.nodes, WellFormed node.segment)
    (hnode : node ∈ tree.nodes) :
    Doubled node.path ↔
      (∃ s ∈ node.spelled, Doubled s) ∨ "/" ∈ node.above.dropWhile (· = "/") := by
  rw [Node.path, doubled_join_iff (wellFormed_of_mem_spelled hsegments hnode), Node.spelled,
    List.dropLast_concat]

theorem endsInSlash_path_iff (hsegment : WellFormed node.segment) :
    EndsInSlash node.path ↔ node.segment = "/" := by
  have hpath : node.path =
      String.join (node.above.dropWhile (· = "/")) ++ node.segment := by
    simp [Node.path, Node.spelled]
  rw [hpath, endsInSlash_append_iff (ne_empty_of_slashLed hsegment.1), hsegment.endsInSlash_iff]

/-- Where no two nodes have one path, there is no `/` right below the `/` of the top level. -/
theorem root_notMem_root (hnodup : (tree.nodes.map Node.path).Nodup) {group : Group} :
    ⟨["/"], "/", group⟩ ∉ tree.nodes := by
  intro hbelow
  obtain ⟨parent, hparent, -⟩ := mem_nodes_cons_iff.1 hbelow
  cases List.inj_on_of_nodup_map hnodup hbelow (mem_nodes_nil_iff.2 hparent) (by rfl)

theorem dropWhile_above (hnodup : (tree.nodes.map Node.path).Nodup) (hnode : node ∈ tree.nodes) :
    node.above.dropWhile (· = "/") =
      if node.above.head? = some "/" then node.above.tail else node.above := by
  obtain ⟨above, segment, group⟩ := node
  rcases above with _ | ⟨first, _ | ⟨second, above⟩⟩
  · rfl
  · by_cases hfirst : first = "/" <;> simp [hfirst]
  · by_cases hfirst : first = "/"
    · subst hfirst
      have hsecond : second ≠ "/" := by
        rintro rfl
        have hway : ⟨["/"] ++ "/" :: above, segment, group⟩ ∈ tree.nodes := hnode
        obtain ⟨parent, hparent, -⟩ := mem_nodes_append_iff.1 hway
        exact root_notMem_root hnodup hparent
      simp [hsecond]
    · simp [hfirst]

/-- A `/` in front of a node is kept unless it is the first of all. -/
theorem mem_dropWhile_above_iff (hnodup : (tree.nodes.map Node.path).Nodup)
    (hnode : node ∈ tree.nodes) :
    "/" ∈ node.above.dropWhile (· = "/") ↔ "/" ∈ node.above.tail := by
  rw [dropWhile_above hnodup hnode]
  cases node.above with
  | nil => simp
  | cons first above =>
      by_cases hfirst : first = "/"
      · simp [hfirst]
      · simp [hfirst, eq_comm]

/-- A path has two slashes next to each other only within a segment, or behind a `/` below the top
level. -/
theorem exists_doubled_path_iff (hsegments : ∀ node ∈ tree.nodes, WellFormed node.segment)
    (hnodup : (tree.nodes.map Node.path).Nodup) :
    (∃ node ∈ tree.nodes, Doubled node.path) ↔
      (∃ node ∈ tree.nodes, Doubled node.segment) ∨
        ∃ node ∈ tree.nodes, node.segment = "/" ∧ node.above ≠ [] ∧
          subtree node.group.children ≠ .nil := by
  constructor
  · rintro ⟨⟨above, segment, group⟩, hnode, hdoubled⟩
    rcases (doubled_path_iff hsegments hnode).1 hdoubled with ⟨s, hs, hdouble⟩ | hkept
    · obtain ⟨other, hother, rfl⟩ := exists_node_of_mem_spelled hnode hs
      exact .inl ⟨other, hother, hdouble⟩
    · right
      rw [mem_dropWhile_above_iff hnodup hnode] at hkept
      obtain ⟨before, behind, htail⟩ := List.append_of_mem hkept
      cases above with
      | nil => cases hkept
      | cons first above =>
          obtain rfl : above = before ++ "/" :: behind := htail
          rw [← List.cons_append] at hnode
          obtain ⟨parent, hparent, hbelow⟩ := mem_nodes_append_iff.1 hnode
          refine ⟨_, hparent, rfl, List.cons_ne_nil _ _, fun hnil => ?_⟩
          rw [hnil] at hbelow
          cases hbelow
  · rintro (⟨node, hnode, hdouble⟩ | ⟨⟨above, segment, group⟩, hnode, rfl, habove, hbelow⟩)
    · refine ⟨node, hnode, (doubled_path_iff hsegments hnode).2 (.inl ⟨_, ?_, hdouble⟩)⟩
      simp [Node.spelled]
    · cases hchildren : subtree group.children with
      | nil => exact absurd hchildren hbelow
      | node segment handlers children siblings =>
          have hinner : ⟨[], segment, ⟨handlers, children⟩⟩ ∈ (subtree group.children).nodes := by
            rw [hchildren]
            exact mem_nodes_nil_iff.2 List.mem_cons_self
          have hchild := mem_nodes_append_iff.2 ⟨group, hnode, hinner⟩
          refine ⟨_, hchild, (doubled_path_iff hsegments hchild).2 (.inr ?_)⟩
          rw [mem_dropWhile_above_iff hnodup hchild]
          cases above with
          | nil => exact absurd rfl habove
          | cons first above => simp

theorem path_eq_join (hnodup : (tree.nodes.map Node.path).Nodup) (hnode : node ∈ tree.nodes) :
    node.path = String.join
      (if node.above.head? = some "/" then node.chain.tail else node.chain) := by
  rw [Node.path, Node.spelled, dropWhile_above hnodup hnode, Node.chain]
  cases node.above with
  | nil => rfl
  | cons first above => by_cases hfirst : first = "/" <;> simp [hfirst]

end SegmentTree

namespace Site

open SegmentTree

/-- In a site that is made of a tree, every path starts with a slash.  Two slashes stand next to
each other in one of them exactly if they do in a segment, or if a `/` below the top level has
something below it.  A path ends with a slash exactly if the segment of its node is `/`.  The
one slash that is left out is that of a `/` at the top level, in the paths of what is below it. -/
theorem slashes_of_paths {tree : SegmentTree} {site : Site} (hsite : (ofTree tree).1 = .ok site) :
    (∀ path ∈ site.paths, SlashLed path) ∧
      ((∃ path ∈ site.paths, Doubled path) ↔
        (∃ node ∈ tree.nodes, Doubled node.segment) ∨
          ∃ node ∈ tree.nodes, node.segment = "/" ∧ node.above ≠ [] ∧
            subtree node.group.children ≠ .nil) ∧
      (∀ path ∈ site.paths, ∃ node,
        tree.nodes.filter (fun other => other.path = path) = [node] ∧
          (EndsInSlash path ↔ node.segment = "/")) ∧
      ∀ node ∈ tree.nodes, node.path =
        String.join (if node.above.head? = some "/" then node.chain.tail else node.chain) := by
  obtain ⟨hmount, -⟩ := fst_ofTree_eq_ok_iff.1 hsite
  obtain ⟨hsegments, -, hnodup⟩ := mount_empty_eq_ok_iff.1 hmount
  refine ⟨fun path => slashLed_of_mem_paths hsite, ?_, ?_, fun node => path_eq_join hnodup⟩
  · rw [← exists_doubled_path_iff hsegments hnodup]
    constructor
    · rintro ⟨path, hpath, hdouble⟩
      obtain ⟨node, hnode, rfl⟩ := (mem_paths_iff hsite).1 hpath
      exact ⟨node, hnode, hdouble⟩
    · rintro ⟨node, hnode, hdouble⟩
      exact ⟨node.path, (mem_paths_iff hsite).2 ⟨node, hnode, rfl⟩, hdouble⟩
  · intro path hpath
    obtain ⟨node, hnode, rfl⟩ := (mem_paths_iff hsite).1 hpath
    exact ⟨node, filter_key_eq_singleton hnodup hnode, endsInSlash_path_iff (hsegments node hnode)⟩

/-- A tree with a `/` at the top, and another one further down. -/
def terraced : SegmentTree :=
  .node "/" [] (some (.node "/a" [] (some (.node "/" [] (some (.node "/b" [] none .nil)) .nil))
    .nil)) .nil

theorem slashes_of_terraced :
    ∃ site, (ofTree terraced).1 = .ok site ∧ site.paths = ["/", "/a", "/a/", "/a//b"] ∧
      (∃ path ∈ site.paths, Doubled path) ∧ ¬ (∃ node ∈ terraced.nodes, Doubled node.segment) ∧
      EndsInSlash "/a/" := by
  obtain ⟨site, hsite⟩ := exists_site_of_toBool terraced (by rfl)
  have hpaths : site.paths = ["/", "/a", "/a/", "/a//b"] := by
    obtain ⟨-, rfl⟩ := fst_ofTree_eq_ok_iff.1 hsite
    rfl
  obtain ⟨-, hdoubled, hends, -⟩ := slashes_of_paths hsite
  refine ⟨site, hsite, hpaths, ?_, ?_, ?_⟩
  · refine hdoubled.2 (.inr ⟨⟨["/", "/a"], "/", ⟨[], some (.node "/b" [] none .nil)⟩⟩, ?_⟩)
    simp [terraced, subtree, Node.under]
  · simp only [terraced, nodes_node, subtree, Option.getD_some, Option.getD_none, nodes_nil]
    decide
  · obtain ⟨node, hnode, hslash⟩ := hends "/a/" (by rw [hpaths]; decide)
    rw [hslash]
    obtain rfl : node = ⟨["/", "/a"], "/", ⟨[], some (.node "/b" [] none .nil)⟩⟩ := by
      simpa [terraced, subtree, Node.path, Node.under, Node.spelled] using hnode.symm
    rfl

end Site

end MockHttp
