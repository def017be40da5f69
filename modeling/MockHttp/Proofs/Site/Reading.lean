import MockHttp.Proofs.Site.Table
/-!
# A site reads as its tree

Which trees have a site, and what the site of a tree answers: a request is found exactly if a node
has its path and a handler of the node its method, and the last such handler says the reply.
-/

namespace MockHttp.Site

open SegmentTree

section

variable {tree : SegmentTree} {site : Site}

theorem endpoint?_path (hsite : (ofTree tree).1 = .ok site) {node : Node}
    (hnode : node ∈ tree.nodes) :
    ∃ endpoint, node.endpoint "" = .ok endpoint ∧ site.endpoint? node.path = some endpoint := by
  obtain ⟨hmount, rfl⟩ := fst_ofTree_eq_ok_iff.1 hsite
  rw [← pathFrom_empty_of_wellFormed (mount_empty_eq_ok_iff.1 hmount).1 hnode]
  exact (grew_mount hmount).added node hnode

theorem map_pathFrom_empty (hsite : (ofTree tree).1 = .ok site) :
    tree.nodes.map (Node.pathFrom "") = tree.nodes.map Node.path := by
  obtain ⟨hmount, -⟩ := fst_ofTree_eq_ok_iff.1 hsite
  exact List.map_congr_left fun node hnode =>
    pathFrom_empty_of_wellFormed (mount_empty_eq_ok_iff.1 hmount).1 hnode

theorem endpoint?_eq_none_iff (hsite : (ofTree tree).1 = .ok site) {path : String} :
    site.endpoint? path = none ↔ ∀ node ∈ tree.nodes, node.path ≠ path := by
  constructor
  · rintro hnone node hnode rfl
    obtain ⟨endpoint, -, hsome⟩ := endpoint?_path hsite hnode
    rw [hnone] at hsome
    cases hsome
  · intro hall
    have hpaths := map_pathFrom_empty hsite
    obtain ⟨hmount, rfl⟩ := fst_ofTree_eq_ok_iff.1 hsite
    refine (grew_mount hmount).kept path ?_
    rw [hpaths, List.mem_map]
    rintro ⟨node, hnode, heq⟩
    exact hall node hnode heq

theorem paths_perm (hsite : (ofTree tree).1 = .ok site) :
    site.paths.Perm (tree.nodes.map Node.path) := by
  have hpaths := map_pathFrom_empty hsite
  obtain ⟨hmount, rfl⟩ := fst_ofTree_eq_ok_iff.1 hsite
  have hperm := (grew_mount hmount).paths
  rw [hpaths] at hperm
  simpa [empty, Site.paths, Keyed.keys] using hperm

theorem pairwise_paths (hsite : (ofTree tree).1 = .ok site) :
    site.paths.Pairwise (· < ·) := by
  obtain ⟨hmount, rfl⟩ := fst_ofTree_eq_ok_iff.1 hsite
  exact (grew_mount hmount).sorted List.Pairwise.nil

theorem mem_paths_iff (hsite : (ofTree tree).1 = .ok site) {path : String} :
    path ∈ site.paths ↔ ∃ node ∈ tree.nodes, node.path = path := by
  rw [(paths_perm hsite).mem_iff, List.mem_map]

/-- All paths of a site start with a slash. -/
theorem slashLed_of_mem_paths (hsite : (ofTree tree).1 = .ok site) {path : String}
    (hpath : path ∈ site.paths) : SlashLed path := by
  obtain ⟨node, hnode, rfl⟩ := (mem_paths_iff hsite).1 hpath
  obtain ⟨hmount, -⟩ := fst_ofTree_eq_ok_iff.1 hsite
  obtain ⟨hsegments, -⟩ := mount_empty_eq_ok_iff.1 hmount
  refine slashLed_join (List.concat_ne_nil _ _) fun segment hsegment => ?_
  obtain ⟨other, hother, rfl⟩ := exists_node_of_mem_spelled hnode hsegment
  exact (hsegments other hother).1

theorem filter_key_eq_singleton {α : Type} {key : α → String} {items : List α} {item : α}
    (hnodup : (items.map key).Nodup) (hitem : item ∈ items) :
    items.filter (fun other => key other = key item) = [item] := by
  induction items with
  | nil => cases hitem
  | cons first items ih =>
      rw [List.map_cons, List.nodup_cons] at hnodup
      rcases List.mem_cons.1 hitem with rfl | hitem
      · have hrest : items.filter (fun other => key other = key item) = [] := by
          rw [List.filter_eq_nil_iff]
          intro other hother
          have hne : key other ≠ key item := fun heq =>
            hnodup.1 (heq ▸ List.mem_map_of_mem hother)
          simpa using hne
        rw [List.filter_cons_of_pos (by simp), hrest]
      · have hne : key first ≠ key item := fun heq =>
          hnodup.1 (heq ▸ List.mem_map_of_mem hitem)
        rw [List.filter_cons_of_neg (by simpa using hne), ih hnodup.2 hitem]

theorem reply?_of_endpoint {node : Node} {base : String} {endpoint : Endpoint}
    (hendpoint : node.endpoint base = .ok endpoint) (method : Method) :
    (endpoint.reply? method = none ↔
        ∀ handler ∈ node.group.handlers, handler.method ≠ method.text) ∧
      ∀ reply, endpoint.reply? method = some reply →
        ∃ handler, Endpoint.lastHandler? method.text node.group.handlers = some handler ∧
          handler.Gives reply := by
  have hreply := Endpoint.reply?_addHandlers hendpoint method
  rw [← Endpoint.lastHandler?_eq_none_iff]
  cases hlast : Endpoint.lastHandler? method.text node.group.handlers with
  | none =>
      rw [hlast] at hreply
      dsimp only at hreply
      rw [hreply]
      simp [Endpoint.empty, Endpoint.reply?, Keyed.find?]
  | some handler =>
      rw [hlast] at hreply
      obtain ⟨reply, hsome, hresolve⟩ := hreply
      rw [hsome]
      simp [(Handler.gives_of_resolve hresolve).2]

/-! ## Answers -/

theorem lookup_eq_unknownPath_iff (hsite : (ofTree tree).1 = .ok site) {path : String}
    {method : Method} :
    site.lookup path method = .unknownPath ↔ ∀ node ∈ tree.nodes, node.path ≠ path := by
  rw [← endpoint?_eq_none_iff hsite]
  cases hendpoint : site.endpoint? path with
  | none => simp [lookup, hendpoint]
  | some endpoint => cases hreply : endpoint.reply? method <;> simp [lookup, hendpoint, hreply]

/-- The answer at the path of a node is that of its last handler of the method. -/
theorem lookup_path (hsite : (ofTree tree).1 = .ok site) {node : Node} (hnode : node ∈ tree.nodes)
    (method : Method) :
    (site.lookup node.path method = .wrongMethod ↔
        ∀ handler ∈ node.group.handlers, handler.method ≠ method.text) ∧
      (site.lookup node.path method ≠ .wrongMethod →
        ∃ handler reply, Endpoint.lastHandler? method.text node.group.handlers = some handler ∧
          site.lookup node.path method = .found reply ∧ handler.Gives reply) := by
  obtain ⟨endpoint, hmade, hendpoint⟩ := endpoint?_path hsite hnode
  obtain ⟨hnone, hsome⟩ := reply?_of_endpoint hmade method
  rw [← hnone]
  cases hreply : endpoint.reply? method with
  | none => simp [lookup, hendpoint, hreply]
  | some reply =>
      obtain ⟨handler, hlast, hgives⟩ := hsome reply hreply
      have hfound : site.lookup node.path method = .found reply := by
        simp [lookup, hendpoint, hreply]
      exact ⟨by simp [hfound], fun _ => ⟨handler, reply, hlast, hfound, hgives⟩⟩

end

/-- A site answers as its tree reads, and has the nodes of the tree, each at its own path. -/
theorem lookup_reads_tree {tree : SegmentTree} {site : Site} (hsite : (ofTree tree).1 = .ok site) :
    (∀ path method,
      (site.lookup path method = .unknownPath ↔ ∀ node ∈ tree.nodes, node.path ≠ path) ∧
        (site.lookup path method ≠ .unknownPath →
          ∃ node, tree.nodes.filter (fun other => other.path = path) = [node] ∧
            (site.lookup path method = .wrongMethod ↔
              ∀ handler ∈ node.group.handlers, handler.method ≠ method.text) ∧
            (site.lookup path method ≠ .wrongMethod →
              ∃ handler reply,
                Endpoint.lastHandler? method.text node.group.handlers = some handler ∧
                  site.lookup path method = .found reply ∧ handler.Gives reply))) ∧
      site.size = tree.size ∧ site.paths.Perm (tree.nodes.map Node.path) ∧
        (site.paths.map Text.bytes).Pairwise (· < ·) := by
  obtain ⟨hmount, -⟩ := fst_ofTree_eq_ok_iff.1 hsite
  obtain ⟨-, -, hnodup⟩ := mount_empty_eq_ok_iff.1 hmount
  refine ⟨fun path method => ⟨lookup_eq_unknownPath_iff hsite, ?_⟩, ?_, paths_perm hsite, ?_⟩
  · intro hknown
    rw [ne_eq, lookup_eq_unknownPath_iff hsite] at hknown
    push Not at hknown
    obtain ⟨node, hnode, rfl⟩ := hknown
    exact ⟨node, filter_key_eq_singleton hnodup hnode, lookup_path hsite hnode method⟩
  · calc site.size = site.paths.length := by simp [size, Site.paths, Keyed.keys]
      _ = (tree.nodes.map Node.path).length := (paths_perm hsite).length_eq
      _ = tree.size := by rw [List.length_map, length_nodes]
  · rw [List.pairwise_map]
    exact (pairwise_paths hsite).imp Text.bytes_lt_bytes_iff.2

theorem exists_site_of_toBool (tree : SegmentTree) (hok : (ofTree tree).1.toBool = true) :
    ∃ site, (ofTree tree).1 = .ok site := by
  cases hresult : (ofTree tree).1 with
  | ok site => exact ⟨site, rfl⟩
  | error error =>
      rw [hresult] at hok
      cases hok

/-- A tree whose root gives one method twice, above a node without handlers. -/
def greeting : SegmentTree :=
  .node "/" [⟨"GET", 500, [], none⟩, ⟨"GET", 200, [("X-A", "1")], some [110, 117, 108, 108]⟩]
    (some (.node "/users" [] none .nil)) .nil

theorem lookup_greeting :
    ∃ site, (ofTree greeting).1 = .ok site ∧ site.size = 2 ∧
      site.lookup "/missing" ⟨"GET", by decide⟩ = .unknownPath ∧
      site.lookup "/users" ⟨"GET", by decide⟩ = .wrongMethod ∧
      ∃ reply, site.lookup "/" ⟨"GET", by decide⟩ = .found reply ∧ reply.status.code = 200 := by
  have hok : (ofTree greeting).1.toBool = true := by decide +kernel
  obtain ⟨site, hsite⟩ := exists_site_of_toBool greeting hok
  obtain ⟨hlookup, hsize, -⟩ := lookup_reads_tree hsite
  refine ⟨site, hsite, hsize.trans rfl, (hlookup _ _).1.2 (by decide), ?_, ?_⟩
  · obtain ⟨hunknown, hknown⟩ := hlookup "/users" ⟨"GET", by decide⟩
    obtain ⟨node, hnode, hwrong, -⟩ := hknown (by rw [ne_eq, hunknown]; decide)
    obtain rfl : node = ⟨["/"], "/users", ⟨[], none⟩⟩ := by
      simpa [greeting, subtree, Node.path, Node.under, Node.spelled] using hnode.symm
    rw [hwrong]
    simp
  · obtain ⟨hunknown, hknown⟩ := hlookup "/" ⟨"GET", by decide⟩
    obtain ⟨node, hnode, hwrong, hfound⟩ := hknown (by rw [ne_eq, hunknown]; decide)
    simp only [greeting, subtree, nodes_node, Option.getD_some] at hnode
    obtain rfl := List.head_eq_of_cons_eq hnode
    obtain ⟨handler, reply, hlast, hreply, hgives⟩ := hfound (by rw [ne_eq, hwrong]; decide)
    obtain rfl := Option.some.inj hlast
    exact ⟨reply, hreply, hgives.status⟩

end MockHttp.Site
