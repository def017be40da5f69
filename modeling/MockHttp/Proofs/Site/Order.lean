import MockHttp.Proofs.Site.Table
/-!
# The order of mountings

A mounting that succeeds is a disjoint union with what the site has, so of two trees that are
mounted one after the other either may come first.
-/

namespace MockHttp

namespace Site

open SegmentTree

variable {site : Site} {base base' : String} {tree tree' : SegmentTree}

/-- Behind one mounting another one succeeds exactly if it would have succeeded before, too, and the
two have no path in common. -/
theorem mount_mount_eq_ok_iff (hmount : (site.mount base tree).1 = .ok ()) :
    ((site.mount base tree).2.state.mount base' tree').1 = .ok () ↔
      (site.mount base' tree').1 = .ok () ∧
        (tree.nodes.map (Node.pathFrom base)).Disjoint (tree'.nodes.map (Node.pathFrom base')) := by
  have hgrew := grew_mount hmount
  have hfresh : (∀ node ∈ tree'.nodes,
        (site.mount base tree).2.state.endpoint? (node.pathFrom base') = none) ↔
      (∀ node ∈ tree'.nodes, site.endpoint? (node.pathFrom base') = none) ∧
        (tree.nodes.map (Node.pathFrom base)).Disjoint (tree'.nodes.map (Node.pathFrom base')) := by
    constructor
    · intro hnone
      have hapart (node : Node) (hnode : node ∈ tree'.nodes) :
          node.pathFrom base' ∉ tree.nodes.map (Node.pathFrom base) := by
        intro hmem
        obtain ⟨own, hown, heq⟩ := List.mem_map.1 hmem
        obtain ⟨endpoint, -, hsome⟩ := hgrew.added own hown
        rw [heq, hnone node hnode] at hsome
        cases hsome
      refine ⟨fun node hnode => ?_, ?_⟩
      · rw [← hgrew.kept _ (hapart node hnode)]
        exact hnone node hnode
      · intro path hpath hpath'
        obtain ⟨node, hnode, rfl⟩ := List.mem_map.1 hpath'
        exact hapart node hnode hpath
    · rintro ⟨hnone, hdisjoint⟩ node hnode
      rw [hgrew.kept _ fun hmem => hdisjoint hmem (List.mem_map_of_mem hnode)]
      exact hnone node hnode
  rw [mount_eq_ok_iff, mount_eq_ok_iff, hfresh]
  simp only [and_assoc]

/-- What is found behind two mountings: the nodes of either tree and else what was there. -/
theorem endpoint?_mount_mount (hmount : (site.mount base tree).1 = .ok ())
    (hmount' : ((site.mount base tree).2.state.mount base' tree').1 = .ok ()) (path : String) :
    ((site.mount base tree).2.state.mount base' tree').2.state.endpoint? path =
      if path ∈ tree'.nodes.map (Node.pathFrom base') then
        (site.mount base' tree').2.state.endpoint? path
      else (site.mount base tree).2.state.endpoint? path := by
  have hgrew := grew_mount hmount'
  have hgrew' := grew_mount ((mount_mount_eq_ok_iff hmount).1 hmount').1
  split
  · rename_i hmem
    obtain ⟨node, hnode, rfl⟩ := List.mem_map.1 hmem
    obtain ⟨endpoint, hendpoint, hsome⟩ := hgrew.added node hnode
    obtain ⟨endpoint', hendpoint', hsome'⟩ := hgrew'.added node hnode
    rw [hendpoint] at hendpoint'
    obtain rfl := Except.ok.inj hendpoint'
    rw [hsome, hsome']
  · rename_i hmem
    exact hgrew.kept path hmem

/-- Two mountings that succeed in one order do so in the other. -/
theorem mount_mount_eq_ok_of_swap (hmount : (site.mount base tree).1 = .ok ())
    (hmount' : ((site.mount base tree).2.state.mount base' tree').1 = .ok ()) :
    (site.mount base' tree').1 = .ok () ∧
      ((site.mount base' tree').2.state.mount base tree).1 = .ok () := by
  obtain ⟨hown, hdisjoint⟩ := (mount_mount_eq_ok_iff hmount).1 hmount'
  exact ⟨hown, (mount_mount_eq_ok_iff hown).2 ⟨hmount, fun path h h' => hdisjoint h' h⟩⟩

theorem endpoint?_mount_mount_comm (hmount : (site.mount base tree).1 = .ok ())
    (hmount' : ((site.mount base tree).2.state.mount base' tree').1 = .ok ()) (path : String) :
    ((site.mount base tree).2.state.mount base' tree').2.state.endpoint? path =
      ((site.mount base' tree').2.state.mount base tree).2.state.endpoint? path := by
  obtain ⟨hown, hown'⟩ := mount_mount_eq_ok_of_swap hmount hmount'
  obtain ⟨-, hdisjoint⟩ := (mount_mount_eq_ok_iff hmount).1 hmount'
  rw [endpoint?_mount_mount hmount hmount', endpoint?_mount_mount hown hown']
  by_cases hpath : path ∈ tree.nodes.map (Node.pathFrom base)
  · rw [if_neg (hdisjoint hpath), if_pos hpath]
  · by_cases hpath' : path ∈ tree'.nodes.map (Node.pathFrom base')
    · rw [if_pos hpath', if_neg hpath]
    · rw [if_neg hpath', if_neg hpath, (grew_mount hmount).kept path hpath,
        (grew_mount hown).kept path hpath']

theorem paths_mount_mount_perm (hmount : (site.mount base tree).1 = .ok ())
    (hmount' : ((site.mount base tree).2.state.mount base' tree').1 = .ok ()) :
    ((site.mount base tree).2.state.mount base' tree').2.state.paths.Perm
      (tree'.nodes.map (Node.pathFrom base') ++
        (tree.nodes.map (Node.pathFrom base) ++ site.paths)) :=
  (grew_mount hmount').paths.trans ((grew_mount hmount).paths.append_left _)

/-- Of two trees either may be mounted first: both mountings succeed in one order exactly if they do
in the other, and what is then served is the same.  A site whose paths are in order, as they are in
every site that mountings lead to, ends up as the same one. -/
theorem mount_mount_comm (site : Site) (base base' : String) (tree tree' : SegmentTree) :
    let first := site.mount base tree
    let second := first.2.state.mount base' tree'
    let first' := site.mount base' tree'
    let second' := first'.2.state.mount base tree
    (first.1 = .ok () ∧ second.1 = .ok () ↔ first'.1 = .ok () ∧ second'.1 = .ok ()) ∧
      (first.1 = .ok () → second.1 = .ok () →
        (∀ path method, second.2.state.lookup path method = second'.2.state.lookup path method) ∧
        second.2.state.size = second'.2.state.size ∧
        (site.paths.Pairwise (· < ·) →
          second.2.state.paths = second'.2.state.paths ∧ second.2.state = second'.2.state)) := by
  intro first second first' second'
  refine ⟨⟨fun h => mount_mount_eq_ok_of_swap h.1 h.2, fun h => mount_mount_eq_ok_of_swap h.1 h.2⟩,
    fun hfirst hsecond => ?_⟩
  obtain ⟨hfirst', hsecond'⟩ := mount_mount_eq_ok_of_swap hfirst hsecond
  have hfound := endpoint?_mount_mount_comm hfirst hsecond
  refine ⟨fun path method => ?_, ?_, fun hsorted => ?_⟩
  · rw [lookup, lookup, hfound path]
  · have hsize (s : Site) : s.size = s.paths.length := by simp [size, Site.paths, Keyed.keys]
    rw [hsize, hsize, (paths_mount_mount_perm hfirst hsecond).length_eq,
      (paths_mount_mount_perm hfirst' hsecond').length_eq, List.length_append, List.length_append,
      List.length_append, List.length_append]
    omega
  · have hkeys := (grew_mount hsecond).sorted ((grew_mount hfirst).sorted hsorted)
    have hkeys' := (grew_mount hsecond').sorted ((grew_mount hfirst').sorted hsorted)
    have hequal : second.2.state = second'.2.state :=
      congrArg Site.mk (Keyed.eq_of_find?_eq hkeys hkeys' hfound)
    exact ⟨congrArg Site.paths hequal, hequal⟩

/-- A site with one endpoint. -/
def outpost : Site := ⟨[("/v1", Endpoint.empty)]⟩

theorem mount_mount_outpost :
    (outpost.mount "/v1" (.node "/b" [] none .nil)).1 = .ok () ∧
      ((outpost.mount "/v1" (.node "/b" [] none .nil)).2.state.mount "/" (.node "/a" [] none .nil)).1
        = .ok () ∧
      outpost.paths.Pairwise (· < ·) ∧
      ((outpost.mount "/" (.node "/a" [] none .nil)).2.state.mount "/v1"
        (.node "/b" [] none .nil)).2.state.paths = ["/a", "/v1", "/v1/b"] := by
  have hfirst : (outpost.mount "/v1" (.node "/b" [] none .nil)).1 = .ok () := by rfl
  have hsecond : ((outpost.mount "/v1" (.node "/b" [] none .nil)).2.state.mount "/"
      (.node "/a" [] none .nil)).1 = .ok () := by rfl
  have hsorted : outpost.paths.Pairwise (· < ·) := List.pairwise_singleton _ _
  obtain ⟨-, hequal⟩ := mount_mount_comm outpost "/v1" "/" (.node "/b" [] none .nil)
    (.node "/a" [] none .nil)
  obtain ⟨-, -, hpaths⟩ := hequal hfirst hsecond
  refine ⟨hfirst, hsecond, hsorted, ?_⟩
  rw [← (hpaths hsorted).1]
  rfl

end Site

end MockHttp
