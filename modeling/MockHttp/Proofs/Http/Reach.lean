import MockHttp.Proofs.Http.Targets
import MockHttp.Proofs.Site.Reading
/-!
# Which endpoints can be requested

Mounting looks at the slashes of a segment only.  A request can name an endpoint exactly if its path
is made of characters that a target takes into a path and is not too long, and so not every endpoint
that is mounted can be requested.
-/

namespace MockHttp

namespace Target

open SegmentTree (SlashLed)

/-- Some target has exactly this path. -/
def Reachable (path : String) : Prop :=
  ∃ text target, parse? text = some target ∧ target.path = path

/-- A path that starts with a slash is in reach exactly if it is a target of its own. -/
theorem reachable_iff {path : String} (hslash : SlashLed path) :
    Reachable path ↔
      (∀ c ∈ path.toList, isPathChar c = true) ∧ path.utf8ByteSize ≤ maxLength := by
  constructor
  · rintro ⟨text, target, hread, rfl⟩
    obtain ⟨hsize, hchars, hroot | hpart⟩ := of_parse? hread
    · exact ⟨hchars, by rw [hroot]; decide⟩
    · exact ⟨hchars, (Text.utf8ByteSize_le_of_piece hpart).trans hsize⟩
  · rintro ⟨hchars, hsize⟩
    exact ⟨path, (spells_self path).exists_target ⟨hslash, hchars⟩ hsize⟩

end Target

namespace Site

open SegmentTree Target

/-- Paths have the characters of the segments and no others. -/
theorem forall_path_chars_iff {tree : SegmentTree} :
    (∀ node ∈ tree.nodes, ∀ c ∈ node.path.toList, isPathChar c = true) ↔
      ∀ node ∈ tree.nodes, ∀ c ∈ node.segment.toList, isPathChar c = true := by
  constructor
  · intro hpaths node hnode c hc
    exact hpaths node hnode c (Text.mem_toList_join.2 ⟨node.segment, by simp [Node.spelled], hc⟩)
  · intro hsegments node hnode c hc
    obtain ⟨segment, hsegment, hc⟩ := Text.mem_toList_join.1 hc
    obtain ⟨other, hother, rfl⟩ := exists_node_of_mem_spelled hnode hsegment
    exact hsegments other hother c hc

/-- An endpoint can be requested exactly if its path has only characters that may stand in the path
of a target, and not too many.  So all endpoints of a tree can be exactly if no segment has another
character and no path is too long. -/
theorem reachable_paths {tree : SegmentTree} {site : Site} (hsite : (ofTree tree).1 = .ok site) :
    (∀ path ∈ site.paths, Reachable path ↔
      (∀ c ∈ path.toList, isPathChar c = true) ∧ path.utf8ByteSize ≤ maxLength) ∧
    ((∀ path ∈ site.paths, Reachable path) ↔
      (∀ node ∈ tree.nodes, ∀ c ∈ node.segment.toList, isPathChar c = true) ∧
        ∀ node ∈ tree.nodes, node.path.utf8ByteSize ≤ maxLength) := by
  have hreach (path : String) (hpath : path ∈ site.paths) :=
    reachable_iff (slashLed_of_mem_paths hsite hpath)
  refine ⟨hreach, ?_⟩
  rw [← forall_path_chars_iff]
  constructor
  · intro hall
    have hnode (node : Node) (hnode : node ∈ tree.nodes) :=
      (hreach node.path ((mem_paths_iff hsite).2 ⟨node, hnode, rfl⟩)).1
        (hall node.path ((mem_paths_iff hsite).2 ⟨node, hnode, rfl⟩))
    exact ⟨fun node h => (hnode node h).1, fun node h => (hnode node h).2⟩
  · rintro ⟨hchars, hsize⟩ path hpath
    obtain ⟨node, hnode, rfl⟩ := (mem_paths_iff hsite).1 hpath
    exact (hreach node.path hpath).2 ⟨hchars node hnode, hsize node hnode⟩

/-- Segments beyond letters, one below the other. -/
def terrace : SegmentTree :=
  .node "/caf\u00e9" [] (some (.node "/menu;v=1" [] none .nil)) .nil

theorem reachable_terrace :
    ∃ site, (ofTree terrace).1 = .ok site ∧ ∀ path ∈ site.paths, Reachable path := by
  obtain ⟨site, hsite⟩ := exists_site_of_toBool terrace (by decide +kernel)
  have hchars : (terrace.nodes.all fun node => node.segment.toList.all isPathChar) = true := by
    decide +kernel
  simp only [List.all_eq_true] at hchars
  exact ⟨site, hsite, (reachable_paths hsite).2.2 ⟨hchars, by decide +kernel⟩⟩

/-- A segment with the mark of a query in it. -/
def asked : SegmentTree :=
  .node "/a?b" [⟨"GET", 200, [], none⟩] none .nil

/-- The endpoint is mounted, but no target has its path, and its own text asks for another. -/
theorem not_reachable_asked :
    ∃ site, (ofTree asked).1 = .ok site ∧ "/a?b" ∈ site.paths ∧ ¬ Reachable "/a?b" ∧
      ∃ target, parse? "/a?b" = some target ∧
        site.lookup target.path ⟨"GET", by decide⟩ = .unknownPath := by
  obtain ⟨site, hsite⟩ := exists_site_of_toBool asked (by decide +kernel)
  have hpath : "/a?b" ∈ site.paths :=
    (mem_paths_iff hsite).2 ⟨⟨[], "/a?b", _⟩, List.mem_singleton_self _, by decide +kernel⟩
  refine ⟨site, hsite, hpath, ?_, ?_⟩
  · rw [reachable_iff (slashLed_of_mem_paths hsite hpath)]
    rintro ⟨hchars, -⟩
    exact absurd (hchars '?' (by decide)) (by decide)
  · have hpath : IsPath "/a" := ⟨by decide, List.all_eq_true.1 (by decide)⟩
    have hspells : Spells ("/a" ++ "?" ++ "b") "/a" :=
      spells_query "/a" (List.all_eq_true.1 (by decide))
    obtain ⟨target, hread, htarget⟩ := hspells.exists_target hpath (by decide +kernel)
    refine ⟨target, hread, ?_⟩
    rw [htarget, lookup_eq_unknownPath_iff hsite]
    decide +kernel

end Site

end MockHttp
