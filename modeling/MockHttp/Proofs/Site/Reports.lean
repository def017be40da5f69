import MockHttp.Proofs.Site.Endpoints
import MockHttp.Proofs.Site.History
import MockHttp.Proofs.Site.Slashes
/-!
# What a mounting reports

The events of a mounting tell what was done, on success and on failure: which calls were made, which
levels were entered and under which base a segment came to the root.  Each kind of event is a
projection of the steps that the walk came to.
-/

namespace MockHttp

/-! ## Kinds of events -/

namespace Event

/-- The path and the methods of a call that is reported. -/
def offered? : Event → Option (String × List String)
  | pathOffered path methods => some (path, methods)
  | _ => none

/-- The base of a level that is reported. -/
def entered? : Event → Option String
  | levelEntered base => some base
  | _ => none

/-- The segment that is reported as one at the root, and whether a slash is dropped for it. -/
def rooted? : Event → Option (String × Bool)
  | mountedAtRoot segment => some (segment, false)
  | rootSlashDropped segment => some (segment, true)
  | _ => none

/-- The segment for which a slash is dropped. -/
def dropped? : Event → Option String
  | rootSlashDropped segment => some segment
  | _ => none

end Event

/-- What is reported while an endpoint is made are only handlers that take a place. -/
theorem Endpoint.exists_eq_methodRepeated {path : String} {endpoint : Endpoint}
    {handlers : List Handler} {event : Event}
    (hevent : event ∈ (endpoint.addHandlers path handlers).2) :
    ∃ handler ∈ handlers, event = .methodRepeated path handler.method := by
  induction handlers generalizing endpoint with
  | nil => cases hevent
  | cons first handlers ih =>
      rw [addHandlers] at hevent
      cases hresolve : first.resolve path with
      | error error =>
          rw [hresolve] at hevent
          cases hevent
      | ok answer =>
          obtain ⟨method, reply⟩ := answer
          simp only [hresolve] at hevent
          split at hevent
          · rcases List.mem_cons.1 hevent with rfl | hevent
            · exact ⟨first, List.mem_cons_self, rfl⟩
            · obtain ⟨handler, hhandler, heq⟩ := ih hevent
              exact ⟨handler, List.mem_cons_of_mem _ hhandler, heq⟩
          · obtain ⟨handler, hhandler, heq⟩ := ih hevent
            exact ⟨handler, List.mem_cons_of_mem _ hhandler, heq⟩

namespace SegmentTree

variable {σ β : Type} {base : String} {tree : SegmentTree}

/-- Where the parent of a node comes to be, which for a node of the top level is the base. -/
def Node.baseFrom (base : String) (node : Node) : String :=
  node.above.foldl pathUnder base

/-! ## Reports of steps -/

/-- What is reported of a node that passes its check. -/
def checkEvents (base : String) (node : Node) : List Event :=
  rootEvents (node.baseFrom base) node.segment ++
    levelEvents (node.pathFrom base) (subtree node.group.children)

theorem filterMap_report_build {f : Event → Option β}
    (hf : ∀ path method, f (.methodRepeated path method) = none) (base : String) (node : Node) :
    ((Step.build node).report base).filterMap f = [] := by
  rw [List.filterMap_eq_nil_iff]
  intro event hevent
  obtain ⟨handler, -, rfl⟩ := Endpoint.exists_eq_methodRepeated hevent
  exact hf _ _

/-- The nodes whose checks a run passed. -/
def Run.checked (run : Run σ) : List Node :=
  run.passed.filterMap Step.checked?

section

variable {f : Event → Option β} {g : Node → Option β} {registry : Registry σ} {steps : List Step}
  {state : σ} {step : Step}
  (hrepeated : ∀ path method, f (.methodRepeated path method) = none)
  (hoffered : ∀ path methods, f (.pathOffered path methods) = none)
  (hcheck : ∀ node, (checkEvents base node).filterMap f = (g node).toList)

include hrepeated hoffered

theorem filterMap_report_of_checked?_eq_none (hstep : step.checked? = none) :
    (step.report base).filterMap f = [] := by
  cases step with
  | check n => cases hstep
  | build n => exact filterMap_report_build hrepeated base n
  | call n =>
      rw [Step.report]
      cases n.endpoint base with
      | ok endpoint => simp [hoffered]
      | error error => rfl

theorem filterMap_report_of_failed {error : MountFailure}
    (hfailed : (Run.of registry base steps state).failed = some (step, error)) :
    (step.report base).filterMap f = [] := by
  cases step with
  | build n | call n => exact filterMap_report_of_checked?_eq_none hrepeated hoffered rfl
  | check n =>
      obtain ⟨before, hperform⟩ := Run.perform_of_failed hfailed
      rw [Step.perform_check] at hperform
      have hbad : ¬ WellFormed n.segment := by
        rw [← checkSegment_eq_ok_iff, (Prod.mk.inj hperform).1]
        simp
      rw [Step.report, if_neg hbad]
      rfl

include hcheck

theorem filterMap_report_of_passed (hpassed : step ∈ (Run.of registry base steps state).passed) :
    (step.report base).filterMap f = (step.checked?.bind g).toList := by
  cases step with
  | build n | call n => exact filterMap_report_of_checked?_eq_none hrepeated hoffered rfl
  | check n =>
      obtain ⟨before, hperform⟩ := Run.perform_of_mem_passed hpassed
      rw [Step.perform_check] at hperform
      rw [Step.report, if_pos (checkSegment_eq_ok_iff.1 hperform)]
      exact hcheck n

/-- Of what a run reports, all but calls and repeated methods comes from the nodes that passed their
checks. -/
theorem filterMap_report_performed (registry : Registry σ) (steps : List Step) (state : σ) :
    let run := Run.of registry base steps state
    (run.performed.flatMap (Step.report base)).filterMap f = run.checked.filterMap g := by
  intro run
  have hlast : ((run.failed.map Prod.fst).toList.flatMap fun step =>
      (step.report base).filterMap f) = [] := by
    cases hfailed : run.failed with
    | none => rfl
    | some failure => simpa using filterMap_report_of_failed hrepeated hoffered hfailed
  have hpassed : (run.passed.flatMap fun step => (step.report base).filterMap f) =
      run.passed.flatMap fun step => (step.checked?.bind g).toList :=
    List.flatMap_congr fun step => filterMap_report_of_passed hrepeated hoffered hcheck
  rw [List.filterMap_flatMap, Run.performed, List.flatMap_append, hlast, List.append_nil, hpassed,
    Run.checked, List.filterMap_filterMap, List.filterMap_eq_flatMap_toList]

end

/-- Each call is reported when it is made, and nothing else is reported as one. -/
theorem filterMap_offered?_report (base : String) (step : Step)
    (answer : Except MountFailure Unit) :
    (step.report base).filterMap Event.offered? =
      ((step.offer? base answer).map fun offer => (offer.path, offer.endpoint.methods)).toList := by
  cases step with
  | check n =>
      rw [Step.report, rootEvents, levelEvents]
      split_ifs <;> rfl
  | build n => exact filterMap_report_build (fun _ _ => rfl) base n
  | call n =>
      rw [Step.report, Step.offer?]
      cases n.endpoint base <;> rfl

theorem filterMap_offered?_performed (base : String) (run : Run σ) :
    (run.performed.flatMap (Step.report base)).filterMap Event.offered? =
      (run.offers base).map fun offer => (offer.path, offer.endpoint.methods) := by
  obtain ⟨passed, failed, state⟩ := run
  rw [List.filterMap_flatMap, Run.performed, Run.offers, List.flatMap_append, List.map_append,
    List.map_filterMap, List.filterMap_eq_flatMap_toList]
  congr 1
  · exact List.flatMap_congr fun step _ => filterMap_offered?_report base step (.ok ())
  · rcases failed with _ | ⟨step, error⟩
    · rfl
    · simp [filterMap_offered?_report base step (.error error), Option.toList_map]

theorem pairwise_methods_of_mem_offers {run : Run σ} {offer : Offer}
    (hoffer : offer ∈ run.offers base) :
    offer.endpoint.methods.Pairwise fun method other => Text.bytes method < Text.bytes other := by
  have hstep : ∃ step answer, Step.offer? base answer step = some offer := by
    rw [Run.offers, List.mem_append, List.mem_filterMap] at hoffer
    rcases hoffer with ⟨step, -, hoffer⟩ | hoffer
    · exact ⟨step, _, hoffer⟩
    · cases hfailed : run.failed with
      | none => simp [hfailed] at hoffer
      | some failure => exact ⟨failure.1, .error failure.2, by simpa [hfailed] using hoffer⟩
  obtain ⟨step, answer, hstep⟩ := hstep
  cases step with
  | check n | build n => cases hstep
  | call n =>
      rw [Step.offer?, Option.map_eq_some_iff] at hstep
      obtain ⟨endpoint, hmade, rfl⟩ := hstep
      cases hendpoint : n.endpoint base with
      | error error => simp [hendpoint, Except.toOption] at hmade
      | ok made =>
          obtain rfl : made = endpoint := by simpa [hendpoint, Except.toOption] using hmade
          exact (Endpoint.merged_ofHandlers hendpoint).sorted.imp Text.bytes_lt_bytes_iff.2

/-! ## Reports of checks -/

theorem filterMap_entered?_checkEvents (base : String) (node : Node) :
    (checkEvents base node).filterMap Event.entered? =
      (if (subtree node.group.children).isEmpty then none
        else some (node.pathFrom base)).toList := by
  rw [checkEvents, rootEvents, levelEvents]
  split_ifs <;> rfl

theorem filterMap_rooted?_checkEvents (base : String) (node : Node) :
    (checkEvents base node).filterMap Event.rooted? =
      (if (node.baseFrom base).utf8ByteSize < 2 then
          some (node.segment, decide (node.baseFrom base = "/"))
        else none).toList := by
  rw [checkEvents, rootEvents, levelEvents]
  split_ifs <;> first | omega | simp_all [Event.rooted?]

theorem filterMap_dropped?_checkEvents (base : String) (node : Node) :
    (checkEvents base node).filterMap Event.dropped? =
      (if node.baseFrom base = "/" then some node.segment else none).toList := by
  rw [checkEvents, rootEvents, levelEvents]
  by_cases hbase : node.baseFrom base = "/"
  · rw [if_neg (by rw [hbase]; decide), if_pos hbase, if_pos hbase]
    split_ifs <;> rfl
  · rw [if_neg hbase, if_neg hbase]
    split_ifs <;> rfl

theorem filter_above_map_under (segment : String) (above : List String) (nodes : List Node) :
    (nodes.map (Node.under segment)).filter (fun node => node.above = above) =
      if above.head? = some segment then
        (nodes.filter (fun node => node.above = above.tail)).map (Node.under segment)
      else [] := by
  cases above with
  | nil => simp [List.filter_map, Function.comp_def, Node.under]
  | cons first above =>
      by_cases hfirst : first = segment
      · simp [List.filter_map, Function.comp_def, Node.under, hfirst]
      · simp [List.filter_map, Function.comp_def, Node.under, hfirst, Ne.symm hfirst]

/-- Nodes with one parent come in one order, whether they are checked or mounted. -/
theorem filter_above_checked (tree : SegmentTree) (above : List String) :
    (tree.plan.filterMap Step.checked?).filter (fun node => node.above = above) =
      tree.nodes.filter (fun node => node.above = above) := by
  induction tree using induction_subtree generalizing above with
  | nil => rfl
  | node segment handlers children siblings ihc ihs =>
      rw [filterMap_checked?_plan_node, nodes_node, List.filter_cons, List.filter_append,
        filter_above_map_under, List.filter_append, List.filter_cons, filter_above_map_under, ihc,
        ihs]
      -- Either the node itself has this parent, or nodes below it may.
      cases above <;> simp

/-! ## Whole mountings -/

theorem events_mount (registry : Registry σ) (base : String) (tree : SegmentTree) (state : σ) :
    ((tree.mount registry base).outcome state).2.events =
      levelEvents base tree ++
        (Run.of registry base tree.plan state).performed.flatMap (Step.report base) :=
  congrArg (fun outcome => outcome.2.events) (outcome_mount registry base tree state)

theorem record_mount (registry : Registry σ) (base : String) (tree : SegmentTree) (state : σ) :
    ((tree.mount registry.recorded base).outcome (state, [])).2.state.2 =
      (Run.of registry base tree.plan state).offers base :=
  congrArg Prod.snd (Run.record_outcome_mount registry base tree state)

section

variable {site : Site}

/-- Below the top level of a tree that has a site, no base is `/`. -/
theorem baseFrom_empty_eq_slash_iff (hsite : (Site.ofTree tree).1 = .ok site) {node : Node}
    (hnode : node ∈ tree.nodes) : node.baseFrom "" = "/" ↔ node.above = ["/"] := by
  obtain ⟨hmount, -⟩ := Site.fst_ofTree_eq_ok_iff.1 hsite
  obtain ⟨hsegments, -, hnodup⟩ := Site.mount_empty_eq_ok_iff.1 hmount
  have hled : ∀ segment ∈ node.above, SlashLed segment := by
    intro segment hsegment
    obtain ⟨other, hother, rfl⟩ := exists_node_of_mem_above hnode hsegment
    exact (hsegments other hother).1
  constructor
  · intro hbase
    have hjoin : String.join (node.above.dropWhile (· = "/")) = "" := by
      rw [← stem_foldl_pathUnder hled]
      exact if_pos hbase
    have hrun : node.above.dropWhile (· = "/") = [] := by
      by_contra hne
      exact ne_empty_of_slashLed (slashLed_join hne fun segment hsegment =>
        hled segment ((List.dropWhile_sublist _).subset hsegment)) hjoin
    rw [dropWhile_above hnodup hnode] at hrun
    cases habove : node.above with
    | nil => simp [Node.baseFrom, habove] at hbase
    | cons first above =>
        rw [habove] at hrun
        by_cases hfirst : first = "/"
        · simpa [hfirst] using hrun
        · simp [hfirst] at hrun
  · intro habove
    rw [Node.baseFrom, habove]
    rfl

/-- A mounting that succeeds has passed its whole plan. -/
theorem passed_of_ofTree (hsite : (Site.ofTree tree).1 = .ok site) :
    (Run.of Site.registry "" tree.plan Site.empty).failed = none ∧
      (Run.of Site.registry "" tree.plan Site.empty).passed = tree.plan := by
  obtain ⟨hmount, -⟩ := Site.fst_ofTree_eq_ok_iff.1 hsite
  rw [Site.fst_mount] at hmount
  exact Run.of_result_eq_ok hmount

theorem events_ofTree (hsite : (Site.ofTree tree).1 = .ok site) :
    (Site.ofTree tree).2 =
      (Site.empty.mount "" tree).2.events ++ [.treeMounted site.size] := by
  rw [Site.ofTree] at hsite ⊢
  generalize Site.empty.mount "" tree = outcome at hsite ⊢
  obtain ⟨error | ⟨⟨⟩⟩, progress⟩ := outcome
  · cases hsite
  · obtain rfl := Except.ok.inj hsite
    rfl

/-- A site has one endpoint for each call that was made on the way to it. -/
theorem size_of_ofTree (hsite : (Site.ofTree tree).1 = .ok site) :
    site.size = ((Run.of Site.registry "" tree.plan Site.empty).offers "").length := by
  obtain ⟨-, hstate⟩ := Site.fst_ofTree_eq_ok_iff.1 hsite
  have hholds := (Site.answered_run "" tree.plan Site.empty).holds Site.holds_empty
  have htaken : Offer.taken ((Run.of Site.registry "" tree.plan Site.empty).offers "") =
      ((Run.of Site.registry "" tree.plan Site.empty).offers "").map
        fun offer => (offer.path, offer.endpoint) := by
    rw [Offer.taken, ← List.filterMap_eq_map]
    apply List.filterMap_congr
    intro offer hoffer
    rw [Run.offers, (passed_of_ofTree hsite).1, List.append_nil] at hoffer
    rw [Run.answer_of_mem_filterMap hoffer]
    rfl
  rw [← hstate, Site.state_mount, hholds.size, List.nil_append, htaken, List.length_map]

/-- On the way to a site a slash is dropped for each node right below the `/` of the top level. -/
theorem filterMap_dropped?_ofTree (hsite : (Site.ofTree tree).1 = .ok site) :
    (Site.ofTree tree).2.filterMap Event.dropped? =
      (tree.nodes.filter fun node => node.above = ["/"]).map Node.segment := by
  have hlevel : (levelEvents "" tree).filterMap Event.dropped? = [] := by
    rw [levelEvents]
    split_ifs <;> rfl
  have hchecked : (Run.of Site.registry "" tree.plan Site.empty).checked =
      tree.plan.filterMap Step.checked? := by
    rw [Run.checked, (passed_of_ofTree hsite).2]
  rw [events_ofTree hsite, Site.mount, events_mount, List.filterMap_append,
    List.filterMap_append, hlevel, filterMap_report_performed (fun _ _ => rfl) (fun _ _ => rfl)
      (filterMap_dropped?_checkEvents ""), hchecked, ← filter_above_checked,
    ← List.filterMap_eq_filter, List.map_filterMap]
  simp only [List.nil_append, List.filterMap_cons, Event.dropped?, List.filterMap_nil,
    List.append_nil]
  apply List.filterMap_congr
  intro node hnode
  have hbase := baseFrom_empty_eq_slash_iff hsite (mem_nodes_of_mem_checked hnode)
  by_cases habove : node.above = ["/"] <;> simp [hbase, habove, Option.guard]

end

/-- The report of a mounting is true, whether or not it succeeds.  It tells each call that was made,
with the methods in the order of their bytes; each level that was entered, with the path of the
node above it; and each segment that passed its check under a base of less than two bytes, as one
for which a slash is dropped exactly if the base is `/`.  On the way to a site a slash is dropped
just for the nodes right below the `/` of the top level, and the count that ends the report is that
of the calls. -/
theorem mount_reports (tree : SegmentTree) :
    (∀ {σ : Type} (registry : Registry σ) (base : String) (state : σ),
      let events := ((tree.mount registry base).outcome state).2.events
      let offers := ((tree.mount registry.recorded base).outcome (state, [])).2.state.2
      let checked := (Run.of registry base tree.plan state).checked
      events.filterMap Event.offered? =
          offers.map (fun offer => (offer.path, offer.endpoint.methods)) ∧
        (∀ offer ∈ offers, offer.endpoint.methods.Pairwise
          fun method other => Text.bytes method < Text.bytes other) ∧
        events.filterMap Event.entered? =
          (if tree.isEmpty then [] else [base]) ++ checked.filterMap (fun node =>
            if (subtree node.group.children).isEmpty then none else some (node.pathFrom base)) ∧
        events.filterMap Event.rooted? = checked.filterMap fun node =>
          if (node.baseFrom base).utf8ByteSize < 2 then
            some (node.segment, decide (node.baseFrom base = "/"))
          else none) ∧
    ∀ site, (Site.ofTree tree).1 = .ok site →
      (Site.ofTree tree).2.filterMap Event.dropped? =
          (tree.nodes.filter fun node => node.above = ["/"]).map Node.segment ∧
        (Site.ofTree tree).2 = (Site.empty.mount "" tree).2.events ++
          [.treeMounted ((Site.empty.mount "" tree).2.events.filterMap Event.offered?).length] := by
  have hlevel (base : String) : (levelEvents base tree).filterMap Event.offered? = [] ∧
      (levelEvents base tree).filterMap Event.entered? =
        (if tree.isEmpty then [] else [base]) ∧
      (levelEvents base tree).filterMap Event.rooted? = [] := by
    rw [levelEvents]
    split_ifs <;> exact ⟨rfl, rfl, rfl⟩
  refine ⟨fun registry base state => ?_, fun site hsite => ⟨filterMap_dropped?_ofTree hsite, ?_⟩⟩
  · obtain ⟨hoffered, hentered, hrooted⟩ := hlevel base
    dsimp only
    rw [record_mount, events_mount, List.filterMap_append, List.filterMap_append,
      List.filterMap_append, hoffered, hentered, hrooted, List.nil_append, List.nil_append,
      filterMap_report_performed (fun _ _ => rfl) (fun _ _ => rfl)
        (filterMap_entered?_checkEvents base),
      filterMap_report_performed (fun _ _ => rfl) (fun _ _ => rfl)
        (filterMap_rooted?_checkEvents base)]
    exact ⟨filterMap_offered?_performed base _, fun offer => pairwise_methods_of_mem_offers, rfl,
      rfl⟩
  · rw [events_ofTree hsite, size_of_ofTree hsite, Site.mount, events_mount,
      List.filterMap_append, (hlevel "").1, List.nil_append, filterMap_offered?_performed,
      List.length_map]

/-- A tree with a `/` at the top and nodes on two levels below it. -/
def porch : SegmentTree :=
  .node "/" [⟨"GET", 200, [], none⟩]
    (some (.node "/a" [] (some (.node "/b" [] none .nil)) (.node "/c" [] none .nil))) .nil

theorem mount_reports_porch :
    ∃ site, (Site.ofTree porch).1 = .ok site ∧
      (Site.ofTree porch).2.filterMap Event.dropped? = ["/a", "/c"] ∧
      (Site.ofTree porch).2.getLast? = some (.treeMounted 4) := by
  obtain ⟨site, hsite⟩ := Site.exists_site_of_toBool porch (by rfl)
  obtain ⟨hdropped, hevents⟩ := (mount_reports porch).2 site hsite
  refine ⟨site, hsite, ?_, ?_⟩
  · rw [hdropped]
    simp [porch, subtree, Node.under]
  · rw [hevents, List.getLast?_concat]
    rfl

end SegmentTree

end MockHttp
