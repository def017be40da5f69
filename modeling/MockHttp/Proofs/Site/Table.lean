import MockHttp.Proofs.Keyed
import MockHttp.Proofs.Site.Calls
import MockHttp.Proofs.Site.Endpoints
/-!
# Mounting into a site

A site takes an endpoint at a path that has none, so a mounting succeeds exactly if the nodes are
in order and their paths are new and different, and then each node is found at its path.
-/

namespace MockHttp

namespace Site

open SegmentTree

/-! ## One step -/

theorem endpoint?_put (site : Site) (path p : String) (endpoint : Endpoint) :
    (⟨site.endpoints.insert path endpoint⟩ : Site).endpoint? p =
      if path = p then some endpoint else site.endpoint? p :=
  Keyed.find?_insert path p endpoint site.endpoints

/-- A step that passes whatever was mounted before: the segment is well formed, or the handlers
make an endpoint. -/
def Passable (base : String) : Step → Prop
  | .check n => WellFormed n.segment
  | .build n | .call n => ∃ endpoint, n.endpoint base = .ok endpoint

/-- A site refuses a passable step only if the path of a call is taken, and is then unchanged. -/
theorem perform_of_passable {base : String} {step : Step} (hpassable : Passable base step)
    (site : Site) :
    step.perform registry base site = (.ok (), site) ∧ step.called? = none ∨
      ∃ n endpoint, step = .call n ∧ n.endpoint base = .ok endpoint ∧
        step.perform registry base site = offer (n.pathFrom base) endpoint site := by
  cases step with
  | check n =>
      left
      exact ⟨by rw [Step.perform_check, checkSegment_eq_ok_iff.2 hpassable], rfl⟩
  | build n =>
      left
      obtain ⟨endpoint, hendpoint⟩ := hpassable
      exact ⟨by rw [Step.perform, hendpoint]; rfl, rfl⟩
  | call n =>
      right
      obtain ⟨endpoint, hendpoint⟩ := hpassable
      exact ⟨n, endpoint, rfl, hendpoint, by rw [Step.perform, hendpoint]; rfl⟩

theorem perform_of_not_passable {base : String} {step : Step} (hpassable : ¬ Passable base step)
    (site : Site) : ∃ error, step.perform registry base site = (.error error, site) := by
  cases step with
  | check n =>
      obtain ⟨error, hcheck⟩ := exists_checkSegment_eq_error hpassable
      exact ⟨_, by rw [Step.perform_check, hcheck]⟩
  | build n | call n =>
      rw [Step.perform]
      cases hendpoint : n.endpoint base with
      | ok endpoint => exact absurd ⟨endpoint, hendpoint⟩ hpassable
      | error error => exact ⟨error, rfl⟩

/-! ## A run -/

/-- A site grew by nodes: they were new and different, their endpoints are there, and all else is as
before. -/
structure Grew (base : String) (nodes : List Node) (before after : Site) : Prop where
  fresh : ∀ node ∈ nodes, before.endpoint? (node.pathFrom base) = none
  nodup : (nodes.map (Node.pathFrom base)).Nodup
  added : ∀ node ∈ nodes, ∃ endpoint, node.endpoint base = .ok endpoint ∧
    after.endpoint? (node.pathFrom base) = some endpoint
  kept : ∀ path, path ∉ nodes.map (Node.pathFrom base) →
    after.endpoint? path = before.endpoint? path
  paths : after.paths.Perm (nodes.map (Node.pathFrom base) ++ before.paths)
  sorted : before.paths.Pairwise (· < ·) → after.paths.Pairwise (· < ·)

theorem Grew.refl (base : String) (site : Site) : Grew base [] site site where
  fresh := by simp
  nodup := by simp
  added := by simp
  kept _ _ := rfl
  paths := List.Perm.refl _
  sorted := id

theorem Grew.cons {base : String} {node : Node} {nodes : List Node} {before after : Site}
    {endpoint : Endpoint} (hendpoint : node.endpoint base = .ok endpoint)
    (hfresh : before.endpoint? (node.pathFrom base) = none)
    (hgrew : Grew base nodes ⟨before.endpoints.insert (node.pathFrom base) endpoint⟩ after) :
    Grew base (node :: nodes) before after := by
  have hnew (other : Node) (hother : other ∈ nodes) :
      node.pathFrom base ≠ other.pathFrom base ∧
        before.endpoint? (other.pathFrom base) = none := by
    have h := hgrew.fresh other hother
    rw [endpoint?_put] at h
    split at h
    · cases h
    · rename_i hne
      exact ⟨hne, h⟩
  have hnode : node.pathFrom base ∉ nodes.map (Node.pathFrom base) := by
    intro hmem
    obtain ⟨other, hother, heq⟩ := List.mem_map.1 hmem
    exact (hnew other hother).1 heq.symm
  constructor
  case fresh =>
    rintro other hother
    rcases List.mem_cons.1 hother with rfl | hother
    · exact hfresh
    · exact (hnew other hother).2
  case nodup => exact List.nodup_cons.2 ⟨hnode, hgrew.nodup⟩
  case added =>
    rintro other hother
    rcases List.mem_cons.1 hother with rfl | hother
    · refine ⟨endpoint, hendpoint, ?_⟩
      rw [hgrew.kept _ hnode, endpoint?_put, if_pos rfl]
    · exact hgrew.added other hother
  case kept =>
    intro path hpath
    rw [List.map_cons, List.mem_cons, not_or] at hpath
    rw [hgrew.kept path hpath.2, endpoint?_put, if_neg fun h => hpath.1 h.symm]
  case paths =>
    refine hgrew.paths.trans ?_
    rw [List.map_cons, List.cons_append]
    exact ((Keyed.keys_insert_perm hfresh).append_left _).trans List.perm_middle
  case sorted => exact fun hsorted => hgrew.sorted (Keyed.pairwise_keys_insert hsorted)

/-- A run grows a site by the nodes whose calls passed, however it ends. -/
theorem grew_run (base : String) (steps : List Step) (site : Site) :
    Grew base ((Run.of registry base steps site).passed.filterMap Step.called?) site
      (Run.of registry base steps site).state := by
  induction steps generalizing site with
  | nil => exact Grew.refl base site
  | cons step steps ih =>
      rw [Run.of]
      by_cases hpassable : Passable base step
      · rcases perform_of_passable hpassable site with
          ⟨hperform, hcalled⟩ | ⟨node, endpoint, rfl, hendpoint, hperform⟩
        · rw [hperform]
          dsimp only
          rw [List.filterMap_cons_none hcalled]
          exact ih site
        · rw [hperform, offer]
          split_ifs with htaken
          · exact Grew.refl base site
          · dsimp only
            rw [List.filterMap_cons_some (Step.called?_call node)]
            exact (ih _).cons hendpoint (by simpa using htaken)
      · obtain ⟨error, hperform⟩ := perform_of_not_passable hpassable site
        rw [hperform]
        exact Grew.refl base site

/-- Why a step fails that is taken into a site: its segment is not well formed, its handlers make no
endpoint, or its path is taken. -/
inductive Cause (base : String) (site : Site) : Step → MountFailure → Prop
  | segment {node : Node} {error : MountError} (hsegment : ¬ WellFormed node.segment) :
      Cause base site (.check node) (.returned error)
  | build {node : Node} {failure : MountFailure} (hnode : node.endpoint base = .error failure) :
      Cause base site (.build node) failure
  | call {node : Node} {failure : MountFailure} (hnode : node.endpoint base = .error failure) :
      Cause base site (.call node) failure
  | taken {node : Node} (htaken : site.endpoint? (node.pathFrom base) ≠ none) :
      Cause base site (.call node) (.returned (.pathTaken (node.pathFrom base)))

theorem cause_of_failed {base : String} {steps : List Step} {site : Site} {step : Step}
    {failure : MountFailure}
    (hfailed : (Run.of registry base steps site).failed = some (step, failure)) :
    Cause base (Run.of registry base steps site).state step failure := by
  obtain ⟨before, hperform⟩ := Run.perform_of_failed hfailed
  generalize (Run.of registry base steps site).state = after at hperform ⊢
  cases step with
  | check n =>
      rw [Step.perform_check] at hperform
      have hcheck := congrArg Prod.fst hperform
      have hsegment : ¬ WellFormed n.segment := fun hsegment => by
        rw [checkSegment_eq_ok_iff.2 hsegment] at hcheck
        cases hcheck
      obtain ⟨error, herror⟩ := exists_checkSegment_eq_error hsegment
      rw [herror] at hcheck
      obtain rfl := Except.error.inj hcheck
      exact .segment hsegment
  | build n =>
      rw [Step.perform] at hperform
      cases hnode : n.endpoint base with
      | ok endpoint => rw [hnode] at hperform; cases hperform
      | error own => rw [hnode] at hperform; cases hperform; exact .build hnode
  | call n =>
      rw [Step.perform] at hperform
      cases hnode : n.endpoint base with
      | error own => rw [hnode] at hperform; cases hperform; exact .call hnode
      | ok endpoint =>
          rw [hnode] at hperform
          change offer (n.pathFrom base) endpoint before = _ at hperform
          rw [offer] at hperform
          split_ifs at hperform with htaken
          · cases hperform
            exact .taken (by simpa [Option.isSome_iff_ne_none] using htaken)
          · cases hperform

/-- The path of a call that failed is free if it is new, and is that of no other call: no step that
passed can have taken it. -/
theorem endpoint?_of_failed {base : String} {steps : List Step} {site : Site} {node : Node}
    {failure : MountFailure}
    (hfailed : (Run.of registry base steps site).failed = some (.call node, failure))
    (hnodup : ((steps.filterMap Step.called?).map (Node.pathFrom base)).Nodup)
    (hfresh : ∀ node ∈ steps.filterMap Step.called?, site.endpoint? (node.pathFrom base) = none) :
    (Run.of registry base steps site).state.endpoint? (node.pathFrom base) = none := by
  rcases Run.of_split registry base steps site with
    ⟨hnone, -⟩ | ⟨step, error, rest, hsome, hsplit⟩
  · rw [hfailed] at hnone
    cases hnone
  · rw [hfailed] at hsome
    obtain ⟨rfl, rfl⟩ := Prod.mk.inj (Option.some.inj hsome)
    have hcalls : steps.filterMap Step.called? =
        (Run.of registry base steps site).passed.filterMap Step.called? ++
          node :: rest.filterMap Step.called? := by
      conv_lhs => rw [hsplit]
      rw [List.filterMap_append, List.filterMap_cons_some (Step.called?_call node)]
    rw [hcalls] at hnodup hfresh
    rw [List.map_append, List.map_cons, List.nodup_middle] at hnodup
    have hkept := (grew_run base steps site).kept (node.pathFrom base) fun hmem =>
      (List.nodup_cons.1 hnodup).1 (List.mem_append_left _ hmem)
    exact hkept.trans (hfresh node (by simp))

/-- A run into a site passes exactly if each step is passable and the paths of the calls are
different from each other and from those that are taken. -/
theorem failed_run_eq_none_iff {base : String} {steps : List Step} {site : Site} :
    (Run.of registry base steps site).failed = none ↔
      (∀ step ∈ steps, Passable base step) ∧
        ((steps.filterMap Step.called?).map (Node.pathFrom base)).Nodup ∧
          ∀ node ∈ steps.filterMap Step.called?,
            site.endpoint? (node.pathFrom base) = none := by
  have hgrew := grew_run base steps site
  rcases Run.of_split registry base steps site with
    ⟨hnone, hpassed⟩ | ⟨step, error, rest, hfailed, hsplit⟩
  · rw [hpassed] at hgrew
    refine ⟨fun _ => ⟨?_, hgrew.nodup, hgrew.fresh⟩, fun _ => hnone⟩
    intro step hstep
    rw [← hpassed] at hstep
    obtain ⟨before, hperform⟩ := Run.perform_of_mem_passed hstep
    by_contra hnot
    obtain ⟨error, herror⟩ := perform_of_not_passable hnot before
    rw [herror] at hperform
    cases hperform
  · rw [hfailed]
    constructor
    · intro h; cases h
    · rintro ⟨hpassable, hnodup, hfresh⟩
      exfalso
      have hown : Passable base step := hpassable step (by rw [hsplit]; simp)
      cases cause_of_failed hfailed with
      | segment hsegment => exact hsegment hown
      | build hnode | call hnode =>
          obtain ⟨endpoint, hendpoint⟩ := hown
          rw [hnode] at hendpoint
          cases hendpoint
      | taken htaken => exact htaken (endpoint?_of_failed hfailed hnodup hfresh)

/-! ## A tree -/

theorem exists_endpoint_iff {base : String} {node : Node} :
    (∃ endpoint, node.endpoint base = .ok endpoint) ↔
      ∀ handler ∈ node.group.handlers, handler.Servable :=
  Endpoint.exists_addHandlers_eq_ok_iff

theorem fst_mount (site : Site) (base : String) (tree : SegmentTree) :
    (site.mount base tree).1 = (Run.of registry base tree.plan site).result :=
  congrArg Prod.fst (outcome_mount registry base tree site)

theorem state_mount (site : Site) (base : String) (tree : SegmentTree) :
    (site.mount base tree).2.state = (Run.of registry base tree.plan site).state :=
  congrArg (fun outcome => outcome.2.state) (outcome_mount registry base tree site)

theorem forall_passable_iff {base : String} {tree : SegmentTree} :
    (∀ step ∈ tree.plan, Passable base step) ↔
      (∀ node ∈ tree.nodes, WellFormed node.segment) ∧
        ∀ node ∈ tree.nodes, ∀ handler ∈ node.group.handlers, handler.Servable := by
  constructor
  · intro hpassable
    exact ⟨fun node hnode => hpassable (.check node) (mem_plan_iff.2 hnode),
      fun node hnode => exists_endpoint_iff.1 (hpassable (.build node) (mem_plan_iff.2 hnode))⟩
  · rintro ⟨hsegments, hhandlers⟩ step hstep
    have hnode : step.node ∈ tree.nodes := mem_plan_iff.1 hstep
    cases step with
    | check n => exact hsegments n hnode
    | build n | call n => exact exists_endpoint_iff.2 (hhandlers n hnode)

/-- When a tree can be mounted under a base into a site. -/
theorem mount_eq_ok_iff {site : Site} {base : String} {tree : SegmentTree} :
    (site.mount base tree).1 = .ok () ↔
      (∀ node ∈ tree.nodes, WellFormed node.segment) ∧
        (∀ node ∈ tree.nodes, ∀ handler ∈ node.group.handlers, handler.Servable) ∧
          (tree.nodes.map (Node.pathFrom base)).Nodup ∧
            ∀ node ∈ tree.nodes, site.endpoint? (node.pathFrom base) = none := by
  have hresult : (Run.of registry base tree.plan site).result = .ok () ↔
      (Run.of registry base tree.plan site).failed = none := by
    rw [Run.result]
    cases (Run.of registry base tree.plan site).failed <;> simp
  rw [fst_mount, hresult, failed_run_eq_none_iff, forall_passable_iff, filterMap_called?_plan,
    and_assoc]

theorem grew_mount {site : Site} {base : String} {tree : SegmentTree}
    (hmount : (site.mount base tree).1 = .ok ()) :
    Grew base tree.nodes site (site.mount base tree).2.state := by
  have hgrew := grew_run base tree.plan site
  rw [fst_mount] at hmount
  rw [(Run.of_result_eq_ok hmount).2, filterMap_called?_plan] at hgrew
  rw [state_mount]
  exact hgrew

theorem fst_ofTree_eq_ok_iff {tree : SegmentTree} {site : Site} :
    (ofTree tree).1 = .ok site ↔
      (empty.mount "" tree).1 = .ok () ∧ (empty.mount "" tree).2.state = site := by
  rw [ofTree]
  rcases empty.mount "" tree with ⟨error | ⟨⟨⟩⟩, progress⟩ <;> simp

/-- Under the empty base the nodes of well-formed segments come to be at their absolute paths. -/
theorem pathFrom_empty_of_wellFormed {tree : SegmentTree}
    (hsegments : ∀ node ∈ tree.nodes, WellFormed node.segment) {node : Node}
    (hnode : node ∈ tree.nodes) : node.pathFrom "" = node.path := by
  apply Node.pathFrom_empty
  intro segment hsegment
  obtain ⟨other, hother, rfl⟩ := exists_node_of_mem_above hnode hsegment
  exact (hsegments other hother).1

theorem mount_empty_eq_ok_iff {tree : SegmentTree} :
    (empty.mount "" tree).1 = .ok () ↔
      (∀ node ∈ tree.nodes, WellFormed node.segment) ∧
        (∀ node ∈ tree.nodes, ∀ handler ∈ node.group.handlers, handler.Servable) ∧
          (tree.nodes.map Node.path).Nodup := by
  rw [mount_eq_ok_iff]
  refine and_congr_right fun hsegments => and_congr_right fun _ => ?_
  rw [List.map_congr_left fun node hnode => pathFrom_empty_of_wellFormed hsegments hnode]
  exact and_iff_left fun _ _ => rfl

end Site

end MockHttp
