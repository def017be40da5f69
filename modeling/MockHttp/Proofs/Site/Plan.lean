import MockHttp.Proofs.Site.Nodes
/-!
# The plan of a mounting

The walk over a tree, written out flat: each node is checked, then comes what is below it, then its
endpoint is built and offered.  A mounting is one run of this plan from left to right that ends at
the first step that fails, whatever the registry answers.
-/

namespace MockHttp.SegmentTree

variable {σ : Type}

/-! ## Steps -/

/-- The endpoint of a node mounted under a base, if its handlers make one. -/
def Node.endpoint (base : String) (node : Node) : Except MountFailure Endpoint :=
  (Endpoint.ofHandlers (node.pathFrom base) node.group.handlers).1

/-- What is done for a node: its segment is checked, its endpoint is built, and the registry is
called with it. -/
inductive Step where
  | check (node : Node)
  | build (node : Node)
  | call (node : Node)

namespace Step

/-- The same step, seen from above a segment that leads to its tree. -/
def under (segment : String) : Step → Step
  | check n => check (n.under segment)
  | build n => build (n.under segment)
  | call n => call (n.under segment)

/-- The node that a step is for. -/
def node : Step → Node
  | check n | build n | call n => n

/-- The node that a step checks. -/
def checked? : Step → Option Node
  | check n => some n
  | _ => none

/-- The node that a step calls the registry for. -/
def called? : Step → Option Node
  | call n => some n
  | _ => none

theorem called?_call (node : Node) : (call node).called? = some node := rfl

/-- The answer of a step, and the state of the registry behind it. -/
def perform (registry : Registry σ) (base : String) (state : σ) :
    Step → Except MountFailure Unit × σ
  | check n =>
      if SlashEnded n.segment then (.error (.returned (.trailingSlash n.segment)), state)
      else if SlashLed n.segment then (.ok (), state)
      else (.error (.returned (.noLeadingSlash n.segment)), state)
  | build n => ((n.endpoint base).map fun _ => (), state)
  | call n =>
      match n.endpoint base with
      | .ok endpoint => registry.offer (n.pathFrom base) endpoint state
      | .error error => (.error error, state)

/-- The events of a step. -/
def report (base : String) : Step → List Event
  | check n =>
      if WellFormed n.segment then
        rootEvents (n.above.foldl pathUnder base) n.segment ++
          levelEvents (n.pathFrom base) (subtree n.group.children)
      else []
  | build n => (Endpoint.ofHandlers (n.pathFrom base) n.group.handlers).2
  | call n =>
      match n.endpoint base with
      | .ok endpoint => [.pathOffered (n.pathFrom base) endpoint.methods]
      | .error _ => []

theorem node_under (segment : String) (step : Step) :
    (step.under segment).node = step.node.under segment := by
  cases step <;> rfl

theorem perform_check (registry : Registry σ) (base : String) (state : σ) (node : Node) :
    (check node).perform registry base state = (checkSegment node.segment, state) := by
  rw [perform, checkSegment_eq]
  split
  · rfl
  · split <;> rfl

theorem perform_under (registry : Registry σ) (base segment : String) (state : σ) (step : Step) :
    (step.under segment).perform registry base state =
      step.perform registry (pathUnder base segment) state := by
  cases step <;> rfl

theorem report_under (base segment : String) (step : Step) :
    (step.under segment).report base = step.report (pathUnder base segment) := by
  cases step <;> rfl

end Step

/-- The steps for a tree, siblings in their order and what is below a node within its own steps. -/
def plan : SegmentTree → List Step
  | .nil => []
  | .node segment handlers children siblings =>
      .check ⟨[], segment, ⟨handlers, children⟩⟩ ::
        ((match children with
          | none => []
          | some children => children.plan.map (Step.under segment)) ++
          (.build ⟨[], segment, ⟨handlers, children⟩⟩ ::
            .call ⟨[], segment, ⟨handlers, children⟩⟩ :: siblings.plan))

theorem plan_node (segment : String) (handlers : List Handler) (children : Option SegmentTree)
    (siblings : SegmentTree) :
    (node segment handlers children siblings).plan =
      .check ⟨[], segment, ⟨handlers, children⟩⟩ ::
        ((subtree children).plan.map (Step.under segment) ++
          (.build ⟨[], segment, ⟨handlers, children⟩⟩ ::
            .call ⟨[], segment, ⟨handlers, children⟩⟩ :: siblings.plan)) := by
  cases children <;> rfl

theorem mem_plan_iff {tree : SegmentTree} {step : Step} :
    step ∈ tree.plan ↔ step.node ∈ tree.nodes := by
  induction tree using induction_subtree generalizing step with
  | nil => simp [plan]
  | node segment handlers children siblings ihc ihs =>
      have hmap : step ∈ (subtree children).plan.map (Step.under segment) ↔
          step.node ∈ (subtree children).nodes.map (Node.under segment) := by
        rw [List.mem_map, List.mem_map]
        constructor
        · rintro ⟨inner, hinner, rfl⟩
          exact ⟨inner.node, ihc.1 hinner, (inner.node_under segment).symm⟩
        · rintro ⟨n, hn, heq⟩
          cases step with
          | check _ => exact ⟨.check n, ihc.2 hn, congrArg Step.check heq⟩
          | build _ => exact ⟨.build n, ihc.2 hn, congrArg Step.build heq⟩
          | call _ => exact ⟨.call n, ihc.2 hn, congrArg Step.call heq⟩
      rw [plan_node, nodes_node, List.mem_cons, List.mem_append, hmap, List.mem_cons,
        List.mem_cons, ihs, List.mem_append, List.mem_cons]
      cases step <;> simp [Step.node, or_left_comm]

/-- The registry is to be called for each node once, in the order of the nodes. -/
theorem filterMap_called?_plan (tree : SegmentTree) :
    tree.plan.filterMap Step.called? = tree.nodes := by
  have hunder (segment : String) :
      Step.called? ∘ Step.under segment = fun step => step.called?.map (Node.under segment) := by
    funext step
    cases step <;> rfl
  induction tree using induction_subtree with
  | nil => rfl
  | node segment handlers children siblings ihc ihs =>
      rw [plan_node, nodes_node, List.filterMap_cons_none rfl, List.filterMap_append,
        List.filterMap_map, hunder, ← List.map_filterMap, ihc, List.filterMap_cons_none rfl,
        List.filterMap_cons_some (Step.called?_call _), ihs]

/-! ## Runs -/

/-- How a run of steps went: the steps that passed, the one that failed with its error, if any, and
the state of the registry in the end. -/
structure Run (σ : Type) where
  passed : List Step
  failed : Option (Step × MountFailure)
  state : σ

namespace Run

/-- The run of steps from left to right, up to the first that fails. -/
def of (registry : Registry σ) (base : String) : List Step → σ → Run σ
  | [], state => ⟨[], none, state⟩
  | step :: steps, state =>
      match step.perform registry base state with
      | (.error error, state) => ⟨[], some (step, error), state⟩
      | (.ok (), state) =>
          let rest := of registry base steps state
          ⟨step :: rest.passed, rest.failed, rest.state⟩

/-- The outcome of a run is the error of the step that failed. -/
def result (run : Run σ) : Except MountFailure Unit :=
  match run.failed with
  | none => .ok ()
  | some (_, error) => .error error

/-- The steps that a run came to. -/
def performed (run : Run σ) : List Step :=
  run.passed ++ (run.failed.map Prod.fst).toList

/-- The outcome of a mounting that went like a run, with what was reported. -/
def outcome (base : String) (events : List Event) (run : Run σ) :
    Except MountFailure Unit × Progress σ :=
  (run.result, ⟨run.state, events ++ run.performed.flatMap (Step.report base)⟩)

/-- A run passes a beginning of its steps: all of them, or those in front of the one that fails. -/
theorem of_split (registry : Registry σ) (base : String) (steps : List Step) (state : σ) :
    ((of registry base steps state).failed = none ∧
        (of registry base steps state).passed = steps) ∨
      ∃ step error rest, (of registry base steps state).failed = some (step, error) ∧
        steps = (of registry base steps state).passed ++ step :: rest := by
  induction steps generalizing state with
  | nil => exact .inl ⟨rfl, rfl⟩
  | cons step steps ih =>
      rw [of]
      rcases step.perform registry base state with ⟨error | _, state⟩
      · exact .inr ⟨step, error, steps, rfl, rfl⟩
      · rcases ih state with ⟨hfailed, hpassed⟩ | ⟨last, error, rest, hfailed, hsteps⟩
        · exact .inl ⟨hfailed, congrArg (step :: ·) hpassed⟩
        · exact .inr ⟨last, error, rest, hfailed, congrArg (step :: ·) hsteps⟩

theorem isPrefix_passed (registry : Registry σ) (base : String) (steps : List Step) (state : σ) :
    (of registry base steps state).passed <+: steps := by
  rcases of_split registry base steps state with ⟨-, hpassed⟩ | ⟨step, -, rest, -, hsteps⟩
  · exact hpassed.symm ▸ List.prefix_rfl
  · exact ⟨step :: rest, hsteps.symm⟩

theorem of_result_eq_ok {registry : Registry σ} {base : String} {steps : List Step} {state : σ}
    (hresult : (of registry base steps state).result = .ok ()) :
    (of registry base steps state).failed = none ∧
      (of registry base steps state).passed = steps := by
  rcases of_split registry base steps state with hall | ⟨step, error, rest, hfailed, -⟩
  · exact hall
  · rw [result, hfailed] at hresult
    cases hresult

theorem of_result_eq_error {registry : Registry σ} {base : String} {steps : List Step} {state : σ}
    {error : MountFailure} (hresult : (of registry base steps state).result = .error error) :
    ∃ step rest, (of registry base steps state).failed = some (step, error) ∧
      steps = (of registry base steps state).passed ++ step :: rest := by
  rcases of_split registry base steps state with ⟨hnone, -⟩ | ⟨step, own, rest, hfailed, hsplit⟩
  · rw [result, hnone] at hresult
    cases hresult
  · rw [result, hfailed] at hresult
    obtain rfl := Except.error.inj hresult
    exact ⟨step, rest, hfailed, hsplit⟩

theorem perform_of_mem_passed {registry : Registry σ} {base : String} {steps : List Step}
    {state : σ} {step : Step} (hstep : step ∈ (of registry base steps state).passed) :
    ∃ before, (step.perform registry base before).1 = .ok () := by
  induction steps generalizing state with
  | nil => simp [of] at hstep
  | cons first steps ih =>
      rw [of] at hstep
      cases hperform : first.perform registry base state with
      | mk answer after =>
          rw [hperform] at hstep
          cases answer with
          | error error => simp at hstep
          | ok _ =>
              rcases List.mem_cons.1 hstep with rfl | hstep
              · exact ⟨state, by rw [hperform]⟩
              · exact ih hstep

/-- The step that failed was answered by its error, and the run ended there. -/
theorem perform_of_failed {registry : Registry σ} {base : String} {steps : List Step}
    {state : σ} {step : Step} {error : MountFailure}
    (hfailed : (of registry base steps state).failed = some (step, error)) :
    ∃ before, step.perform registry base before =
      (.error error, (of registry base steps state).state) := by
  induction steps generalizing state with
  | nil => simp [of] at hfailed
  | cons first steps ih =>
      rw [of] at hfailed ⊢
      cases hperform : first.perform registry base state with
      | mk answer after =>
          rw [hperform] at hfailed
          cases answer with
          | error own =>
              simp only [Option.some.injEq, Prod.mk.injEq] at hfailed
              obtain ⟨rfl, rfl⟩ := hfailed
              exact ⟨state, hperform⟩
          | ok _ => exact ih hfailed

/-- The same run, seen from above a segment that leads to its tree. -/
def under (segment : String) (run : Run σ) : Run σ :=
  ⟨run.passed.map (Step.under segment),
    run.failed.map fun failure => (failure.1.under segment, failure.2), run.state⟩

theorem of_map_under (registry : Registry σ) (base segment : String) (steps : List Step)
    (state : σ) :
    of registry base (steps.map (Step.under segment)) state =
      (of registry (pathUnder base segment) steps state).under segment := by
  induction steps generalizing state with
  | nil => rfl
  | cons step steps ih =>
      rw [List.map_cons, of, of, Step.perform_under]
      rcases step.perform registry (pathUnder base segment) state with ⟨_ | _, state⟩
      · rfl
      · dsimp only
        rw [ih]
        rfl

theorem outcome_under (base segment : String) (events : List Event) (run : Run σ) :
    (run.under segment).outcome base events = run.outcome (pathUnder base segment) events := by
  obtain ⟨passed, failed, state⟩ := run
  rcases failed with _ | ⟨step, error⟩ <;>
    simp [under, outcome, result, performed, Step.report_under, List.flatMap_map]

theorem outcome_of_cons (registry : Registry σ) (base : String) (step : Step) (steps : List Step)
    (state : σ) (events : List Event) :
    (of registry base (step :: steps) state).outcome base events =
      match step.perform registry base state with
      | (.error error, state) => (.error error, ⟨state, events ++ step.report base⟩)
      | (.ok (), state) =>
          (of registry base steps state).outcome base (events ++ step.report base) := by
  rw [of]
  rcases step.perform registry base state with ⟨_ | _, state⟩ <;>
    simp [outcome, result, performed]

theorem outcome_of_append (registry : Registry σ) (base : String) (steps rest : List Step)
    (state : σ) (events : List Event) :
    (of registry base (steps ++ rest) state).outcome base events =
      match (of registry base steps state).outcome base events with
      | (.error error, progress) => (.error error, progress)
      | (.ok (), progress) =>
          (of registry base rest progress.state).outcome base progress.events := by
  induction steps generalizing state events with
  | nil => simp [of, outcome, result, performed]
  | cons step steps ih =>
      rw [List.cons_append, outcome_of_cons, outcome_of_cons]
      rcases step.perform registry base state with ⟨_ | _, state⟩
      · rfl
      · exact ih state _

end Run

/-! ## The walk is a run -/

namespace Mounting

theorem run_bind {α β : Type} (first : Mounting σ α) (next : α → Mounting σ β)
    (progress : Progress σ) :
    (first >>= next).run progress =
      match first.run progress with
      | (.ok value, progress) => (next value).run progress
      | (.error error, progress) => (.error error, progress) := by
  change (ExceptT.bindCont next (first.run progress).1) (first.run progress).2 = _
  rcases first.run progress with ⟨_ | _, _⟩ <;> rfl

theorem run_log (event : Event) (progress : Progress σ) :
    (Mounting.log event : Mounting σ Unit).run progress =
      (.ok (), ⟨progress.state, progress.events ++ [event]⟩) := rfl

theorem run_forM_log (events : List Event) (progress : Progress σ) :
    (events.forM Mounting.log : Mounting σ Unit).run progress =
      (.ok (), ⟨progress.state, progress.events ++ events⟩) := by
  induction events generalizing progress with
  | nil => rw [List.append_nil]; rfl
  | cons event events ih =>
      change (Mounting.log event >>= fun _ => events.forM Mounting.log : Mounting σ Unit).run
        progress = _
      rw [run_bind, run_log]
      dsimp only
      rw [ih, List.append_assoc]
      rfl

end Mounting

/-- A mounting goes like the run of some steps, from wherever it starts. -/
def Follows (registry : Registry σ) (base : String) (mounting : Mounting σ Unit)
    (steps : List Step) : Prop :=
  ∀ progress : Progress σ, mounting.run progress =
    (Run.of registry base steps progress.state).outcome base progress.events

theorem Follows.seq {registry : Registry σ} {base : String} {first next : Mounting σ Unit}
    {steps rest : List Step} (hfirst : Follows registry base first steps)
    (hnext : Follows registry base next rest) :
    Follows registry base (first >>= fun _ => next) (steps ++ rest) := by
  intro progress
  rw [Mounting.run_bind, Run.outcome_of_append, hfirst progress]
  rcases (Run.of registry base steps progress.state).outcome base progress.events with
    ⟨_ | _, progress⟩
  · rfl
  · exact hnext progress

theorem run_offer (registry : Registry σ) (path : String) (endpoint : Endpoint)
    (progress : Progress σ) :
    (Mounting.offer registry path endpoint).run progress =
      ((registry.offer path endpoint progress.state).1,
        ⟨(registry.offer path endpoint progress.state).2, progress.events⟩) := by
  rw [Mounting.offer, Mounting.run_bind]
  -- The state can always be read, so the run goes on behind that.
  change (_ : Mounting σ Unit).run progress = _
  rcases registry.offer path endpoint progress.state with ⟨_ | _, state⟩ <;> rfl

/-- Making the endpoint of a node and offering it are its last two steps. -/
theorem follows_mountNode (registry : Registry σ) (base : String) (node : Node) :
    Follows registry base (mountNode registry (node.pathFrom base) node.group.handlers)
      [.build node, .call node] := by
  intro progress
  have hendpoint : node.endpoint base =
      (Endpoint.ofHandlers (node.pathFrom base) node.group.handlers).1 := rfl
  rw [mountNode]
  simp only [Run.outcome_of_cons, Step.perform, Step.report, hendpoint]
  rcases Endpoint.ofHandlers (node.pathFrom base) node.group.handlers with ⟨_ | endpoint, events⟩
  · dsimp only
    rw [Mounting.run_bind, Mounting.run_forM_log]
    rfl
  · dsimp only [Except.map]
    rw [Mounting.run_bind, Mounting.run_forM_log]
    dsimp only
    rw [Mounting.run_bind, Mounting.run_log]
    dsimp only
    rw [run_offer]
    rcases registry.offer (node.pathFrom base) endpoint progress.state with ⟨_ | _, state⟩
    · rfl
    · simp [Run.of, Run.outcome, Run.result, Run.performed]

theorem Follows.under {registry : Registry σ} {base segment : String}
    {mounting : Mounting σ Unit} {steps : List Step}
    (hfollows : Follows registry (pathUnder base segment) mounting steps) :
    Follows registry base mounting (steps.map (Step.under segment)) := by
  intro progress
  rw [Run.of_map_under, Run.outcome_under, hfollows progress]

theorem run_mountNodes_node (registry : Registry σ) (base segment : String)
    (handlers : List Handler) (children : Option SegmentTree) (siblings : SegmentTree)
    (progress : Progress σ) :
    (mountNodes registry base (.node segment handlers children siblings)).run progress =
      match checkSegment segment with
      | .error error => (.error error, progress)
      | .ok () =>
          ((subtree children).mountNodes registry (pathUnder base segment) >>= fun _ =>
            mountNode registry (pathUnder base segment) handlers >>= fun _ =>
              siblings.mountNodes registry base).run
            ⟨progress.state, progress.events ++ (rootEvents base segment ++
              levelEvents (pathUnder base segment) (subtree children))⟩ := by
  rw [mountNodes]
  rcases checkSegment segment with error | ⟨⟨⟩⟩
  · rfl
  · cases children with
    | none =>
        simp only [Mounting.run_bind, Mounting.run_forM_log, subtree, Option.getD_none,
          levelEvents, isEmpty, if_true, List.append_nil, mountNodes]
        rfl
    | some children =>
        simp only [Mounting.run_bind, Mounting.run_forM_log, subtree, Option.getD_some,
          List.append_assoc]

theorem follows_mountNodes (registry : Registry σ) (base : String) (tree : SegmentTree) :
    Follows registry base (tree.mountNodes registry base) tree.plan := by
  induction tree using induction_subtree generalizing base with
  | nil =>
      intro progress
      simp [mountNodes, plan, Run.of, Run.outcome, Run.result, Run.performed]
      rfl
  | node segment handlers children siblings ihc ihs =>
      let node : Node := ⟨[], segment, ⟨handlers, children⟩⟩
      have hchildren := (ihc (pathUnder base segment)).under
      have hrest := hchildren.seq ((follows_mountNode registry base node).seq (ihs base))
      intro progress
      rw [plan_node, run_mountNodes_node]
      by_cases hwell : WellFormed segment
      · have hcheck : checkSegment segment = .ok () := checkSegment_eq_ok_iff.2 hwell
        simp only [Run.outcome_of_cons, Step.perform_check, Step.report, hcheck, if_pos hwell]
        exact hrest _
      · obtain ⟨error, hcheck⟩ := exists_checkSegment_eq_error hwell
        simp only [Run.outcome_of_cons, Step.perform_check, Step.report, hcheck, if_neg hwell,
          List.append_nil]

/-- A mounting is one run of the plan, behind the report of the top level. -/
theorem outcome_mount (registry : Registry σ) (base : String) (tree : SegmentTree) (state : σ) :
    (tree.mount registry base).outcome state =
      (Run.of registry base tree.plan state).outcome base (levelEvents base tree) := by
  rw [Mounting.outcome, mount, Mounting.run_bind, Mounting.run_forM_log]
  exact follows_mountNodes registry base tree _

end MockHttp.SegmentTree
