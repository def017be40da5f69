import MockHttp.Proofs.Site.Plan
import MockHttp.Proofs.Text.ByteOrder
/-!
# The calls of a mounting

Which calls reach a registry, in which order, and where they end.  A registry that keeps a record
of its calls shows what a mounting does to it: the record is read off the run of the plan.
-/

namespace MockHttp

/-- A call of a registry: the path and the endpoint that were offered, and the answer. -/
structure Offer where
  path : String
  endpoint : Endpoint
  answer : Except MountFailure Unit

/-- The same registry, which also records each call. -/
def Registry.recorded {σ : Type} (registry : Registry σ) : Registry (σ × List Offer) where
  offer path endpoint state :=
    ((registry.offer path endpoint state.1).1,
      (registry.offer path endpoint state.1).2,
      state.2 ++ [⟨path, endpoint, (registry.offer path endpoint state.1).1⟩])

namespace SegmentTree

variable {σ : Type}

/-! ## Records of runs -/

/-- The call that a step makes, once its answer is known. -/
def Step.offer? (base : String) (answer : Except MountFailure Unit) : Step → Option Offer
  | call n => (n.endpoint base).toOption.map fun endpoint => ⟨n.pathFrom base, endpoint, answer⟩
  | _ => none

/-- The node of the call that a step makes. -/
def Step.caller? (base : String) : Step → Option Node
  | call n => (n.endpoint base).toOption.map fun _ => n
  | _ => none

theorem Step.eq_call_of_caller? {base : String} {step : Step} {node : Node}
    (hcaller : step.caller? base = some node) : step = .call node := by
  cases step with
  | check n | build n => cases hcaller
  | call n =>
      rw [caller?, Option.map_eq_some_iff] at hcaller
      obtain ⟨endpoint, -, rfl⟩ := hcaller
      rfl

/-- A step that is answered well makes its call, if it is to make one. -/
theorem Step.caller?_of_perform {registry : Registry σ} {base : String} {state : σ} {step : Step}
    (hperform : (step.perform registry base state).1 = .ok ()) :
    step.caller? base = step.called? := by
  cases step with
  | check n | build n => rfl
  | call n =>
      rw [perform] at hperform
      cases hendpoint : n.endpoint base with
      | error error => simp [hendpoint] at hperform
      | ok endpoint => simp [caller?, called?, hendpoint, Except.toOption]

theorem Step.perform_recorded (registry : Registry σ) (base : String) (state : σ)
    (offers : List Offer) (step : Step) :
    step.perform registry.recorded base (state, offers) =
      ((step.perform registry base state).1, (step.perform registry base state).2,
        offers ++ (step.offer? base (step.perform registry base state).1).toList) := by
  cases step with
  | check n =>
      simp only [perform, offer?]
      split
      · simp
      · split <;> simp
  | build n => simp [perform, offer?]
  | call n =>
      simp only [perform, offer?]
      cases n.endpoint base <;> simp [Registry.recorded, Except.toOption]

namespace Run

/-- The calls of a run: those of the steps that passed, and that of the step that failed. -/
def offers (base : String) (run : Run σ) : List Offer :=
  run.passed.filterMap (Step.offer? base (.ok ())) ++
    match run.failed with
    | none => []
    | some (step, error) => (step.offer? base (.error error)).toList

/-- The nodes that the calls of a run were made for. -/
def callers (base : String) (run : Run σ) : List Node :=
  run.performed.filterMap (Step.caller? base)

theorem of_recorded (registry : Registry σ) (base : String) (steps : List Step) (state : σ)
    (offers : List Offer) :
    of registry.recorded base steps (state, offers) =
      ⟨(of registry base steps state).passed, (of registry base steps state).failed,
        (of registry base steps state).state,
        offers ++ (of registry base steps state).offers base⟩ := by
  induction steps generalizing state offers with
  | nil => simp [of, Run.offers]
  | cons step steps ih =>
      rw [of, of, Step.perform_recorded]
      rcases step.perform registry base state with ⟨error | _, state⟩
      · simp [Run.offers]
      · dsimp only
        rw [ih]
        cases hoffer : step.offer? base (.ok ()) <;> simp [Run.offers, hoffer]

/-- What a recorded mounting leaves behind is the record of its run. -/
theorem record_outcome_mount (registry : Registry σ) (base : String) (tree : SegmentTree)
    (state : σ) :
    ((tree.mount registry.recorded base).outcome (state, [])).2.state =
      ((of registry base tree.plan state).state,
        (of registry base tree.plan state).offers base) := by
  rw [outcome_mount, of_recorded]
  simp [outcome]

end Run

/-! ## The order of the steps -/

/-- A node is checked before there is a call for it, for a node above it or for one below it. -/
theorem exists_check_before {tree : SegmentTree} (hordered : tree.Ordered) {node : Node}
    (hnode : node ∈ tree.nodes) :
    ∃ before after, tree.plan = before ++ .check node :: after ∧
      ∀ other, .call other ∈ before → ¬ other.InLine node := by
  induction tree using induction_subtree generalizing node with
  | nil => simp at hnode
  | node segment handlers children siblings ihc ihs =>
      obtain ⟨habove, hchildren, hsiblings⟩ := ordered_node.1 hordered
      let own : Node := ⟨[], segment, ⟨handlers, children⟩⟩
      let inner := (subtree children).plan.map (Step.under segment)
      rw [nodes_node, List.mem_append, List.mem_map, List.mem_cons] at hnode
      rw [plan_node]
      -- In front of the check stand only steps for nodes on other ways, and checks of those above.
      rcases hnode with ⟨node, hnode, rfl⟩ | rfl | hnode
      · obtain ⟨before, after, hplan, hbefore⟩ := ihc hchildren hnode
        refine ⟨.check own :: before.map (Step.under segment), after.map (Step.under segment) ++
          .build own :: .call own :: siblings.plan, ?_, ?_⟩
        · rw [hplan]
          simp [Step.under, own]
        · intro other hother
          rw [List.mem_cons, List.mem_map] at hother
          rcases hother with h | ⟨step, hstep, heq⟩
          · cases h
          · cases step with
            | check _ | build _ => cases heq
            | call other =>
                obtain rfl := Step.call.inj heq
                exact fun h => hbefore other hstep (Node.inLine_under.1 h)
      · exact ⟨[], _, rfl, by simp⟩
      · obtain ⟨before, after, hplan, hbefore⟩ := ihs hsiblings hnode
        obtain ⟨first, hfirst, rest, hchain⟩ := exists_chain_eq_cons hnode
        have hne : segment ≠ first := (habove first hfirst).ne
        refine ⟨.check own :: (inner ++ .build own :: .call own :: before), after, ?_, ?_⟩
        · rw [hplan]
          simp [own, inner]
        · intro other hother
          simp only [List.mem_cons, List.mem_append, reduceCtorEq, false_or] at hother
          rcases hother with hother | hother | hother
          · obtain ⟨step, -, heq⟩ := List.mem_map.1 hother
            have hother : other = step.node.under segment := by
              rw [← Step.node_under, heq, Step.node]
            exact Node.not_inLine_of_ne (hother ▸ Node.chain_under segment step.node) hchain hne
          · obtain rfl := Step.call.inj hother
            exact Node.not_inLine_of_ne rfl hchain hne
          · exact hbefore other hother

theorem filterMap_checked?_plan_node (segment : String) (handlers : List Handler)
    (children : Option SegmentTree) (siblings : SegmentTree) :
    (node segment handlers children siblings).plan.filterMap Step.checked? =
      ⟨[], segment, ⟨handlers, children⟩⟩ ::
        (((subtree children).plan.filterMap Step.checked?).map (Node.under segment) ++
          siblings.plan.filterMap Step.checked?) := by
  have hunder :
      Step.checked? ∘ Step.under segment = fun step => step.checked?.map (Node.under segment) := by
    funext step
    cases step <;> rfl
  have hown (n : Node) : (Step.check n).checked? = some n := rfl
  rw [plan_node, List.filterMap_cons_some (hown _), List.filterMap_append, List.filterMap_map,
    hunder, ← List.map_filterMap, List.filterMap_cons_none rfl, List.filterMap_cons_none rfl]

theorem mem_nodes_of_mem_checked {tree : SegmentTree} {node : Node}
    (hnode : node ∈ tree.plan.filterMap Step.checked?) : node ∈ tree.nodes := by
  obtain ⟨step, hstep, hchecked⟩ := List.mem_filterMap.1 hnode
  cases step with
  | check n =>
      obtain rfl := Option.some.inj hchecked
      exact mem_plan_iff.1 hstep
  | build n | call n => cases hchecked

/-- Nodes with one parent are checked in increasing order. -/
theorem pairwise_checked {tree : SegmentTree} (hordered : tree.Ordered) :
    (tree.plan.filterMap Step.checked?).Pairwise fun node other =>
      node.above = other.above → node.segment < other.segment := by
  induction tree using induction_subtree with
  | nil => exact List.Pairwise.nil
  | node segment handlers children siblings ihc ihs =>
      obtain ⟨habove, hchildren, hsiblings⟩ := ordered_node.1 hordered
      rw [filterMap_checked?_plan_node, List.pairwise_cons, List.pairwise_append,
        List.pairwise_map]
      refine ⟨?_, ?_, ihs hsiblings, ?_⟩
      · intro other hother heq
        rcases List.mem_append.1 hother with hother | hother
        · obtain ⟨inner, -, rfl⟩ := List.mem_map.1 hother
          cases heq
        · obtain ⟨first, hfirst, rest, hchain⟩ :=
            exists_chain_eq_cons (mem_nodes_of_mem_checked hother)
          rw [Node.chain, ← heq, List.nil_append] at hchain
          exact (List.cons.inj hchain).1 ▸ habove first hfirst
      · exact (ihc hchildren).imp fun h heq => h (List.cons.inj heq).2
      · intro node hnode other hother heq
        obtain ⟨inner, -, rfl⟩ := List.mem_map.1 hnode
        obtain ⟨first, hfirst, rest, hchain⟩ :=
          exists_chain_eq_cons (mem_nodes_of_mem_checked hother)
        rw [Node.chain, ← heq] at hchain
        exact absurd ((List.cons.inj hchain).1 ▸ habove first hfirst) (lt_irrefl _)

/-! ## Calls along the plan -/

namespace Run

variable {registry : Registry σ} {base : String} {tree : SegmentTree} {state : σ}

theorem map_offers (run : Run σ) :
    (run.offers base).map (fun offer => (offer.path, Except.ok offer.endpoint)) =
      (run.callers base).map fun node => (node.pathFrom base, node.endpoint base) := by
  have hstep (answer : Except MountFailure Unit) (step : Step) :
      (step.offer? base answer).map (fun offer => (offer.path, Except.ok offer.endpoint)) =
        (step.caller? base).map fun node => (node.pathFrom base, node.endpoint base) := by
    cases step with
    | check n | build n => rfl
    | call n =>
        simp only [Step.offer?, Step.caller?]
        cases hendpoint : n.endpoint base <;> simp [Except.toOption, hendpoint]
  obtain ⟨passed, failed, state⟩ := run
  rw [offers, callers, performed, List.filterMap_append, List.map_append, List.map_append,
    List.map_filterMap, List.map_filterMap]
  simp only [hstep]
  congr 1
  rcases failed with _ | ⟨step, error⟩
  · rfl
  · have h := congrArg Option.toList (hstep (.error error) step)
    rw [Option.toList_map, Option.toList_map] at h
    rw [h]
    cases hcaller : step.caller? base <;> simp [hcaller]

/-- The calls of a run come in the order of the plan, and none is left out up to the last. -/
theorem isPrefix_callers :
    (of registry base tree.plan state).callers base <+: tree.plan.filterMap Step.called? := by
  have hpassed : (of registry base tree.plan state).passed.filterMap (Step.caller? base) =
      (of registry base tree.plan state).passed.filterMap Step.called? := by
    apply List.filterMap_congr
    intro step hstep
    obtain ⟨before, hperform⟩ := perform_of_mem_passed hstep
    exact Step.caller?_of_perform hperform
  rw [callers, performed, List.filterMap_append, hpassed]
  rcases of_split registry base tree.plan state with
    ⟨hfailed, hall⟩ | ⟨step, error, rest, hfailed, hsplit⟩
  · rw [hfailed, hall]
    simp
  · rw [hfailed]
    conv_rhs => rw [hsplit, List.filterMap_append, List.filterMap_cons]
    rw [List.prefix_append_right_inj]
    cases step with
    | check n | build n => exact List.nil_prefix
    | call n =>
        cases hendpoint : n.endpoint base <;>
          simp [Step.caller?, Step.called?, hendpoint, Except.toOption]

theorem answer_of_offer? {answer : Except MountFailure Unit} {step : Step} {offer : Offer}
    (hoffer : step.offer? base answer = some offer) : offer.answer = answer := by
  cases step with
  | check n | build n => cases hoffer
  | call n =>
      rw [Step.offer?, Option.map_eq_some_iff] at hoffer
      obtain ⟨endpoint, -, rfl⟩ := hoffer
      rfl

theorem answer_of_mem_filterMap {answer : Except MountFailure Unit} {steps : List Step}
    {offer : Offer} (hoffer : offer ∈ steps.filterMap (Step.offer? base answer)) :
    offer.answer = answer := by
  obtain ⟨step, -, hstep⟩ := List.mem_filterMap.1 hoffer
  exact answer_of_offer? hstep

/-- A refused call is the last one, and the run ends with the refusal. -/
theorem answer_error {run : Run σ} {k : Nat} {offer : Offer} {error : MountFailure}
    (hoffer : (run.offers base)[k]? = some offer) (hanswer : offer.answer = .error error) :
    run.result = .error error ∧ (run.offers base).length = k + 1 ∧
      ∀ earlier ∈ (run.offers base).take k, earlier.answer = .ok () := by
  obtain ⟨passed, failed, state⟩ := run
  have htaken : ∀ earlier ∈ passed.filterMap (Step.offer? base (.ok ())),
      earlier.answer = .ok () :=
    fun earlier hearlier => answer_of_mem_filterMap hearlier
  rw [offers] at hoffer ⊢
  generalize passed.filterMap (Step.offer? base (.ok ())) = taken at hoffer htaken ⊢
  rw [List.getElem?_append] at hoffer
  split at hoffer
  · have hok := htaken offer (List.mem_of_getElem? hoffer)
    rw [hok] at hanswer
    cases hanswer
  · rename_i hk
    rcases failed with _ | ⟨step, own⟩
    · simp at hoffer
    · dsimp only at hoffer ⊢
      cases hlast : step.offer? base (.error own) with
      | none => simp [hlast] at hoffer
      | some last =>
          rw [hlast, Option.toList_some, List.getElem?_singleton] at hoffer
          split at hoffer
          · rename_i hzero
            obtain rfl := Option.some.inj hoffer
            rw [answer_of_offer? hlast] at hanswer
            have hlength : taken.length = k := by omega
            refine ⟨hanswer, by simp [hlength], ?_⟩
            rw [← hlength, List.take_left]
            exact htaken
          · cases hoffer

theorem isPrefix_of_notMem {α : Type} {x : α} {l before after : List α}
    (hstart : l <+: before ++ x :: after) (hx : x ∉ l) : l <+: before := by
  rcases List.prefix_or_prefix_of_prefix hstart (List.prefix_append before _) with h | h
  · exact h
  · obtain ⟨tail, rfl⟩ := h
    cases tail with
    | nil => exact (List.append_nil before).symm ▸ List.prefix_rfl
    | cons first tail =>
        rw [List.prefix_append_right_inj, List.cons_prefix_cons] at hstart
        exact absurd (by simp [hstart.1]) hx

/-- Nothing is called for a node with a bad segment, or for one in line with it. -/
theorem not_inLine_of_mem_callers (hordered : tree.Ordered) {bad : Node}
    (hbad : bad ∈ tree.nodes) (hsegment : ¬ WellFormed bad.segment) {node : Node}
    (hnode : node ∈ (of registry base tree.plan state).callers base) : ¬ node.InLine bad := by
  obtain ⟨before, after, hplan, hbefore⟩ := exists_check_before hordered hbad
  have hcheck : .check bad ∉ (of registry base tree.plan state).passed := by
    intro hmem
    obtain ⟨start, hperform⟩ := perform_of_mem_passed hmem
    rw [Step.perform_check] at hperform
    exact hsegment (checkSegment_eq_ok_iff.1 hperform)
  obtain ⟨step, hstep, hcaller⟩ := List.mem_filterMap.1 hnode
  obtain rfl := Step.eq_call_of_caller? hcaller
  apply hbefore
  rcases List.mem_append.1 hstep with hpassed | hfailed
  · have hstart := isPrefix_passed registry base tree.plan state
    rw [hplan] at hstart hpassed hcheck
    exact (isPrefix_of_notMem hstart hcheck).subset hpassed
  · rcases of_split registry base tree.plan state with
      ⟨hnone, -⟩ | ⟨last, error, rest, hlast, hsplit⟩
    · simp [hnone] at hfailed
    · obtain rfl : .call node = last := by simpa [hlast] using hfailed
      have hstart : (of registry base tree.plan state).passed ++ [.call node] <+:
          before ++ .check bad :: after := by
        rw [← hplan]
        exact ⟨rest, by rw [List.append_assoc, List.singleton_append]; exact hsplit.symm⟩
      have hmem := (isPrefix_of_notMem hstart (by simp [hcheck])).subset
      exact hmem (by simp)

end Run

/-- A mounting goes by the plan of the tree, which takes siblings in byte order: it passes the steps
up to the first that fails, ends with the error of that step and does nothing behind it.  So the
calls it makes are a beginning of those planned, a refused call is the last, and there is none for a
node with a bad segment, for one above it or for one below it. -/
theorem mount_follows_plan (registry : Registry σ) (base : String) {tree : SegmentTree}
    (hordered : tree.Ordered) (state : σ) :
    let run := Run.of registry base tree.plan state
    let offers := ((tree.mount registry.recorded base).outcome (state, [])).2.state.2
    (tree.mount registry base).outcome state =
        (run.result, ⟨run.state,
          levelEvents base tree ++ run.performed.flatMap (Step.report base)⟩) ∧
      (run.result = .ok () ∧ run.passed = tree.plan ∨
        ∃ step error rest, run.result = .error error ∧ run.failed = some (step, error) ∧
          tree.plan = run.passed ++ step :: rest) ∧
      (tree.plan.filterMap Step.checked?).Pairwise (fun node other =>
        node.above = other.above → Text.bytes node.segment < Text.bytes other.segment) ∧
      (∃ callers, callers <+: tree.plan.filterMap Step.called? ∧
        offers.map (fun offer => (offer.path, Except.ok offer.endpoint)) =
          callers.map (fun node => (node.pathFrom base, node.endpoint base)) ∧
        ∀ bad ∈ tree.nodes, ¬ WellFormed bad.segment →
          ∀ node ∈ callers, ¬ node.InLine bad) ∧
      ∀ k offer error, offers[k]? = some offer → offer.answer = .error error →
        run.result = .error error ∧ offers.length = k + 1 ∧
          ∀ earlier ∈ offers.take k, earlier.answer = .ok () := by
  intro run offers
  have hoffers : offers = run.offers base :=
    congrArg Prod.snd (Run.record_outcome_mount registry base tree state)
  rw [hoffers]
  refine ⟨outcome_mount registry base tree state, ?_, ?_, ?_, ?_⟩
  · rcases Run.of_split registry base tree.plan state with
      ⟨hfailed, hpassed⟩ | ⟨step, error, rest, hfailed, hsplit⟩
    · exact .inl ⟨by rw [Run.result, hfailed], hpassed⟩
    · exact .inr ⟨step, error, rest, by rw [Run.result, hfailed], hfailed, hsplit⟩
  · exact (pairwise_checked hordered).imp fun h heq => Text.bytes_lt_bytes_iff.2 (h heq)
  · exact ⟨run.callers base, Run.isPrefix_callers, run.map_offers,
      fun bad hbad hsegment node hnode =>
        Run.not_inLine_of_mem_callers hordered hbad hsegment hnode⟩
  · exact fun k offer error hoffer hanswer => Run.answer_error hoffer hanswer

/-- A tree whose last segment is bad, behind two nodes that are not. -/
def lateDefect : SegmentTree :=
  .node "/a" [] (some (.node "/b" [] none .nil)) (.node "/c/" [] none .nil)

theorem mount_lateDefect :
    lateDefect.Ordered ∧
      ((lateDefect.mount Site.registry "").outcome Site.empty).1 =
        .error (.returned (.trailingSlash "/c/")) ∧
      ((lateDefect.mount Site.registry "").outcome Site.empty).2.state.paths = ["/a", "/a/b"] := by
  have hordered : lateDefect.Ordered := by
    simp only [lateDefect, Ordered, segments, toList, List.map_cons, List.map_nil,
      List.forall_mem_singleton, ← Text.bytes_lt_bytes_iff]
    decide
  obtain ⟨houtcome, -⟩ := mount_follows_plan Site.registry "" hordered Site.empty
  rw [houtcome]
  exact ⟨hordered, by rfl, by rfl⟩

end SegmentTree

end MockHttp
