import MockHttp.Proofs.Site.Table
/-!
# Mounting under another base

Under `/` a tree is mounted as under the empty base.  Under a base of two bytes or more every path
gets the base in front of it, and nothing else changes, unless something stands below the `/` of the
top level: its path keeps the slash that the empty base drops.
-/

namespace MockHttp

/-- The same defect where every path has a base in front of it. -/
def MountError.shifted (base : String) : MountError → MountError
  | .trailingSlash segment => .trailingSlash segment
  | .noLeadingSlash segment => .noLeadingSlash segment
  | .pathTaken path => .pathTaken (base ++ path)
  | .badMethod path method => .badMethod (base ++ path) method
  | .badStatus path method status => .badStatus (base ++ path) method status
  | .badHeader path method name => .badHeader (base ++ path) method name

/-- The same call where every path has a base in front of it. -/
def Offer.shifted (base : String) (offer : Offer) : Offer :=
  ⟨base ++ offer.path, offer.endpoint,
    offer.answer.mapError (Failure.map (MountError.shifted base))⟩

/-! ## Endpoints -/

theorem Handler.resolve_append (base path : String) (handler : Handler) :
    handler.resolve (base ++ path) =
      (handler.resolve path).mapError (Failure.map (MountError.shifted base)) := by
  unfold Handler.resolve Handler.reply
  cases Method.ofText? handler.method with
  | none => rfl
  | some method =>
      cases Status.ofCode? handler.status.toNat with
      | none => rfl
      | some status => rcases Handler.replyHeaders handler.headers with (_ | _) | _ <;> rfl

theorem Endpoint.fst_addHandlers_append (base path : String) (endpoint : Endpoint)
    (handlers : List Handler) :
    (endpoint.addHandlers (base ++ path) handlers).1 =
      (endpoint.addHandlers path handlers).1.mapError (Failure.map (MountError.shifted base)) := by
  induction handlers generalizing endpoint with
  | nil => rfl
  | cons handler handlers ih =>
      have hresolve := handler.resolve_append base path
      cases hpath : handler.resolve path with
      | error error =>
          rw [hpath] at hresolve
          rw [addHandlers_cons_of_error hpath, addHandlers_cons_of_error hresolve]
          rfl
      | ok answer =>
          rw [hpath] at hresolve
          rw [addHandlers_cons_of_ok hpath, addHandlers_cons_of_ok hresolve, ih]

namespace SegmentTree

variable {σ : Type} {base p q : String}

/-! ## The base `/` -/

theorem Node.pathFrom_slash (node : Node) : node.pathFrom "/" = node.pathFrom "" := by
  obtain ⟨above, segment, group⟩ := node
  cases above <;> rfl

theorem Node.endpoint_slash (node : Node) : node.endpoint "/" = node.endpoint "" := by
  rw [endpoint, endpoint, pathFrom_slash]

theorem Run.of_slash (registry : Registry σ) (steps : List Step) (state : σ) :
    Run.of registry "/" steps state = Run.of registry "" steps state := by
  have hperform (step : Step) (state : σ) :
      step.perform registry "/" state = step.perform registry "" state := by
    cases step <;> simp [Step.perform, Node.endpoint_slash, Node.pathFrom_slash]
  induction steps generalizing state with
  | nil => rfl
  | cons step steps ih =>
      rw [of, of, hperform]
      rcases step.perform registry "" state with ⟨_ | _, state⟩
      · rfl
      · dsimp only
        rw [ih]

theorem Run.offers_slash (run : Run σ) : run.offers "/" = run.offers "" := by
  have hoffer : Step.offer? "/" = Step.offer? "" := by
    funext answer step
    cases step <;> simp [Step.offer?, Node.endpoint_slash, Node.pathFrom_slash]
  rw [offers, offers, hoffer]

/-! ## Longer bases -/

/-- Mounted under `q`, a node comes to be at its path under `p` with a base in front. -/
def Node.Shifts (base p q : String) (node : Node) : Prop :=
  node.pathFrom q = base ++ node.pathFrom p

theorem Node.endpoint_shifts {node : Node} (hnode : node.Shifts base p q) :
    node.endpoint q = (node.endpoint p).mapError (Failure.map (MountError.shifted base)) := by
  rw [endpoint, endpoint, hnode]
  exact Endpoint.fst_addHandlers_append base (node.pathFrom p) Endpoint.empty node.group.handlers

/-- The node of each step shifts, as far as no check in front of it fails. -/
def StepsShift (base p q : String) : List Step → Prop
  | [] => True
  | step :: steps =>
      step.node.Shifts base p q ∧
        ((∀ node, step.checked? = some node → WellFormed node.segment) → StepsShift base p q steps)

theorem StepsShift.append {steps rest : List Step} (hsteps : StepsShift base p q steps)
    (hrest : StepsShift base p q rest) : StepsShift base p q (steps ++ rest) := by
  induction steps with
  | nil => exact hrest
  | cons step steps ih => exact ⟨hsteps.1, fun hchecked => ih (hsteps.2 hchecked)⟩

theorem StepsShift.map_under {segment : String} {steps : List Step}
    (hsteps : StepsShift base (pathUnder p segment) (pathUnder q segment) steps) :
    StepsShift base p q (steps.map (Step.under segment)) := by
  induction steps with
  | nil => trivial
  | cons step steps ih =>
      refine ⟨?_, fun hchecked => ih (hsteps.2 fun node hnode => ?_)⟩
      · rw [Step.node_under]
        exact hsteps.1
      · cases step with
        | check n =>
            obtain rfl := Option.some.inj hnode
            exact hchecked (n.under segment) rfl
        | build n | call n => cases hnode

theorem ne_slash_of_two_le {text : String} (htext : 2 ≤ text.utf8ByteSize) : text ≠ "/" := by
  rintro rfl
  exact absurd htext (by decide)

theorem append_eq_slash {base segment : String} (hbase : base ≠ "")
    (heq : base ++ segment = "/") : base = "/" := by
  have hlist := congrArg String.toList heq
  rw [String.toList_append] at hlist
  rcases List.append_eq_singleton_iff.1 hlist with ⟨hnil, -⟩ | ⟨hslash, -⟩
  · exact absurd (String.toList_eq_nil_iff.1 hnil) hbase
  · exact String.toList_inj.1 hslash

/-- A plan shifts with the stem of its base if nothing stands below a path that is `/`. -/
theorem stepsShift_plan {tree : SegmentTree} (hbase : 2 ≤ base.utf8ByteSize)
    (hstem : stem q = base ++ stem p)
    (hroot : ∀ segment group, (segment, group) ∈ tree.toList → pathUnder p segment = "/" →
      subtree group.children = .nil) :
    StepsShift base p q tree.plan := by
  induction tree using induction_subtree generalizing p q with
  | nil => trivial
  | node segment handlers children siblings ihc ihs =>
      have hown : pathUnder q segment = base ++ pathUnder p segment := by
        rw [pathUnder, pathUnder, hstem, String.append_assoc]
      have hsiblings : StepsShift base p q siblings.plan :=
        ihs hstem fun s group hentry => hroot s group (List.mem_cons_of_mem _ hentry)
      rw [plan_node]
      refine ⟨hown, fun hchecked => ?_⟩
      have hled : SlashLed segment := (hchecked _ rfl).1
      have hbelow : StepsShift base (pathUnder p segment) (pathUnder q segment)
          (subtree children).plan := by
        by_cases hslash : pathUnder p segment = "/"
        · rw [hroot segment ⟨handlers, children⟩ List.mem_cons_self hslash]
          trivial
        · -- Below a path other than `/` both stems are whole paths, and no path is `/` again.
          have hne : pathUnder p segment ≠ "" := by
            rw [pathUnder, ne_eq, String.append_eq_empty_iff, not_and]
            exact fun _ => ne_empty_of_slashLed hled
          have hlong : pathUnder q segment ≠ "/" := by
            apply ne_slash_of_two_le
            rw [hown, String.utf8ByteSize_append]
            omega
          have hstems : stem (pathUnder q segment) = base ++ stem (pathUnder p segment) := by
            rw [stem, if_neg hlong, stem, if_neg hslash, hown]
          refine ihc hstems fun s group _ heq => ?_
          rw [pathUnder, stem, if_neg hslash] at heq
          exact absurd (append_eq_slash hne heq) hslash
      exact hbelow.map_under.append ⟨hown, fun _ => ⟨hown, fun _ => hsiblings⟩⟩

/-! ## Two runs in step -/

/-- What a site has at a path, the other one has at the path with a base in front. -/
def SiteShifts (base : String) (site other : Site) : Prop :=
  ∀ path, other.endpoint? (base ++ path) = site.endpoint? path

theorem SiteShifts.offer {site other : Site} (hsites : SiteShifts base site other) (path : String)
    (endpoint : Endpoint) :
    (Site.offer (base ++ path) endpoint other).1 =
        (Site.offer path endpoint site).1.mapError (Failure.map (MountError.shifted base)) ∧
      SiteShifts base (Site.offer path endpoint site).2
        (Site.offer (base ++ path) endpoint other).2 := by
  rw [Site.offer, Site.offer, hsites path]
  split
  · exact ⟨rfl, hsites⟩
  · refine ⟨rfl, fun other => ?_⟩
    rw [Site.endpoint?_put, Site.endpoint?_put, hsites other]
    simp

theorem Step.perform_shifts {site other : Site} (hsites : SiteShifts base site other) {step : Step}
    (hstep : step.node.Shifts base p q) :
    (step.perform Site.registry q other).1 =
        (step.perform Site.registry p site).1.mapError (Failure.map (MountError.shifted base)) ∧
      SiteShifts base (step.perform Site.registry p site).2
        (step.perform Site.registry q other).2 := by
  cases step with
  | check n =>
      rw [perform, perform]
      split
      · exact ⟨rfl, hsites⟩
      · split <;> exact ⟨rfl, hsites⟩
  | build n =>
      have hpath : n.pathFrom q = base ++ n.pathFrom p := hstep
      rw [perform, perform, Node.endpoint_shifts hpath]
      refine ⟨?_, hsites⟩
      cases n.endpoint p <;> rfl
  | call n =>
      have hpath : n.pathFrom q = base ++ n.pathFrom p := hstep
      rw [perform, perform, Node.endpoint_shifts hpath]
      cases n.endpoint p with
      | error error => exact ⟨rfl, hsites⟩
      | ok endpoint =>
          rw [hpath]
          exact hsites.offer (n.pathFrom p) endpoint

namespace Run

/-- Another run passed the same steps and failed at the same one, with the shifted error. -/
structure Matches (base p q : String) (run other : Run Site) : Prop where
  passed : other.passed = run.passed
  failed : other.failed = run.failed.map fun failure =>
    (failure.1, failure.2.map (MountError.shifted base))
  performed : ∀ step ∈ run.performed, step.node.Shifts base p q

theorem matches_of {steps : List Step} (hsteps : StepsShift base p q steps) {site other : Site}
    (hsites : SiteShifts base site other) :
    Matches base p q (of Site.registry p steps site) (of Site.registry q steps other) := by
  induction steps generalizing site other with
  | nil => exact ⟨rfl, rfl, by simp [of, Run.performed]⟩
  | cons step steps ih =>
      obtain ⟨hanswer, hstates⟩ := Step.perform_shifts hsites hsteps.1
      rw [of, of]
      cases hperform : step.perform Site.registry p site with
      | mk answer after =>
          cases hother : step.perform Site.registry q other with
          | mk answer' after' =>
              rw [hperform, hother] at hanswer hstates
              obtain rfl : answer' = answer.mapError (Failure.map (MountError.shifted base)) :=
                hanswer
              cases answer with
              | error error => exact ⟨rfl, rfl, by simpa [Run.performed] using hsteps.1⟩
              | ok _ =>
                  have hchecked (node : Node) (hnode : step.checked? = some node) :
                      WellFormed node.segment := by
                    cases step with
                    | check n =>
                        obtain rfl := Option.some.inj hnode
                        rw [Step.perform_check] at hperform
                        exact checkSegment_eq_ok_iff.1 (congrArg Prod.fst hperform)
                    | build n | call n => cases hnode
                  obtain ⟨hpassed, hfailed, hperformed⟩ := ih (hsteps.2 hchecked) hstates
                  refine ⟨congrArg (step :: ·) hpassed, hfailed, ?_⟩
                  intro later hlater
                  rcases List.mem_cons.1 hlater with rfl | hlater
                  · exact hsteps.1
                  · exact hperformed later hlater

variable {run other : Run Site}

theorem Matches.result (hruns : Matches base p q run other) :
    other.result = run.result.mapError (Failure.map (MountError.shifted base)) := by
  rw [Run.result, Run.result, hruns.failed]
  rcases run.failed with _ | ⟨step, error⟩ <;> rfl

theorem Matches.offers (hruns : Matches base p q run other) :
    other.offers q = (run.offers p).map (Offer.shifted base) := by
  have hoffer {step : Step} (hstep : step ∈ run.performed) (answer : Except MountFailure Unit) :
      step.offer? q (answer.mapError (Failure.map (MountError.shifted base))) =
        (step.offer? p answer).map (Offer.shifted base) := by
    have hshifts := hruns.performed step hstep
    cases step with
    | check n | build n => rfl
    | call n =>
        have hpath : n.pathFrom q = base ++ n.pathFrom p := hshifts
        rw [Step.offer?, Step.offer?, Node.endpoint_shifts hpath, hpath]
        cases n.endpoint p <;> rfl
  have hpassed : run.passed.filterMap (Step.offer? q (.ok ())) =
      (run.passed.filterMap (Step.offer? p (.ok ()))).map (Offer.shifted base) := by
    rw [List.map_filterMap]
    refine List.filterMap_congr fun step hstep => ?_
    exact hoffer (List.mem_append_left _ hstep) (.ok ())
  rw [Run.offers, Run.offers, hruns.passed, hruns.failed, List.map_append, hpassed]
  congr 1
  cases hfailed : run.failed with
  | none => rfl
  | some failure =>
      have hlast : failure.1 ∈ run.performed := by simp [Run.performed, hfailed]
      have h := congrArg Option.toList (hoffer hlast (.error failure.2))
      rw [Option.toList_map] at h
      exact h

end Run

/-- A base only shifts a mounting.  Under `/` the calls and the outcome are those under the empty
base, whatever the registry does.  Into a fresh site, a tree without anything below a top-level `/`
is mounted under a base of two bytes or more by the same calls with the base in front of each path,
and fails, if it does, by the same defect with the base in front of the path. -/
theorem mount_shifted (tree : SegmentTree) :
    (∀ {σ : Type} (registry : Registry σ) (state : σ),
      ((tree.mount registry "/").outcome state).1 = ((tree.mount registry "").outcome state).1 ∧
        ((tree.mount registry.recorded "/").outcome (state, [])).2.state =
          ((tree.mount registry.recorded "").outcome (state, [])).2.state) ∧
    ∀ base : String, 2 ≤ base.utf8ByteSize →
      (∀ group, ("/", group) ∈ tree.toList → subtree group.children = .nil) →
        ((Site.empty.mount base tree).1 = .ok () ↔ (Site.empty.mount "" tree).1 = .ok ()) ∧
          (Site.empty.mount base tree).1 =
            (Site.empty.mount "" tree).1.mapError (Failure.map (MountError.shifted base)) ∧
          ((tree.mount Site.registry.recorded base).outcome (Site.empty, [])).2.state.2 =
            ((tree.mount Site.registry.recorded "").outcome (Site.empty, [])).2.state.2.map
              (Offer.shifted base) := by
  constructor
  · intro σ registry state
    rw [outcome_mount, outcome_mount, Run.record_outcome_mount, Run.record_outcome_mount,
      Run.of_slash, Run.offers_slash]
    exact ⟨rfl, rfl⟩
  · intro base hbase hroot
    have hplan : StepsShift base "" base tree.plan := by
      refine stepsShift_plan hbase ?_ ?_
      · rw [stem, if_neg (ne_slash_of_two_le hbase)]
        simp [stem]
      · intro segment group hentry hslash
        rw [pathUnder, stem, if_neg (by decide), String.empty_append] at hslash
        exact hroot group (hslash ▸ hentry)
    have hfresh : SiteShifts base Site.empty Site.empty := fun _ => rfl
    have hruns := Run.matches_of hplan hfresh
    rw [Site.fst_mount, Site.fst_mount, Run.record_outcome_mount, Run.record_outcome_mount,
      hruns.result]
    refine ⟨?_, rfl, hruns.offers⟩
    cases (Run.of Site.registry "" tree.plan Site.empty).result <;> simp [Except.mapError]

/-- A tree where a segment spells the path of a node below another one. -/
def spelledTwice : SegmentTree :=
  .node "/" [] none (.node "/a" [⟨"GET", 200, [], none⟩] (some (.node "/b" [] none .nil))
    (.node "/a/b" [] none .nil))

theorem mount_spelledTwice :
    2 ≤ "/v1".utf8ByteSize ∧
      (∀ group, ("/", group) ∈ spelledTwice.toList → subtree group.children = .nil) ∧
      (Site.empty.mount "/v1" spelledTwice).1 = .error (.returned (.pathTaken "/v1/a/b")) ∧
      ((spelledTwice.mount Site.registry.recorded "/v1").outcome (Site.empty, [])).2.state.2.map
        Offer.path = ["/v1/", "/v1/a/b", "/v1/a", "/v1/a/b"] := by
  have hsize : 2 ≤ "/v1".utf8ByteSize := by decide
  have hroot : ∀ group, ("/", group) ∈ spelledTwice.toList → subtree group.children = .nil := by
    simp [spelledTwice, toList, subtree]
  obtain ⟨-, hresult, hoffers⟩ := (mount_shifted spelledTwice).2 "/v1" hsize hroot
  have hempty : (Site.empty.mount "" spelledTwice).1 = .error (.returned (.pathTaken "/a/b")) := by
    rfl
  rw [hresult, hempty, hoffers]
  exact ⟨hsize, hroot, by rfl, by rfl⟩

end SegmentTree

end MockHttp
