import MockHttp.Proofs.Site.Table
/-!
# What has happened to a site

A site is built up by single offers and by whole mountings, some of which fail halfway.  Whatever
the order, all that ever happens to it is one offer after the other, and an offer only adds: the
first endpoint that is taken at a path stays there, so an answer that is known never changes.
-/

namespace MockHttp

/-- The paths and endpoints of the calls that were taken, in their order. -/
def Offer.taken (offers : List Offer) : List (String × Endpoint) :=
  offers.filterMap fun offer =>
    match offer.answer with
    | .ok () => some (offer.path, offer.endpoint)
    | .error _ => none

namespace Site

open SegmentTree

/-- Something that is done to a site. -/
inductive Act where
  | offer (path : String) (endpoint : Endpoint)
  | mount (base : String) (tree : SegmentTree)

namespace Act

/-- The site behind an act, whether or not the act succeeds. -/
def apply (site : Site) : Act → Site
  | offer path endpoint => (site.offer path endpoint).2
  | mount base tree => (site.mount base tree).2.state

/-- The calls that an act amounts to, with their answers. -/
def calls (site : Site) : Act → List Offer
  | offer path endpoint => [⟨path, endpoint, (site.offer path endpoint).1⟩]
  | mount base tree => ((tree.mount registry.recorded base).outcome (site, [])).2.state.2

end Act

/-- The site behind a number of acts. -/
def after (site : Site) (acts : List Act) : Site :=
  acts.foldl Act.apply site

/-- The calls that a number of acts amount to. -/
def callsOf (site : Site) : List Act → List Offer
  | [] => []
  | act :: acts => act.calls site ++ (act.apply site).callsOf acts

/-! ## One offer after the other -/

/-- The calls came to a site one by one, and each was answered by what the site was by then. -/
inductive Answered : Site → List Offer → Site → Prop where
  | nil {site : Site} : Answered site [] site
  | cons {site final : Site} {path : String} {endpoint : Endpoint} {offers : List Offer} :
      Answered (site.offer path endpoint).2 offers final →
        Answered site (⟨path, endpoint, (site.offer path endpoint).1⟩ :: offers) final

variable {site middle final : Site} {offers others : List Offer} {base : String}

theorem Answered.append (hfirst : Answered site offers middle)
    (hnext : Answered middle others final) : Answered site (offers ++ others) final := by
  induction hfirst with
  | nil => exact hnext
  | cons _ ih => exact .cons (ih hnext)

/-- A step of a mounting is at most one offer. -/
theorem answered_perform (base : String) (step : Step) (site : Site) :
    Answered site (step.offer? base (step.perform registry base site).1).toList
      (step.perform registry base site).2 := by
  cases step with
  | check n =>
      rw [Step.perform_check]
      exact .nil
  | build n => exact .nil
  | call n =>
      simp only [Step.perform, Step.offer?]
      cases n.endpoint base with
      | error error => exact .nil
      | ok endpoint => exact .cons .nil

theorem offers_cons (base : String) (step : Step) (run : Run Site) :
    Run.offers base ⟨step :: run.passed, run.failed, run.state⟩ =
      (step.offer? base (.ok ())).toList ++ run.offers base := by
  cases hoffer : step.offer? base (.ok ()) <;> simp [Run.offers, hoffer]

theorem answered_run (base : String) (steps : List Step) (site : Site) :
    Answered site ((Run.of registry base steps site).offers base)
      (Run.of registry base steps site).state := by
  induction steps generalizing site with
  | nil => exact .nil
  | cons step steps ih =>
      have hstep := answered_perform base step site
      rw [Run.of]
      generalize step.perform registry base site = result at hstep ⊢
      obtain ⟨error | ⟨⟨⟩⟩, next⟩ := result
      · simpa [Run.offers] using hstep
      · dsimp only
        rw [offers_cons]
        exact hstep.append (ih next)

/-- All that happens to a site is offers, one after the other. -/
theorem answered_apply (act : Act) (site : Site) :
    Answered site (act.calls site) (act.apply site) := by
  cases act with
  | offer path endpoint => exact .cons .nil
  | mount base tree =>
      rw [Act.calls, Act.apply, state_mount, Run.record_outcome_mount]
      exact answered_run base tree.plan site

theorem answered_after (acts : List Act) (site : Site) :
    Answered site (site.callsOf acts) (site.after acts) := by
  induction acts generalizing site with
  | nil => exact .nil
  | cons act acts ih => exact (answered_apply act site).append (ih _)

/-! ## What an offer does -/

theorem offer_of_isSome {path : String} (htaken : (site.endpoint? path).isSome)
    (endpoint : Endpoint) :
    site.offer path endpoint = (.error (.returned (.pathTaken path)), site) :=
  if_pos htaken

theorem offer_of_eq_none {path : String} (hfree : site.endpoint? path = none)
    (endpoint : Endpoint) :
    site.offer path endpoint = (.ok (), ⟨site.endpoints.insert path endpoint⟩) :=
  if_neg (by simp [hfree])

/-- A site has what was put into it: at each path the first endpoint of all, and nothing else. -/
structure Holds (site : Site) (entries : List (String × Endpoint)) : Prop where
  found : ∀ path, site.endpoint? path = Keyed.find? path entries
  sorted : site.paths.Pairwise (· < ·)
  size : site.size = entries.length

theorem holds_empty : Holds empty [] :=
  ⟨fun _ => rfl, List.Pairwise.nil, rfl⟩

theorem size_eq_length_paths (site : Site) : site.size = site.paths.length := by
  simp [size, paths, Keyed.keys]

theorem Holds.offer {entries : List (String × Endpoint)} (hholds : Holds site entries)
    (path : String) (endpoint : Endpoint) :
    Holds (site.offer path endpoint).2
      (entries ++ Offer.taken [⟨path, endpoint, (site.offer path endpoint).1⟩]) := by
  by_cases hfree : site.endpoint? path = none
  · rw [offer_of_eq_none hfree]
    constructor
    case found =>
      intro p
      rw [endpoint?_put, hholds.found p]
      change _ = Keyed.find? p (entries ++ [(path, endpoint)])
      rw [Keyed.find?_append, Keyed.find?]
      by_cases hpath : path = p
      · subst hpath
        rw [if_pos rfl, if_pos rfl, ← hholds.found, hfree]
        rfl
      · rw [if_neg hpath, if_neg hpath]
        simp [Keyed.find?]
    case sorted => exact Keyed.pairwise_keys_insert hholds.sorted
    case size =>
      have hperm : (Keyed.keys (Keyed.insert path endpoint site.endpoints)).Perm
          (path :: site.paths) := Keyed.keys_insert_perm hfree
      rw [size_eq_length_paths] at *
      calc (Keyed.keys (Keyed.insert path endpoint site.endpoints)).length
          = site.paths.length + 1 := hperm.length_eq
        _ = entries.length + 1 := by rw [← size_eq_length_paths, hholds.size]
        _ = (entries ++ [(path, endpoint)]).length := by rw [List.length_append]; rfl
  · have htaken : (site.endpoint? path).isSome := Option.isSome_iff_ne_none.2 hfree
    rw [offer_of_isSome htaken]
    simpa [Offer.taken] using hholds

theorem taken_cons (offer : Offer) (offers : List Offer) :
    Offer.taken (offer :: offers) = Offer.taken [offer] ++ Offer.taken offers :=
  List.filterMap_append (l := [offer])

/-- Behind its calls a site has what the taken ones brought, in addition to what it had. -/
theorem Answered.holds (hanswered : Answered site offers final)
    {entries : List (String × Endpoint)} (hholds : Holds site entries) :
    Holds final (entries ++ Offer.taken offers) := by
  induction hanswered generalizing entries with
  | nil => simpa [Offer.taken] using hholds
  | cons _ ih =>
      rw [taken_cons, ← List.append_assoc]
      exact ih (hholds.offer _ _)

theorem endpoint?_offer_of_isSome {p : String} (htaken : (site.endpoint? p).isSome)
    (path : String) (endpoint : Endpoint) :
    (site.offer path endpoint).2.endpoint? p = site.endpoint? p := by
  by_cases hfree : site.endpoint? path = none
  · have hne : path ≠ p := by
      rintro rfl
      rw [hfree] at htaken
      cases htaken
    rw [offer_of_eq_none hfree, endpoint?_put, if_neg hne]
  · rw [offer_of_isSome (Option.isSome_iff_ne_none.2 hfree)]

/-- What is at a path stays there, whatever calls come. -/
theorem Answered.kept (hanswered : Answered site offers final) {path : String}
    (htaken : (site.endpoint? path).isSome) : final.endpoint? path = site.endpoint? path := by
  induction hanswered with
  | nil => rfl
  | @cons site final other endpoint offers _ ih =>
      have hkept := endpoint?_offer_of_isSome htaken other endpoint
      rw [ih (hkept ▸ htaken), hkept]

/-! ## What a mounting adds -/

theorem mem_filterMap_called?_iff {steps : List Step} {node : Node} :
    node ∈ steps.filterMap Step.called? ↔ .call node ∈ steps := by
  rw [List.mem_filterMap]
  constructor
  · rintro ⟨step, hstep, hcalled⟩
    cases step with
    | check n | build n => cases hcalled
    | call n =>
        obtain rfl := Option.some.inj hcalled
        exact hstep
  · intro hcall
    exact ⟨.call node, hcall, rfl⟩

/-- Behind a mounting, however it ended, there are the nodes whose calls passed and what was there
before. -/
theorem endpoint?_mount_iff {tree : SegmentTree} {path : String} {endpoint : Endpoint} :
    (site.mount base tree).2.state.endpoint? path = some endpoint ↔
      site.endpoint? path = some endpoint ∨
        ∃ node ∈ tree.nodes, .call node ∈ (Run.of registry base tree.plan site).passed ∧
          node.pathFrom base = path ∧ node.endpoint base = .ok endpoint := by
  have hgrew := grew_run base tree.plan site
  have hstart := Run.isPrefix_passed registry base tree.plan site
  rw [state_mount]
  simp only [← mem_filterMap_called?_iff]
  constructor
  · intro hfound
    by_cases hnew : path ∈ ((Run.of registry base tree.plan site).passed.filterMap
        Step.called?).map (Node.pathFrom base)
    · obtain ⟨node, hnode, rfl⟩ := List.mem_map.1 hnew
      obtain ⟨own, hown, hadded⟩ := hgrew.added node hnode
      rw [hadded] at hfound
      obtain rfl := Option.some.inj hfound
      have hcall := hstart.subset (mem_filterMap_called?_iff.1 hnode)
      exact .inr ⟨node, mem_plan_iff.1 hcall, hnode, rfl, hown⟩
    · rw [hgrew.kept path hnew] at hfound
      exact .inl hfound
  · rintro (hfound | ⟨node, -, hnode, rfl, hendpoint⟩)
    · have hmount := answered_run base tree.plan site
      rw [hmount.kept (by rw [hfound]; rfl), hfound]
    · obtain ⟨own, hown, hadded⟩ := hgrew.added node hnode
      rw [hendpoint] at hown
      obtain rfl := Except.ok.inj hown
      exact hadded

/-- Whatever is done to a site, it has at each path the endpoint of the first call for it that was
taken, and keeps it.  A call for a path that is there is refused and changes nothing.  A mounting
that fails has only added the nodes whose calls come before the step that failed.  The paths are in
the order of their bytes, one for each call that was taken.  So an answer other than that the path
is unknown never changes again. -/
theorem first_taken_stays (acts : List Act) :
    let site := empty.after acts
    let taken := Offer.taken (empty.callsOf acts)
    (∀ path, site.endpoint? path = Keyed.find? path taken) ∧
      (∀ later path endpoint, site.endpoint? path = some endpoint →
        (site.after later).endpoint? path = some endpoint) ∧
      (∀ path endpoint, (site.endpoint? path).isSome →
        site.offer path endpoint = (.error (.returned (.pathTaken path)), site)) ∧
      (∀ base tree error, (site.mount base tree).1 = .error error →
        let run := Run.of registry base tree.plan site
        ∃ step rest, run.failed = some (step, error) ∧ tree.plan = run.passed ++ step :: rest ∧
          ∀ path endpoint, (site.mount base tree).2.state.endpoint? path = some endpoint ↔
            site.endpoint? path = some endpoint ∨
              ∃ node ∈ tree.nodes, .call node ∈ run.passed ∧ node.pathFrom base = path ∧
                node.endpoint base = .ok endpoint) ∧
      (site.paths.map Text.bytes).Pairwise (· < ·) ∧
      site.size = site.paths.length ∧ site.size = taken.length ∧
      ∀ later path method, site.lookup path method ≠ .unknownPath →
        (site.after later).lookup path method = site.lookup path method := by
  intro site taken
  have hholds : Holds site taken := (answered_after acts empty).holds holds_empty
  have hkept (later : List Act) {path : String} (htaken : (site.endpoint? path).isSome) :
      (site.after later).endpoint? path = site.endpoint? path :=
    (answered_after later site).kept htaken
  refine ⟨hholds.found, ?_, ?_, ?_, ?_, size_eq_length_paths site, hholds.size, ?_⟩
  · intro later path endpoint hfound
    rw [hkept later (by rw [hfound]; rfl), hfound]
  · exact fun path endpoint htaken => offer_of_isSome htaken endpoint
  · intro base tree error hmount run
    rw [fst_mount] at hmount
    obtain ⟨step, rest, hfailed, hsplit⟩ := Run.of_result_eq_error hmount
    exact ⟨step, rest, hfailed, hsplit, fun path endpoint => endpoint?_mount_iff⟩
  · rw [List.pairwise_map]
    exact hholds.sorted.imp Text.bytes_lt_bytes_iff.2
  · intro later path method hknown
    have htaken : (site.endpoint? path).isSome := by
      rw [Option.isSome_iff_ne_none]
      intro hnone
      exact hknown (by rw [lookup, hnone])
    rw [lookup, lookup, hkept later htaken]

/-- A tree that can be mounted up to its last segment. -/
def unfinished : SegmentTree :=
  .node "/a" [] (some (.node "/b" [] none .nil)) (.node "c" [] none .nil)

/-- One offer, and then a mounting that fails but leaves two nodes. -/
def halfway : List Act :=
  [.offer "/x" Endpoint.empty, .mount "/v" unfinished]

theorem first_taken_halfway :
    (empty.after halfway).paths = ["/v/a", "/v/a/b", "/x"] ∧ (empty.after halfway).size = 3 ∧
      (∀ endpoint, (empty.after halfway).offer "/v/a" endpoint =
        (.error (.returned (.pathTaken "/v/a")), empty.after halfway)) ∧
      ((empty.after halfway).mount "/w" unfinished).1 = .error (.returned (.noLeadingSlash "c")) ∧
      ((empty.after halfway).mount "/w" unfinished).2.state.endpoint? "/w/a/b" =
        some Endpoint.empty ∧
      ∀ later, ((empty.after halfway).after later).lookup "/v/a" ⟨"GET", by decide⟩ =
        .wrongMethod := by
  obtain ⟨-, -, hrefused, hfailed, -, -, hsize, hsame⟩ := first_taken_stays halfway
  have hmount : ((empty.after halfway).mount "/w" unfinished).1 =
      .error (.returned (.noLeadingSlash "c")) := by rfl
  obtain ⟨step, rest, -, -, hadded⟩ := hfailed "/w" unfinished _ hmount
  have hknown : (empty.after halfway).lookup "/v/a" ⟨"GET", by decide⟩ = .wrongMethod := by rfl
  refine ⟨by rfl, hsize, fun endpoint => hrefused "/v/a" endpoint (by rfl), hmount, ?_, ?_⟩
  · refine (hadded "/w/a/b" Endpoint.empty).2 (.inr ⟨⟨["/a"], "/b", ⟨[], none⟩⟩, ?_, ?_, ?_⟩)
    · simp [unfinished, subtree, Node.under]
    · exact List.mem_of_getElem? (i := 3) (by rfl)
    · exact ⟨by rfl, by rfl⟩
  · intro later
    rw [hsame later "/v/a" _ (by rw [hknown]; simp), hknown]

end Site

end MockHttp
