import Mathlib.Data.List.Dedup
import Mathlib.Data.List.Perm.Subperm
import MockHttp.Proofs.Http.Overlay
import MockHttp.Proofs.Site.Reading
/-!
# Counting requests

A request is counted once, by its method, the status of its reply and its path, where all unknown
paths share one label.  So after any requests the counters, the replies and the log agree, and there
are no more labels for paths than endpoints and one.
-/

namespace MockHttp

/-! ## Counters -/

/-- What the counters of requests are told apart by. -/
structure Labels where
  method : String
  status : Nat
  path : String
  deriving DecidableEq

/-- The counters that have been counted on, with their values. -/
abbrev Counters := List (Labels × Nat)

namespace Counters

/-- Counts one more.  Labels that come up for the first time get a counter of their own. -/
def increment (counters : Counters) (labels : Labels) : Counters :=
  match counters with
  | [] => [(labels, 1)]
  | (own, count) :: counters =>
      if own = labels then (own, count + 1) :: counters
      else (own, count) :: increment counters labels

/-- The value of the counter with the given labels. -/
def value (counters : Counters) (labels : Labels) : Nat :=
  match counters with
  | [] => 0
  | (own, count) :: counters => if own = labels then count else value counters labels

/-- The sum of the counters with labels of some kind. -/
def total (kind : Labels → Bool) (counters : Counters) : Nat :=
  match counters with
  | [] => 0
  | (own, count) :: counters => (if kind own then count else 0) + total kind counters

/-- The labels that have come up. -/
def labels (counters : Counters) : List Labels :=
  counters.map Prod.fst

/-- Takes a measurement into account: a duration does not count. -/
def observe (counters : Counters) : Measurement → Counters
  | .counted method status path => counters.increment ⟨method, status, path⟩
  | .timed .. => counters

theorem value_increment (counters : Counters) (labels others : Labels) :
    (counters.increment labels).value others =
      counters.value others + if labels = others then 1 else 0 := by
  induction counters with
  | nil => simp [increment, value]
  | cons counter counters ih =>
      obtain ⟨own, count⟩ := counter
      rw [increment]
      by_cases hown : own = labels
      · subst hown
        by_cases hothers : own = others <;> simp [value, hothers]
      · rw [if_neg hown, value, value, ih]
        by_cases hothers : own = others
        · subst hothers
          simp [Ne.symm hown]
        · simp [hothers]

theorem total_increment (kind : Labels → Bool) (counters : Counters) (labels : Labels) :
    (counters.increment labels).total kind =
      counters.total kind + if kind labels then 1 else 0 := by
  induction counters with
  | nil => simp [increment, total]
  | cons counter counters ih =>
      obtain ⟨own, count⟩ := counter
      rw [increment]
      by_cases hown : own = labels
      · subst hown
        rw [if_pos rfl, total, total]
        split_ifs <;> omega
      · rw [if_neg hown, total, total, ih]
        omega

theorem mem_labels_increment {counters : Counters} {labels others : Labels} :
    others ∈ (counters.increment labels).labels ↔ others = labels ∨ others ∈ counters.labels := by
  induction counters with
  | nil => simp [increment, Counters.labels]
  | cons counter counters ih =>
      obtain ⟨own, count⟩ := counter
      rw [increment]
      split_ifs with hown
      · subst hown
        simp [Counters.labels]
      · simp only [Counters.labels, List.map_cons, List.mem_cons] at ih ⊢
        rw [ih, or_left_comm]

theorem nodup_labels_increment {counters : Counters} (hnodup : counters.labels.Nodup)
    (labels : Labels) : (counters.increment labels).labels.Nodup := by
  induction counters with
  | nil => simp [increment, Counters.labels]
  | cons counter counters ih =>
      obtain ⟨own, count⟩ := counter
      obtain ⟨hfresh, hrest⟩ := List.nodup_cons.1 hnodup
      rw [increment]
      split_ifs with hown
      · exact hnodup
      · refine List.nodup_cons.2 ⟨fun hmem => ?_, ih hrest⟩
        rcases mem_labels_increment.1 hmem with h | h
        · exact hown h
        · exact hfresh h

/-- The counters stand where they are after some labels were counted. -/
structure Count (seen : List Labels) (counters : Counters) : Prop where
  value : ∀ labels, counters.value labels = seen.count labels
  total : ∀ kind, counters.total kind = seen.countP kind
  labels : ∀ labels, labels ∈ counters.labels ↔ labels ∈ seen
  nodup : counters.labels.Nodup

theorem Count.nil : Count [] [] := by
  constructor <;> simp [Counters.value, Counters.total, Counters.labels]

theorem Count.increment {seen : List Labels} {counters : Counters} (hcount : Count seen counters)
    (labels : Labels) : Count (seen ++ [labels]) (counters.increment labels) := by
  constructor
  case value =>
    intro others
    rw [value_increment, hcount.value, List.count_append, List.count_singleton]
    simp
  case total =>
    intro kind
    rw [total_increment, hcount.total, List.countP_append, List.countP_singleton]
  case labels =>
    intro others
    rw [mem_labels_increment, hcount.labels, List.mem_append, List.mem_singleton, or_comm]
  case nodup => exact nodup_labels_increment hcount.nodup labels

end Counters

/-! ## Requests -/

/-- The method and the status that the log tells of a request. -/
def Event.served? : Event → Option (String × Nat)
  | .requestServed _ method _ status => some (method, status)
  | _ => none

namespace Site

variable (site : Site)

/-- The path that a request is counted under: its own if there is an endpoint at it. -/
def label (request : Request) : String :=
  if request.target.path ∈ site.paths then request.target.path else "none"

/-- What a request is counted under. -/
def labels (asked : Bytes × Request) : Labels :=
  ⟨asked.2.method.text, (site.answer asked.1 asked.2).reply.status.code, site.label asked.2⟩

/-- The counters after some requests. -/
def counters (requests : List (Bytes × Request)) : Counters :=
  (site.serviceMeasurements requests).foldl Counters.observe []

theorem countedPath_lookup (request : Request) :
    countedPath request.target.path (site.lookup request.target.path request.method) =
      site.label request := by
  rw [label, lookup]
  by_cases hpath : request.target.path ∈ site.paths
  · rw [if_pos hpath]
    cases hendpoint : site.endpoint? request.target.path with
    | none => exact absurd hpath (Keyed.find?_eq_none_iff.1 hendpoint)
    | some endpoint =>
        dsimp only
        cases endpoint.reply? request.method <;> rfl
  · have hendpoint : site.endpoint? request.target.path = none := Keyed.find?_eq_none_iff.2 hpath
    rw [if_neg hpath, hendpoint]
    rfl

theorem status_answer (newId : Bytes) (request : Request) :
    (site.answer newId request).reply.status =
      (plainReply (site.lookup request.target.path request.method)).status :=
  status_framed _ _

/-- A request adds one to one counter. -/
theorem observe_answer (counters : Counters) (newId : Bytes) (request : Request) :
    (site.answer newId request).measurements.foldl Counters.observe counters =
      counters.increment (site.labels (newId, request)) := by
  rw [labels, ← countedPath_lookup, status_answer]
  rfl

theorem count_counters (requests : List (Bytes × Request)) :
    Counters.Count (requests.map site.labels) (site.counters requests) := by
  induction requests using List.reverseRecOn with
  | nil => exact .nil
  | append_singleton requests asked ih =>
      obtain ⟨newId, request⟩ := asked
      have hstep : site.counters (requests ++ [(newId, request)]) =
          (site.counters requests).increment (site.labels (newId, request)) := by
        rw [counters, serviceMeasurements, List.flatMap_append, List.foldl_append,
          List.flatMap_singleton, observe_answer]
        rfl
      rw [hstep, List.map_append, List.map_singleton]
      exact ih.increment _

theorem served?_answer (newId : Bytes) (request : Request) :
    (site.answer newId request).event.served? =
      some (request.method.text, (site.answer newId request).reply.status.code) := by
  rw [status_answer]
  rfl

/-- The log tells of each request once, in their order. -/
theorem filterMap_served?_serviceEvents (address : String) (requests : List (Bytes × Request)) :
    (site.serviceEvents address requests).filterMap Event.served? =
      requests.map fun asked =>
        (asked.2.method.text, (site.answer asked.1 asked.2).reply.status.code) := by
  have hserved : (Event.served? ∘ fun asked : Bytes × Request =>
      (site.answer asked.1 asked.2).event) = some ∘ fun asked =>
        (asked.2.method.text, (site.answer asked.1 asked.2).reply.status.code) := by
    funext asked
    exact site.served?_answer asked.1 asked.2
  rw [serviceEvents, List.filterMap_append, List.filterMap_cons_none rfl, List.filterMap_map,
    hserved, List.filterMap_eq_map, List.filterMap_cons_none rfl, List.filterMap_nil,
    List.append_nil]

/-- The labels for paths that come up are those of endpoints, and one more. -/
theorem path_of_mem_labels_counters {requests : List (Bytes × Request)} {labels : Labels}
    (hlabels : labels ∈ (site.counters requests).labels) :
    labels.path = "none" ∨ labels.path ∈ site.paths := by
  have hcount := site.count_counters requests
  obtain ⟨asked, -, rfl⟩ := List.mem_map.1 ((hcount.labels labels).1 hlabels)
  rw [Site.labels, label]
  split_ifs with hpath
  · exact .inr hpath
  · exact .inl rfl

/-- What counters say of requests, the log of them and the endpoints. -/
structure Accounts (address : String) (requests : List (Bytes × Request)) : Prop where
  value : ∀ method status path, (site.counters requests).value ⟨method, status, path⟩ =
    requests.countP fun asked => asked.2.method.text = method ∧
      (site.answer asked.1 asked.2).reply.status.code = status ∧ site.label asked.2 = path
  once : (site.counters requests).labels.Nodup
  sum : (site.counters requests).total (fun _ => true) = requests.length
  served : ((site.serviceEvents address requests).filterMap Event.served?).length =
    requests.length
  log : ∀ method status,
    (site.counters requests).total (fun labels => labels.method = method ∧ labels.status = status) =
      ((site.serviceEvents address requests).filterMap Event.served?).count (method, status)
  paths : ∀ labels ∈ (site.counters requests).labels,
    labels.path = "none" ∨ labels.path ∈ site.paths
  few : ((site.counters requests).labels.map Labels.path).dedup.length ≤ site.size + 1

theorem accounts (address : String) (requests : List (Bytes × Request)) :
    site.Accounts address requests := by
  have hcount := site.count_counters requests
  have hpaths : ∀ labels ∈ (site.counters requests).labels,
      labels.path = "none" ∨ labels.path ∈ site.paths := fun labels hlabels =>
    site.path_of_mem_labels_counters hlabels
  constructor
  case value =>
    intro method status path
    rw [hcount.value, List.count, List.countP_map]
    apply List.countP_congr
    intro asked _
    simp [labels]
  case once => exact hcount.nodup
  case sum => rw [hcount.total, List.countP_true, List.length_map]
  case served => rw [filterMap_served?_serviceEvents, List.length_map]
  case log =>
    intro method status
    rw [hcount.total, filterMap_served?_serviceEvents, List.count, List.countP_map,
      List.countP_map]
    apply List.countP_congr
    intro asked _
    rw [Function.comp_apply, Function.comp_apply, decide_eq_true_iff, beq_iff_eq, Prod.mk.injEq]
    rfl
  case paths => exact hpaths
  case few =>
    have hsubset : ((site.counters requests).labels.map Labels.path).dedup ⊆
        "none" :: site.paths := by
      intro path hpath
      obtain ⟨labels, hlabels, rfl⟩ := List.mem_map.1 (List.mem_dedup.1 hpath)
      exact List.mem_cons.2 (hpaths labels hlabels)
    have hlength : site.paths.length = site.size := by simp [Site.paths, Keyed.keys, size]
    calc ((site.counters requests).labels.map Labels.path).dedup.length
        ≤ ("none" :: site.paths).length := ((List.nodup_dedup _).subperm hsubset).length_le
      _ = site.size + 1 := by rw [List.length_cons, hlength]

theorem none_notMem_paths {tree : SegmentTree} (hsite : (ofTree tree).1 = .ok site) :
    "none" ∉ site.paths := by
  intro hpath
  exact absurd (slashLed_of_mem_paths hsite hpath) (by decide)

/-- Whatever requests are answered, each is counted once, under its method, the status of its reply
and its path, and is told of once in the log.  All requests without an endpoint share the label
`none`, and no request at an endpoint has it. -/
theorem requests_are_counted {tree : SegmentTree} (hsite : (ofTree tree).1 = .ok site)
    (address : String) (requests : List (Bytes × Request)) :
    site.Accounts address requests ∧ "none" ∉ site.paths ∧
      ∀ request, site.label request = "none" ↔ request.target.path ∉ site.paths := by
  have hnone := none_notMem_paths site hsite
  refine ⟨site.accounts address requests, hnone, fun request => ?_⟩
  rw [label]
  split_ifs with hpath
  · simp only [hpath, not_true_eq_false, iff_false]
    rintro h
    exact hnone (h ▸ hpath)
  · simp [hpath]

/-- A known path, a known path with a method it does not have, and an unknown path. -/
def visit : List (Bytes × Request) :=
  ["/", "/users", "/missing"].map fun path =>
    ([48], ⟨⟨"GET", by decide⟩, ⟨none, "", path, none⟩, [], []⟩)

theorem visit_is_counted :
    ∃ site, (ofTree greeting).1 = .ok site ∧ site.Accounts "127.0.0.1:3000" visit ∧
      (site.counters visit).total (fun _ => true) = 3 ∧
      ∀ request : Request, request.target.path = "/missing" → site.label request = "none" := by
  obtain ⟨site, hsite⟩ := exists_site_of_toBool greeting (by decide +kernel)
  obtain ⟨haccounts, -, hnone⟩ := requests_are_counted site hsite "127.0.0.1:3000" visit
  refine ⟨site, hsite, haccounts, haccounts.sum, fun request hpath => ?_⟩
  rw [hnone, hpath, mem_paths_iff hsite]
  decide +kernel

end Site

end MockHttp
