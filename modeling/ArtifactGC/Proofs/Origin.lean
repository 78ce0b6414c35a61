import ArtifactGC.Proofs.Candidates
import ArtifactGC.Proofs.Pass
import ArtifactGC.Proofs.Purge
import ArtifactGC.Proofs.Services

/-!
# Where candidates come from and what a pass touches

A search asks nothing but queries, and whatever they are answered, a candidate was answered by the
filter and carries the identifier of an artifact that is live under an output key and that the
policy of the key does not keep. A pass uses storage only at the locations of artifacts that it
planned, and only if they are not owned outside the pipeline, and it writes only their records. The
main statements `keeps_candidates_origin` and `exchanges_of_pass` say so for any services.
-/

namespace ArtifactGC

/-! ## Searches -/

/-- The request is one of those by which a node is searched: a query, and not for the live artifacts
of another node. -/
def Request.Searches (uid : NodeUid) : Request → Prop
  | .liveOutputs node => node = uid
  | .events _ | .executions _ | .unusedInGroups .. => True
  | _ => False

/-- To search is to make queries. -/
theorem Request.Searches.isQuery {uid : NodeUid} {request : Request} (h : request.Searches uid) :
    request.IsQuery := by
  cases request with
  | liveOutputs | events | executions | unusedInGroups => trivial
  | put | isDirectory | isPresent | remove | removeRecursive => cases h

/-- A node may be searched. -/
def Contract.AllowsSearch (c : Contract) (uid : NodeUid) : Prop :=
  ∀ request, request.Searches uid → c.asks request

/-- Where all queries may be made, every node may be searched. -/
theorem Contract.allowsSearch_of_queries {c : Contract}
    (h : ∀ request, request.IsQuery → c.asks request) (uid : NodeUid) : c.AllowsSearch uid :=
  fun request hsearches => h request hsearches.isQuery

/-- A policy does not keep all of some artifacts, and the filter, when asked about those that are
not kept, may answer with an artifact that carries the identifier of one of them. -/
def Contract.Passes (c : Contract) (policy : Policy) (artifacts : List Artifact) (a : Artifact) :
    Prop :=
  ∃ notKept, artifactsToCollect policy artifacts = .ok notKept ∧ a.id ∈ notKept.map (·.id) ∧
    ∃ returned, c.answers (.unusedInGroups policy.usage notKept) (.ok returned) ∧ a ∈ returned

/-- An artifact passes the policy and the filter of some output key of a node. -/
def Contract.PassesUnder (c : Contract) (uid : NodeUid) (policies : KeyMap Policy) (a : Artifact) :
    Prop :=
  ∃ live key policy, c.answers (.liveOutputs uid) (.ok live) ∧
    policies.find? key = some policy ∧ c.Passes policy (liveUnder live key) a

section Search

variable {c : Contract} {uid : NodeUid} (hc : c.AllowsSearch uid)
include hc

/-- The usage filter only picks from the candidates. -/
theorem keeps_retainUnused_subset (cs : List Artifact) (events : List Event) :
    (retainUnused cs events).Keeps c (OnlyFinds (· ∈ cs)) := by
  unfold retainUnused
  by_cases hnil : consumptions cs events = []
  · simp [hnil]
  · simp only [hnil, if_false]
    refine ⟨hc _ trivial, fun answer _ => ?_⟩
    cases answer with
    | error e => exact onlyFinds_error
    | ok executions =>
      dsimp only [Procedure.ofStore, Except.mapError, Procedure.ofExcept, Procedure.bind]
      cases firstUnknown? executions (consumptions cs events) with
      | some e => exact onlyFinds_error
      | none => exact onlyFinds_ok.mpr fun a ha => (List.mem_filter.mp ha).1

/-- What remains of the artifacts that a policy does not keep passes policy and filter. -/
theorem keeps_unneeded_passes {policy : Policy} {artifacts notKept : List Artifact}
    (hcollect : artifactsToCollect policy artifacts = .ok notKept) (events : List Event) :
    (unneeded policy events notKept).Keeps c (OnlyFinds (c.Passes policy artifacts)) := by
  unfold unneeded
  split
  · exact onlyFinds_nil
  · refine ⟨hc _ trivial, fun answer hanswer => ?_⟩
    cases answer with
    | error e => exact onlyFinds_error
    | ok returned =>
      change Procedure.Keeps c _ (Procedure.noteAll _ >>= fun _ => retainUnused _ _)
      rw [Procedure.keeps_bind, Procedure.keeps_noteAll]
      refine (keeps_retainUnused_subset hc _ events).imp fun r hr => hr.mono fun a ha => ?_
      have hid : a.id ∈ notKept.map (·.id) :=
        map_admitted_subset notKept returned (List.mem_map_of_mem ha)
      have hreturned : a ∈ returned := (List.mem_filter.mp (mem_of_mem_distinctOn ha)).1
      exact ⟨notKept, hcollect, hid, returned, hanswer, hreturned⟩

/-- Candidates under an output key pass its policy and the filter. -/
theorem keeps_candidatesUnder_passes (live : LiveOutputs) (events : List Event) (key : String)
    (policy : Policy) :
    (candidatesUnder live events key policy).Keeps c
      (OnlyFinds (c.Passes policy (liveUnder live key))) := by
  unfold candidatesUnder
  split
  · exact onlyFinds_nil
  · split
    · simp [Procedure.keeps_bind]
    · rename_i notKept hcollect
      rw [Procedure.keeps_mapFailure]
      refine (keeps_unneeded_passes hc hcollect events).imp fun r hr => ?_
      cases r with
      | error e => exact onlyFinds_error
      | ok found => exact hr

/-- Candidates under several output keys pass the policy of one of them and the filter. -/
theorem keeps_candidatesUnderAll_passes (live : LiveOutputs) (events : List Event)
    (entries : List (String × Policy)) :
    (candidatesUnderAll live events entries).Keeps c
      (OnlyFinds fun a => ∃ entry ∈ entries, c.Passes entry.2 (liveUnder live entry.1) a) := by
  induction entries with
  | nil => exact onlyFinds_nil
  | cons entry entries ih =>
    obtain ⟨key, policy⟩ := entry
    refine (keeps_candidatesUnder_passes hc live events key policy).bind (fun first hfirst => ?_)
      fun _ _ => onlyFinds_error
    refine ih.bind (fun rest hrest => ?_) fun _ _ => onlyFinds_error
    refine OnlyFinds.append (hfirst.mono fun a ha => ?_) (hrest.mono fun a ha => ?_)
    · exact ⟨(key, policy), List.mem_cons_self, ha⟩
    · obtain ⟨entry, hentry, hpasses⟩ := ha
      exact ⟨entry, List.mem_cons_of_mem _ hentry, hpasses⟩

/-- Candidates of a node pass the policy and the filter of some output key. -/
theorem keeps_candidates_origin (policies : KeyMap Policy) :
    (candidates uid policies).Keeps c (OnlyFinds (c.PassesUnder uid policies)) := by
  refine ⟨hc _ rfl, fun answer hlive => ?_⟩
  cases answer with
  | error e => exact onlyFinds_error
  | ok live =>
    change Procedure.Keeps c _ (if _ then _ else _)
    split
    · exact onlyFinds_nil
    · refine ⟨hc _ trivial, fun answer _ => ?_⟩
      cases answer with
      | error e => exact onlyFinds_error
      | ok events =>
        refine (keeps_candidatesUnderAll_passes hc live events policies.entries).bind
          (fun all hall => onlyFinds_ok.mpr fun a ha => ?_) fun _ _ => onlyFinds_error
        obtain ⟨⟨key, policy⟩, hentry, hpasses⟩ := hall all rfl a (mem_of_mem_distinctOn ha)
        exact ⟨live, key, policy, hlive, KeyMap.find?_eq_some.mpr hentry, hpasses⟩

end Search

/-- A plan lists what passes the policy and the filter of some output key. -/
theorem keeps_plan_origin {c : Contract} {uid : NodeUid} (hc : c.AllowsSearch uid)
    (node : NodeSpec) : (plan uid node).Keeps c (OnlyFinds (c.PassesUnder uid node.policies)) :=
  keeps_plan (fun _ => onlyFinds_error) (fun _ => onlyFinds_nil) fun _ _ =>
    keeps_candidates_origin hc node.policies

/-! ## What is touched -/

/-- The location that a request to storage is about. -/
def Request.location? : Request → Option String
  | .isDirectory uri | .isPresent uri | .remove uri | .removeRecursive uri => some uri
  | _ => none

/-- Queries are not about locations. -/
theorem Request.IsQuery.location?_eq_none {request : Request} (h : request.IsQuery) :
    request.location? = none := by
  cases request with
  | liveOutputs | events | executions | unusedInGroups => rfl
  | put | isDirectory | isPresent | remove | removeRecursive => cases h

/-- The request serves to purge some artifacts: it is about the location of a live one that is not
owned outside the pipeline, or it writes records of live ones, marked deleted. -/
def Request.Purges (artifacts : List Artifact) : Request → Prop
  | .put batch => ∀ r ∈ batch, ∃ a ∈ artifacts, a.isLive = true ∧
      r = { a with state := .deleted }
  | request => ∃ a ∈ artifacts, a.isLive = true ∧ a.isExternal = false ∧
      request.location? = some a.uri

section Touched

variable {σ : Type} (services : Services σ) (s : σ) {uid : NodeUid} {node : NodeSpec}

/-- A search asks nothing but queries. -/
theorem exchanges_of_search (uid : NodeUid) (policies : KeyMap Policy) :
    ∀ x ∈ ((candidates uid policies).run services s).exchanges, x.request.IsQuery :=
  (keeps_candidates_origin (c := .ofAsks Request.IsQuery)
    (Contract.allowsSearch_of_queries (fun _ h => h) uid) policies).asks services s

/-- A purge uses storage only at the locations of its artifacts and writes only their records. -/
theorem keeps_purge_purges (artifacts : List Artifact) :
    (purge artifacts).Keeps (.ofAsks (Request.Purges artifacts)) fun _ => True := by
  refine keeps_purge (fun a ha hlive hexternal => ?_) (fun settled hsettled r hr => ?_)
    (fun _ _ => trivial) fun _ => trivial
  · exact ⟨⟨a, ha, hlive, hexternal, rfl⟩, ⟨a, ha, hlive, hexternal, rfl⟩,
      ⟨a, ha, hlive, hexternal, rfl⟩, ⟨a, ha, hlive, hexternal, rfl⟩⟩
  · obtain ⟨a, fate, ha, _, rfl⟩ := mem_changedRecords.mp hr
    have hmem : a ∈ artifacts.filter (·.isLive) := hsettled ▸ List.mem_map_of_mem ha
    obtain ⟨hartifact, hlive⟩ := List.mem_filter.mp hmem
    exact ⟨a, hartifact, hlive, rfl⟩

/-- Beside queries a pass asks only what serves to purge the artifacts that a plan lists. -/
theorem exchanges_of_pass {x : Exchange} (hx : x ∈ ((pass uid node).run services s).exchanges) :
    x.request.IsQuery ∨ ∃ found, ((plan uid node).run services s).ending = .returned found ∧
      x.request.Purges found := by
  rcases pass_cases uid node with ⟨_, hpass⟩ | ⟨_, _, hpass⟩ | ⟨hid, hpolicies⟩
  · rw [hpass] at hx
    cases hx
  · rw [hpass] at hx
    cases hx
  · rw [(run_pass services s hid hpolicies).2.2] at hx
    rcases Procedure.mem_exchanges_bind hx with hsearch | ⟨found, hfound, hpurge⟩
    · exact .inl (exchanges_of_search services s uid node.policies x hsearch)
    · rw [plan_eq hid hpolicies]
      exact .inr ⟨found, hfound, (keeps_purge_purges found).asks services _ x hpurge⟩

/-- A pass uses storage only at the locations of planned artifacts that are live and not owned
outside the pipeline. -/
theorem planned_of_location {x : Exchange} (hx : x ∈ ((pass uid node).run services s).exchanges)
    {uri : String} (huri : x.request.location? = some uri) :
    ∃ found, ((plan uid node).run services s).ending = .returned found ∧
      ∃ a ∈ found, a.isLive = true ∧ a.isExternal = false ∧ a.uri = uri := by
  obtain ⟨request, answer⟩ := x
  rcases exchanges_of_pass services s hx with hquery | ⟨found, hfound, hpurges⟩
  · rw [hquery.location?_eq_none] at huri
    cases huri
  · refine ⟨found, hfound, ?_⟩
    cases request with
    | liveOutputs | events | executions | put | unusedInGroups => cases huri
    | isDirectory | isPresent | remove | removeRecursive =>
      obtain ⟨a, ha, hlive, hexternal, hlocation⟩ := hpurges
      exact ⟨a, ha, hlive, hexternal, Option.some.inj (hlocation.symm.trans huri)⟩

/-- A pass writes only records of planned artifacts that are live, changed to deleted. -/
theorem planned_of_put {x : Exchange} (hx : x ∈ ((pass uid node).run services s).exchanges)
    {batch : List Artifact} (hbatch : x.request = .put batch) {r : Artifact} (hr : r ∈ batch) :
    ∃ found, ((plan uid node).run services s).ending = .returned found ∧
      ∃ a ∈ found, a.isLive = true ∧ r = { a with state := .deleted } := by
  rcases exchanges_of_pass services s hx with hquery | ⟨found, hfound, hpurges⟩
  · rw [hbatch] at hquery
    cases hquery
  · rw [hbatch] at hpurges
    exact ⟨found, hfound, hpurges r hr⟩

end Touched

/-! ## What services in memory keep -/

section Memory

variable {τ : Type} (c : Conditions) (filter : FilterService τ)

/-- Queries leave the memory as it is. -/
theorem services_keep_memory (m : Memory) :
    ((Memory.services c).withFilter filter).Honours (.ofAsks Request.IsQuery) (·.1 = m) where
  answers _ _ _ := trivial
  keeps := by
    rintro request ⟨_, t⟩ rfl hquery
    cases request with
    | liveOutputs node => exact Memory.underFault_unchanged _ _ _
    | events ids => exact Memory.underFault_unchanged _ _ _
    | executions ids => exact Memory.underFault_unchanged _ _ _
    | unusedInGroups usage cs => rfl
    | put | isDirectory | isPresent | remove | removeRecursive => cases hquery

/-- Requests to storage leave the records as they are. -/
theorem services_keep_store (store : Store) :
    ((Memory.services c).withFilter filter).Honours
      (.ofAsks fun request => request.location?.isSome) (·.1.store = store) where
  answers _ _ _ := trivial
  keeps := by
    rintro request ⟨_, t⟩ rfl hlocation
    cases request with
    | isDirectory | isPresent | remove | removeRecursive => rfl
    | liveOutputs | events | executions | put | unusedInGroups => cases hlocation

/-- A search in memory only asks, and leaves the memory as it is. -/
theorem search_keeps_memory (uid : NodeUid) (policies : KeyMap Policy) (m : Memory) (t : τ) :
    let run := (candidates uid policies).run ((Memory.services c).withFilter filter) (m, t)
    run.state.1 = m ∧ ∀ x ∈ run.exchanges, x.request.IsQuery := by
  have hkeeps := keeps_candidates_origin (c := .ofAsks Request.IsQuery)
    (Contract.allowsSearch_of_queries (fun _ h => h) uid) policies
  obtain ⟨hstate, hasks, _⟩ := hkeeps.run (services_keep_memory c filter m) (s := (m, t)) rfl
  exact ⟨hstate, hasks⟩

/-- A plan in memory leaves the memory as it is. -/
theorem plan_keeps_memory (uid : NodeUid) (node : NodeSpec) (m : Memory) (t : τ) :
    ((plan uid node).run ((Memory.services c).withFilter filter) (m, t)).state.1 = m := by
  have hkeeps := keeps_plan_origin (c := .ofAsks Request.IsQuery)
    (Contract.allowsSearch_of_queries (fun _ h => h) uid) node
  exact (hkeeps.run (services_keep_memory c filter m) (s := (m, t)) rfl).1

end Memory

end ArtifactGC
