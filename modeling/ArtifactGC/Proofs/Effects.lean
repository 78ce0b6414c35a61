import ArtifactGC.Proofs.Filters
import ArtifactGC.Proofs.Marking

/-!
# What a pass changes

A pass goes on from what a plan comes to: it purges what the plan lists, and gives up where the plan
fails. With a filter that answers candidates as it was asked about them, a plan lists live records
of the store, each once. So whatever else goes wrong, a pass marks exactly those artifacts of the
store that it reports as deleted or external, all of which were live. `ends_pass_of_plan` and
`purged_of_pass` say so.
-/

namespace ArtifactGC

/-! ## Filters that are functions -/

/-- What the filter answers under the identifier of a candidate is the candidate. -/
def GroupFilter.PreservesRecords (groups : GroupFilter) : Prop :=
  ∀ usage cs returned, groups usage cs = .ok returned →
    ∀ a ∈ returned, a.id ∈ cs.map (·.id) → a ∈ cs

/-- A function as a filter that remembers nothing. -/
def GroupFilter.service (groups : GroupFilter) : FilterService Unit :=
  fun usage cs t => (some (groups usage cs), t)

theorem GroupFilter.PreservesRecords.service {groups : GroupFilter}
    (h : groups.PreservesRecords) : groups.service.PreservesRecords := by
  rintro usage cs t returned hreturned
  exact h usage cs returned (Option.some.inj hreturned)

section Runs

variable {α τ : Type} {c : Conditions} {filter : FilterService τ}

/-- Where a filter beside the services makes no difference to the answers, it makes none to a
run. -/
theorem ends_beside_filter {asks : Request → Prop} {post : Except Failure α → Prop}
    {p : Procedure α} (h : p.Keeps (.ofAsks asks) post) {t : τ}
    (hsame : ∀ request m, asks request →
      ((Memory.services c).withFilter filter).answer request (m, t) =
        ((Memory.services c).answer request m).map id (·, t)) (m : Memory) :
    (p.run ((Memory.services c).withFilter filter) (m, t)).Ends
      (p.run (Memory.services c) m).ending ((p.run (Memory.services c) m).state, t) := by
  have hrun : (p.run (Memory.services c) m).ending =
        (p.run ((Memory.services c).withFilter filter) (m, t)).ending ∧
      (p.run ((Memory.services c).withFilter filter) (m, t)).state =
        ((p.run (Memory.services c) m).state, t) := by
    refine h.simulates (R := fun m s => s = (m, t)) (fun {request m s} hask hs => ?_) rfl
    rw [hs, hsame request m hask]
    exact ⟨rfl, rfl⟩
  exact ⟨hrun.1.symm, hrun.2⟩

/-- Services with a function as their filter are those with the same filter beside them. -/
theorem ends_with_service (p : Procedure α) (m : Memory) :
    (p.run ((Memory.services c).withFilter c.groups.service) (m, ())).Ends
      (p.run (Memory.services c) m).ending ((p.run (Memory.services c) m).state, ()) := by
  have hkeeps : p.Keeps (.ofAsks fun _ => True) fun _ => True :=
    Procedure.keeps_of_allowed (fun _ => trivial) p
  refine ends_beside_filter hkeeps (fun request m _ => ?_) m
  cases request <;> rfl

/-- A purge of live artifacts does not consult the filter. -/
theorem ends_purge_beside_filter {as : List Artifact} (hlive : ∀ a ∈ as, a.isLive = true)
    (m : Memory) (t : τ) :
    ((purge as).run ((Memory.services c).withFilter filter) (m, t)).Ends (m.purge c as).1
      ((m.purge c as).2, t) := by
  have hpurge := ends_purge_of_live (c := c) hlive m
  rw [← hpurge.ending, ← hpurge.state]
  refine ends_beside_filter (keeps_purge_purges as) (fun request m hpurges => ?_) m
  cases request with
  | unusedInGroups usage cs =>
    obtain ⟨a, _, _, _, hlocation⟩ := hpurges
    cases hlocation
  | _ => rfl

end Runs

/-! ## What a plan lists -/

/-- Whatever is answered, no candidate is listed twice. -/
theorem keeps_candidates_distinct (uid : NodeUid) (policies : KeyMap Policy) :
    (candidates uid policies).Keeps (.ofAsks fun _ => True)
      fun r => ∀ found, r = .ok found → (found.map (·.id)).Nodup := by
  have hfailed (e : Failure) (found : List Artifact) :
      Except.error e = Except.ok found → (found.map (·.id)).Nodup := by
    rintro ⟨⟩
  refine ⟨trivial, fun answer _ => ?_⟩
  cases answer with
  | error e => exact hfailed _
  | ok live =>
    change Procedure.Keeps _ _ (if _ then _ else _)
    split
    · simp
    · refine ⟨trivial, fun answer _ => ?_⟩
      cases answer with
      | error e => exact hfailed _
      | ok events =>
        have hall : (candidatesUnderAll live events policies.entries).Keeps
            (.ofAsks fun _ => True) fun _ => True :=
          Procedure.keeps_of_allowed (fun _ => trivial) _
        refine hall.bind (fun all _ => ?_) fun e _ => hfailed e
        rintro _ ⟨⟩
        exact nodup_map_distinctOn _ _

/-- The artifacts are live records of the store that a node has published, each listed once. -/
structure Store.Lists (s : Store) (uid : NodeUid) (found : List Artifact) : Prop where
  /-- No artifact is listed twice. -/
  nodup : (found.map (·.id)).Nodup
  /-- All are live as they are listed. -/
  live : ∀ a ∈ found, s.live? a.id = some a
  /-- All are published by the node. -/
  published : ∀ a ∈ found, ∃ key, ∃ e ∈ s.events, e.artifactId = a.id ∧ s.Publishes uid key e

section Plans

variable {τ : Type} {c : Conditions} {filter : FilterService τ} (hlive : c.liveOverride = none)
  (hfilter : filter.PreservesRecords) {uid : NodeUid} {node : NodeSpec} {m : Memory} {t : τ}
include hlive hfilter

/-- A plan lists live records of the store that its node has published. -/
theorem lists_of_plan_beside_filter {found : List Artifact}
    (h : ((plan uid node).run ((Memory.services c).withFilter filter) (m, t)).ending =
      .returned found) : m.store.Lists uid found := by
  have hkeeps : (plan uid node).Keeps (.ofAsks fun _ => True)
      fun r => ∀ found, r = .ok found → (found.map (·.id)).Nodup :=
    keeps_plan (fun _ => nofun) (fun _ => by rintro _ ⟨⟩; exact List.nodup_nil)
      fun _ _ => keeps_candidates_distinct uid node.policies
  obtain ⟨_, _, hends⟩ := hkeeps.run (Services.honours_ofAsks _ _) (s := (m, t)) trivial
  have hcollected (a : Artifact) (ha : a ∈ found) : ∃ key notKept,
      m.store.Collects uid node.policies key notKept ∧ a ∈ notKept := by
    obtain ⟨key, notKept, hcollects, _, hmem⟩ :=
      admissible_of_plan (fun cs a => a ∈ cs) hlive hfilter h ha
    exact ⟨key, notKept, hcollects, hmem⟩
  refine ⟨hends (.ok found) h found rfl, fun a ha => ?_, fun a ha => ?_⟩
  · obtain ⟨key, notKept, hcollects, hmem⟩ := hcollected a ha
    exact hcollects.live? hmem
  · obtain ⟨key, notKept, hcollects, hmem⟩ := hcollected a ha
    exact ⟨key, (hcollects.live_and_published (List.mem_map_of_mem hmem)).2⟩

end Plans

/-- What is listed is live. -/
theorem Store.Lists.isLive {s : Store} {uid : NodeUid} {found : List Artifact}
    (h : s.Lists uid found) {a : Artifact} (ha : a ∈ found) : a.isLive = true := by
  have hstate := (Store.live?_eq_some.mp (h.live a ha)).2
  simp [Artifact.isLive, hstate]

/-! ## From plans to passes -/

/-- How a search and purge end in memory when the search ends in some way, and the memory after
that. -/
def Memory.purgeFound (c : Conditions) (m : Memory) :
    Ending (List Artifact) → Ending PurgeReport × Memory
  | .returned found => m.purge c found
  | .failed e => (.failed e, m)
  | .crashed => (.crashed, m)

/-- The artifacts that a pass with some result has marked deleted. -/
def markedBy : Except Failure Outcome → List ArtifactId
  | .ok (.collected report) => report.marked
  | _ => []

/-- What is listed at the end of a search, if anything is. -/
def Ending.listed : Ending (List Artifact) → List Artifact
  | .returned found => found
  | _ => []

/-- The second memory is what is left of the first one after a purge, with some result, of artifacts
that it lists. -/
structure Memory.Purged (m : Memory) (uid : NodeUid) (found : List Artifact)
    (result : Except Failure Outcome) (m' : Memory) : Prop where
  /-- The purged artifacts are listed. -/
  lists : m.store.Lists uid found
  /-- Those that the result reports as deleted or external are marked deleted. -/
  store : m'.store = m.store.mark (markedBy result)
  /-- Only purged artifacts are reported so. -/
  subset : markedBy result ⊆ found.map (·.id)
  /-- Storage is left as the fates of the purged artifacts are settled. -/
  storage : m'.storage = (m.storage.settleAll found).2

section Purges

variable {c : Conditions} {m m' : Memory} {uid : NodeUid} {found : List Artifact}
  {result : Except Failure Outcome}

/-- Where nothing is purged, nothing changes. -/
theorem Memory.Purged.nothing (h : markedBy result = []) : m.Purged uid [] result m where
  lists := ⟨.nil, List.forall_mem_nil _, List.forall_mem_nil _⟩
  store := by rw [h, Store.mark_nil]
  subset := by rw [h]; exact List.nil_subset _
  storage := rfl

/-- What a purge without a report has marked is nothing. -/
theorem markedBy_of_not_returned {how : Ending PurgeReport}
    (h : ∀ report, how ≠ .returned report) : markedBy how.toOutcome.toResult = [] := by
  cases how with
  | returned report => exact absurd rfl (h report)
  | failed e => rfl
  | crashed => rfl

/-- A purge of listed artifacts marks those that it reports as deleted or external, and none if it
ends without a report. -/
theorem Store.Lists.purged (h : m.store.Lists uid found) :
    m.Purged uid found (m.purge c found).1.toOutcome.toResult (m.purge c found).2 := by
  rcases m.purge_cases c found with hpurge | ⟨how, hpurge, hnot⟩
  · rw [hpurge]
    exact {
      lists := h
      store := Store.record_eq_mark fun x hx =>
        (Store.live?_eq_some.mp (h.live _ (Storage.mem_of_mem_settleAll hx))).1
      subset := fun id hid => mem_of_mem_marked hid
      storage := rfl }
  · have hnone := markedBy_of_not_returned hnot
    rw [hpurge]
    exact {
      lists := h
      store := by rw [hnone, Store.mark_nil]
      subset := by rw [hnone]; exact List.nil_subset _
      storage := rfl }

end Purges

section Passes

variable {τ : Type} {c : Conditions} {filter : FilterService τ} (hlive : c.liveOverride = none)
  (hfilter : filter.PreservesRecords) {uid : NodeUid} {node : NodeSpec}
include hlive hfilter

/-- A pass purges what a plan lists, and does nothing more where the plan comes to nothing. -/
theorem ends_pass_beside_filter (hid : uid.nodeId = node.id)
    (hpolicies : node.policies.isEmpty = false) (m : Memory) (t : τ) :
    let services := (Memory.services c).withFilter filter
    let planned := (plan uid node).run services (m, t)
    planned.state.1 = m ∧
      ((pass uid node).run services (m, t)).Ends (m.purgeFound c planned.ending).1.toOutcome
        ((m.purgeFound c planned.ending).2, planned.state.2) := by
  intro services planned
  have hplan : plan uid node = candidates uid node.policies := plan_eq hid hpolicies
  have hplanned : planned = (candidates uid node.policies).run services (m, t) :=
    congrArg (fun p => p.run services (m, t)) hplan
  have hmemory : planned.state.1 = m := plan_keeps_memory c filter uid node m t
  have hstate : planned.state = (m, planned.state.2) := Prod.ext hmemory rfl
  have hpurged : ((candidates uid node.policies >>= purge).run services (m, t)).Ends
      (m.purgeFound c planned.ending).1
      ((m.purgeFound c planned.ending).2, planned.state.2) := by
    have hsearch : ((candidates uid node.policies).run services (m, t)).Ends planned.ending
        (m, planned.state.2) := by
      rw [← hplanned]
      exact ⟨rfl, hstate⟩
    cases hending : planned.ending with
    | returned found =>
      rw [hending] at hsearch
      have hlists : m.store.Lists uid found := lists_of_plan_beside_filter hlive hfilter hending
      exact Procedure.ends_bind hsearch
        (ends_purge_beside_filter (fun a ha => hlists.isLive ha) m _)
    | failed e =>
      rw [hending] at hsearch
      exact Procedure.ends_bind_of_failed hsearch
    | crashed =>
      rw [hending] at hsearch
      exact Procedure.ends_bind_of_crashed hsearch
  obtain ⟨hending, hafter, _⟩ := run_pass services (m, t) hid hpolicies
  exact ⟨hmemory, by rw [hending, hpurged.ending], by rw [hafter, hpurged.state]⟩

/-- A pass purges what a plan lists. -/
theorem purged_of_pass_beside_filter (uid : NodeUid) (node : NodeSpec) (m : Memory) (t : τ) :
    let services := (Memory.services c).withFilter filter
    let planned := (plan uid node).run services (m, t)
    let run := (pass uid node).run services (m, t)
    m.Purged uid planned.ending.listed run.ending.toResult run.state.1 := by
  intro services planned run
  have hplanned {p : Procedure (List Artifact)} (h : plan uid node = p) :
      planned = p.run services (m, t) := congrArg (·.run services (m, t)) h
  have hrun {p : Procedure Outcome} (h : pass uid node = p) : run = p.run services (m, t) :=
    congrArg (·.run services (m, t)) h
  rcases pass_cases uid node with ⟨hid, hpass⟩ | ⟨hid, hempty, hpass⟩ | ⟨hid, hpolicies⟩
  · rw [hrun hpass, hplanned (plan_of_mismatch hid)]
    exact .nothing rfl
  · rw [hrun hpass, hplanned (plan_of_isEmpty hid hempty)]
    exact .nothing rfl
  · obtain ⟨_, hends⟩ := ends_pass_beside_filter hlive hfilter hid hpolicies m t
    have hending : run.ending = _ := hends.ending
    have hstate : run.state = _ := hends.state
    rw [hending, hstate]
    cases hsearch : planned.ending with
    | returned found => exact (lists_of_plan_beside_filter hlive hfilter hsearch).purged
    | failed e => exact .nothing rfl
    | crashed => exact .nothing rfl

end Passes

/-! ## Passes with a function as their filter -/

section Functions

variable {c : Conditions} (hlive : c.liveOverride = none) (hgroups : c.groups.PreservesRecords)
  {uid : NodeUid} {node : NodeSpec}
include hlive hgroups

/-- A plan lists live records of the store that its node has published. -/
theorem lists_of_plan {m : Memory} {found : List Artifact}
    (h : ((plan uid node).run (Memory.services c) m).ending = .returned found) :
    m.store.Lists uid found := by
  have hplan := (ends_with_service (c := c) (plan uid node) m).ending
  exact lists_of_plan_beside_filter hlive hgroups.service (hplan.trans h)

/-- A pass purges what a plan lists, and does nothing more where the plan comes to nothing. -/
theorem ends_pass_of_plan (hid : uid.nodeId = node.id) (hpolicies : node.policies.isEmpty = false)
    (m : Memory) :
    let planned := (plan uid node).run (Memory.services c) m
    planned.state = m ∧ ((pass uid node).run (Memory.services c) m).Ends
      (m.purgeFound c planned.ending).1.toOutcome (m.purgeFound c planned.ending).2 := by
  intro planned
  have hplan := ends_with_service (c := c) (plan uid node) m
  have hpass := ends_with_service (c := c) (pass uid node) m
  obtain ⟨hmemory, hends⟩ := ends_pass_beside_filter hlive hgroups.service hid hpolicies m ()
  rw [hplan.state] at hmemory
  rw [hplan.ending] at hends
  refine ⟨hmemory, hpass.ending.symm.trans hends.ending, ?_⟩
  exact congrArg Prod.fst (hpass.state.symm.trans hends.state)

/-- A pass purges what a plan lists. -/
theorem purged_of_pass (uid : NodeUid) (node : NodeSpec) (m : Memory) :
    let planned := (plan uid node).run (Memory.services c) m
    let run := (pass uid node).run (Memory.services c) m
    m.Purged uid planned.ending.listed run.ending.toResult run.state := by
  intro planned run
  have hplan := ends_with_service (c := c) (plan uid node) m
  have hpass := ends_with_service (c := c) (pass uid node) m
  have hpurged := purged_of_pass_beside_filter hlive hgroups.service uid node m ()
  dsimp only at hpurged
  rw [hplan.ending, hpass.ending, hpass.state] at hpurged
  exact hpurged

end Functions

end ArtifactGC
