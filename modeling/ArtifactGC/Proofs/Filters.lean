import ArtifactGC.Proofs.Origin
import ArtifactGC.Proofs.Planning

/-!
# What a pipeline group filter can bring about

Of what a filter answers, an artifact is admitted when its identifier is that of a candidate. So no
filter adds an identifier. The rest of the record is taken as it was answered: a filter that answers
a candidate with another location or with other properties has that record planned, purged and
written. `filter_only_shrinks` is about filters that answer candidates as they were asked about
them; `altered_record_is_purged` shows what another one can do.
-/

namespace ArtifactGC

/-- What the filter answers under the identifier of a candidate is the candidate. -/
def FilterService.PreservesRecords {τ : Type} (filter : FilterService τ) : Prop :=
  ∀ usage cs t returned, (filter usage cs t).1 = some (.ok returned) →
    ∀ a ∈ returned, a.id ∈ cs.map (·.id) → a ∈ cs

/-- Live artifacts are answered as a store holds them. What the filter answers under the identifier
of a candidate is admissible. -/
def Contract.listing (s : Store) (admissible : List Artifact → Artifact → Prop) : Contract where
  asks := Request.IsQuery
  answers
    | .liveOutputs node, answer => ∀ live, answer = .ok live → live = s.liveOutputs node
    | .unusedInGroups _ cs, answer => ∀ returned, answer = .ok returned →
      ∀ a ∈ returned, a.id ∈ cs.map (·.id) → admissible cs a
    | _, _ => True

section Listing

variable {s : Store} {uid : NodeUid} {policies : KeyMap Policy}
  {admissible : List Artifact → Artifact → Prop}

/-- What passes policy and filter is admissible among the artifacts that a policy collects. -/
theorem exists_collects_of_passesUnder {a : Artifact}
    (h : (Contract.listing s admissible).PassesUnder uid policies a) :
    ∃ key notKept, s.Collects uid policies key notKept ∧ a.id ∈ notKept.map (·.id) ∧
      admissible notKept a := by
  obtain ⟨live, key, policy, hlive, hpolicy, notKept, hcollect, hid, returned, hreturned, ha⟩ := h
  obtain rfl : live = s.liveOutputs uid := hlive live rfl
  rw [Store.liveUnder_liveOutputs] at hcollect
  exact ⟨key, notKept, ⟨policy, hpolicy, hcollect⟩, hid, hreturned returned rfl a ha hid⟩

variable {τ : Type} {c : Conditions} {filter : FilterService τ}

/-- Services in memory that answer with the live artifacts of their store honour the contract with
every filter whose answers are admissible. -/
theorem services_honours_listing (hlive : c.liveOverride = none) (m : Memory)
    (hfilter : ∀ usage cs t returned, (filter usage cs t).1 = some (.ok returned) →
      ∀ a ∈ returned, a.id ∈ cs.map (·.id) → admissible cs a) :
    ((Memory.services c).withFilter filter).Honours (.listing m.store admissible)
      (·.1 = m) where
  answers := by
    rintro request ⟨_, t⟩ answer rfl _ hanswer
    cases request with
    | liveOutputs node =>
      rintro live rfl
      have hlive' := Memory.eq_of_underFault hanswer
      rw [hlive] at hlive'
      exact hlive'
    | unusedInGroups usage cs =>
      rintro returned rfl
      exact hfilter usage cs t returned hanswer
    | _ => trivial
  keeps := (services_keep_memory c filter m).keeps

/-- A plan lists admissible records of what the policies collect. -/
theorem admissible_of_plan (admissible : List Artifact → Artifact → Prop)
    (hlive : c.liveOverride = none) {node : NodeSpec} {m : Memory} {t : τ}
    (hfilter : ∀ usage cs t returned, (filter usage cs t).1 = some (.ok returned) →
      ∀ a ∈ returned, a.id ∈ cs.map (·.id) → admissible cs a) {found : List Artifact}
    (h : ((plan uid node).run ((Memory.services c).withFilter filter) (m, t)).ending =
      .returned found) {a : Artifact} (ha : a ∈ found) :
    ∃ key notKept, m.store.Collects uid node.policies key notKept ∧ a.id ∈ notKept.map (·.id) ∧
      admissible notKept a := by
  have hkeeps := keeps_plan_origin (c := .listing m.store admissible)
    (Contract.allowsSearch_of_queries (fun _ h => h) uid) node
  obtain ⟨_, _, hends⟩ := hkeeps.run (services_honours_listing hlive m hfilter) (s := (m, t)) rfl
  exact exists_collects_of_passesUnder (hends (.ok found) h found rfl a ha)

end Listing

/-- Let the store answer with the live artifacts that it holds. Whatever the filter answers, a plan
lists only identifiers of artifacts that are listed under an output key and not kept by its policy.
If the filter answers candidates as it was asked about them, the plan lists these artifacts as they
are in the store. Then a pass uses storage only at the location of such an artifact that is not
owned outside the pipeline, and writes only records of such artifacts, changed to deleted. -/
theorem filter_only_shrinks {τ : Type} (c : Conditions) (filter : FilterService τ) (uid : NodeUid)
    (node : NodeSpec) (m : Memory) (t : τ) (hlive : c.liveOverride = none) :
    let services := (Memory.services c).withFilter filter
    (∀ found, ((plan uid node).run services (m, t)).ending = .returned found →
      ∀ a ∈ found, ∃ key notKept, m.store.Collects uid node.policies key notKept ∧
        a.id ∈ notKept.map (·.id)) ∧
    (filter.PreservesRecords →
      (∀ found, ((plan uid node).run services (m, t)).ending = .returned found →
        ∀ a ∈ found, ∃ key notKept, m.store.Collects uid node.policies key notKept ∧ a ∈ notKept) ∧
      ∀ x ∈ ((pass uid node).run services (m, t)).exchanges,
        (∀ uri, x.request.location? = some uri → ∃ a key notKept,
          m.store.Collects uid node.policies key notKept ∧ a ∈ notKept ∧
          m.store.live? a.id = some a ∧ a.isExternal = false ∧ a.uri = uri) ∧
        ∀ batch, x.request = .put batch → ∀ r ∈ batch, ∃ a key notKept,
          m.store.Collects uid node.policies key notKept ∧ a ∈ notKept ∧
          m.store.live? a.id = some a ∧ r = { a with state := .deleted }) := by
  intro services
  refine ⟨fun found hfound a ha => ?_, fun hpreserves => ?_⟩
  · obtain ⟨key, notKept, hcollects, hid, _⟩ := admissible_of_plan (fun _ _ => True) hlive
      (fun _ _ _ _ _ _ _ _ => trivial) hfound ha
    exact ⟨key, notKept, hcollects, hid⟩
  · have hplan (found : List Artifact)
        (hfound : ((plan uid node).run services (m, t)).ending = .returned found) (a : Artifact)
        (ha : a ∈ found) :
        ∃ key notKept, m.store.Collects uid node.policies key notKept ∧ a ∈ notKept := by
      obtain ⟨key, notKept, hcollects, _, hmem⟩ :=
        admissible_of_plan (fun cs a => a ∈ cs) hlive hpreserves hfound ha
      exact ⟨key, notKept, hcollects, hmem⟩
    refine ⟨hplan, fun x hx => ⟨fun uri huri => ?_, fun batch hbatch r hr => ?_⟩⟩
    · obtain ⟨found, hfound, a, ha, _, hexternal, hat⟩ :=
        planned_of_location services (m, t) hx huri
      obtain ⟨key, notKept, hcollects, hmem⟩ := hplan found hfound a ha
      exact ⟨a, key, notKept, hcollects, hmem, hcollects.live? hmem, hexternal, hat⟩
    · obtain ⟨found, hfound, a, ha, _, hr⟩ := planned_of_put services (m, t) hx hbatch hr
      obtain ⟨key, notKept, hcollects, hmem⟩ := hplan found hfound a ha
      exact ⟨a, key, notKept, hcollects, hmem, hcollects.live? hmem, hr⟩

/-- A filter that withholds one model answers the other ones as they were, and the plan lists the
other one as it is in the store. -/
theorem preserving_filter_only_shrinks :
    let m : Memory := ⟨.ofModels [model 1 "/1", model 2 "/2", model 3 "/3"], .empty⟩
    let filter : FilterService Nat := fun _ cs n =>
      (some (.ok (cs.filter (·.id ≠ ⟨2⟩))), n + 1)
    let spec := trainerSpec (.ofRecency 1)
    filter.PreservesRecords ∧
      ((plan trainer spec).run ((Memory.services .normal).withFilter filter) (m, 0)).ending =
        .returned [model 1 "/1"] ∧
      ∃ key notKept, m.store.Collects trainer spec.policies key notKept ∧
        model 1 "/1" ∈ notKept := by
  intro m filter spec
  have hpreserves : filter.PreservesRecords := by
    rintro usage cs t _ ⟨⟩ a ha _
    exact (List.mem_filter.mp ha).1
  have hplan : ((plan trainer spec).run ((Memory.services .normal).withFilter filter)
      (m, 0)).ending = .returned [model 1 "/1"] := by decide +kernel
  obtain ⟨_, hshrinks⟩ := filter_only_shrinks .normal filter trainer spec m 0 rfl
  exact ⟨hpreserves, hplan, (hshrinks hpreserves).1 _ hplan _ List.mem_cons_self⟩

/-- A model that is owned outside the pipeline is a candidate. A filter that answers it without the
mark has its storage removed and its record replaced by one without the mark. -/
theorem altered_record_is_purged :
    let external := (model 1 "/1").markExternal
    let m : Memory := ⟨.ofModels [external, model 2 "/2"], Storage.empty.addFile "/1"⟩
    let filter : FilterService Nat := fun _ _ n => (some (.ok [model 1 "/1"]), n + 1)
    let spec := trainerSpec (.ofRecency 1)
    let services := (Memory.services .normal).withFilter filter
    external.isExternal = true ∧
      ((plan trainer spec).run services (m, 0)).ending = .returned [model 1 "/1"] ∧
      (∀ key notKept, m.store.Collects trainer spec.policies key notKept →
        model 1 "/1" ∉ notKept) ∧
      ((pass trainer spec).run services (m, 0)).state.1.storage.files = [] ∧
      ((pass trainer spec).run services (m, 0)).state.1.store.artifacts.find? ⟨1⟩ =
        some { model 1 "/1" with state := .deleted } := by
  intro external m filter spec services
  refine ⟨by decide +kernel, by decide +kernel, fun key notKept hcollects hmem => ?_,
    by decide +kernel, by decide +kernel⟩
  have hlive := hcollects.live? hmem
  revert hlive
  decide +kernel

end ArtifactGC
