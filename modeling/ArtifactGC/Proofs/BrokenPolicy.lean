import ArtifactGC.Proofs.Origin
import ArtifactGC.Proofs.Recording

/-!
# Output keys whose policy cannot be evaluated

A policy that cannot be evaluated for the live artifacts of its output key costs this key only: plan
and pass are those of the node without the policy. The artifacts under the key are not protected by
this. One that is also published under another key is judged there like any other, and
`broken_policy_is_skipped` says that it is planned exactly when the policy of another key collects
it and it is not in flight.
-/

namespace ArtifactGC

variable {uid : NodeUid} {node : NodeSpec} {m : Memory} {key : String} {policy : Policy}
  {cause : PolicyError}

/-- A node loses one policy when an output key is declared without one. -/
theorem policies_withOutput_none (node : NodeSpec) (key : String) :
    (node.withOutput key none).policies.entries =
      node.policies.entries.filter fun entry => entry.1 ≠ key :=
  KeyMap.entries_filterMap_insert_of_none rfl

/-- What is selected does not depend on a policy that cannot be evaluated. -/
theorem Store.selected_withOutput_none {s : Store} (hpolicy : node.policies.find? key = some policy)
    (hbroken : artifactsToCollect policy (s.outputs uid key) = .error cause) :
    s.selected .passThrough (s.liveOutputs uid) (node.withOutput key none).policies =
      s.selected .passThrough (s.liveOutputs uid) node.policies := by
  have hskipped : ∀ entry ∈ node.policies.entries, decide (entry.1 ≠ key) = false →
      s.selectedUnder .passThrough entry.1 entry.2 (liveUnder (s.liveOutputs uid) entry.1) =
        .ok [] := by
    rintro ⟨key', policy'⟩ hentry hkey
    obtain rfl : key' = key := by simpa using hkey
    obtain rfl : policy' = policy := by
      have hsame := KeyMap.find?_eq_some.mpr hentry
      rw [hpolicy] at hsame
      exact (Option.some.inj hsame).symm
    rw [liveUnder_liveOutputs, selectedUnder, hbroken]
  have hflat := flatten_mapM_filter hskipped
  have hmap (r : Except Failure (List (List Artifact))) :
      r.map (fun lists => distinctOn (·.id) lists.flatten) =
        (r.map List.flatten).map (distinctOn (·.id)) := by
    cases r <;> rfl
  rw [selected, selected, selectedLists, selectedLists, policies_withOutput_none, hmap, hmap, hflat]

/-- A plan does not depend on a policy that cannot be evaluated. -/
theorem ending_plan_withOutput_none (hpolicy : node.policies.find? key = some policy)
    (hbroken : artifactsToCollect policy (m.store.outputs uid key) = .error cause) :
    ((plan uid (node.withOutput key none)).run (Memory.services .normal) m).ending =
      ((plan uid node).run (Memory.services .normal) m).ending := by
  by_cases hid : uid.nodeId = node.id
  · have hid' : uid.nodeId = (node.withOutput key none).id := hid
    rw [ending_of_plan hid, ending_of_plan hid', Store.selected_withOutput_none hpolicy hbroken]
  · have hid' : uid.nodeId ≠ (node.withOutput key none).id := hid
    rw [plan_of_mismatch hid, plan_of_mismatch hid']
    rfl

/-- A pass does not depend on a policy that cannot be evaluated, as long as it is not the only one.
If it is, the pass collects nothing. -/
theorem pass_withOutput_none (hpolicy : node.policies.find? key = some policy)
    (hbroken : artifactsToCollect policy (m.store.outputs uid key) = .error cause) :
    let without := node.withOutput key none
    ((pass uid node).run (Memory.services .normal) m).state =
        ((pass uid without).run (Memory.services .normal) m).state ∧
      (without.policies.isEmpty = false →
        ((pass uid node).run (Memory.services .normal) m).ending =
          ((pass uid without).run (Memory.services .normal) m).ending) ∧
      (uid.nodeId = node.id → without.policies.isEmpty = true →
        ((pass uid node).run (Memory.services .normal) m).ending =
          .returned (.collected .empty)) := by
  intro without
  have hsame : m.store.selected .passThrough (m.store.liveOutputs uid) without.policies =
      m.store.selected .passThrough (m.store.liveOutputs uid) node.policies :=
    Store.selected_withOutput_none hpolicy hbroken
  by_cases hid : uid.nodeId = node.id
  · have hid' : uid.nodeId = without.id := hid
    have hpolicies : node.policies.isEmpty = false :=
      List.isEmpty_eq_false_iff.mpr (List.ne_nil_of_mem (KeyMap.find?_eq_some.mp hpolicy))
    cases hwithout : without.policies.isEmpty with
    | true =>
      have hentries : without.policies.entries = [] := List.isEmpty_iff.mp hwithout
      rw [Store.selected_of_no_live (by simp [KeyMap.keys, hentries])] at hsame
      have hends := ends_pass_normal hid hpolicies hsame.symm
      rw [hends.state, hends.ending, pass_of_isEmpty hid' hwithout]
      exact ⟨rfl, fun h => Bool.noConfusion h, fun _ _ => rfl⟩
    | false =>
      cases hselected : m.store.selected .passThrough (m.store.liveOutputs uid) node.policies with
      | ok found =>
        have hends := ends_pass_normal hid hpolicies hselected
        have hends' := ends_pass_normal hid' hwithout (hsame.trans hselected)
        exact ⟨hends.state.trans hends'.state.symm,
          fun _ => hends.ending.trans hends'.ending.symm, fun _ h => Bool.noConfusion h⟩
      | error e =>
        have hends := ends_pass_of_error Conditions.normal_answersQueries hid hpolicies hselected
        have hends' := ends_pass_of_error Conditions.normal_answersQueries hid' hwithout
          (hsame.trans hselected)
        exact ⟨hends.state.trans hends'.state.symm,
          fun _ => hends.ending.trans hends'.ending.symm, fun _ h => Bool.noConfusion h⟩
  · have hid' : uid.nodeId ≠ without.id := hid
    rw [pass_of_mismatch hid, pass_of_mismatch hid']
    exact ⟨rfl, fun _ => rfl, fun heq => absurd heq hid⟩

/-- Under a policy that cannot be evaluated nothing is collected. -/
theorem ne_key_of_collects (hpolicy : node.policies.find? key = some policy)
    (hbroken : artifactsToCollect policy (m.store.outputs uid key) = .error cause)
    {key' : String} {collected : List Artifact}
    (h : m.store.Collects uid node.policies key' collected) : key' ≠ key := by
  rintro rfl
  obtain ⟨policy', hpolicy', hcollect⟩ := h
  rw [hpolicy] at hpolicy'
  obtain rfl := Option.some.inj hpolicy'
  rw [hbroken] at hcollect
  cases hcollect

/-- Let the policy of an output key not be evaluable for the live artifacts under the key. Then a
plan is that of the node without this policy, and so is a pass, except that a pass without any other
policy collects nothing where the node without the policy has none at all. A live artifact under the
key is planned exactly when the policy of another key collects it and it is not in flight. If no
policy of another key collects it, it is not planned and not reported, its record stays live as it
is, and storage is used only at the locations of other artifacts, which are planned. -/
theorem broken_policy_is_skipped (uid : NodeUid) (node : NodeSpec) (m : Memory) (key : String)
    (policy : Policy) (cause : PolicyError) (hpolicy : node.policies.find? key = some policy)
    (hbroken : artifactsToCollect policy (m.store.outputs uid key) = .error cause) :
    let without := node.withOutput key none
    let planned := (plan uid node).run (Memory.services .normal) m
    let passed := (pass uid node).run (Memory.services .normal) m
    planned.ending = ((plan uid without).run (Memory.services .normal) m).ending ∧
    passed.state = ((pass uid without).run (Memory.services .normal) m).state ∧
    (without.policies.isEmpty = false →
      passed.ending = ((pass uid without).run (Memory.services .normal) m).ending) ∧
    (uid.nodeId = node.id → without.policies.isEmpty = true →
      passed.ending = .returned (.collected .empty)) ∧
    ∀ a ∈ m.store.outputs uid key,
      (∀ found, planned.ending = .returned found →
        (a.id ∈ found.map (·.id) ↔ ∃ key' collected, key' ≠ key ∧
          m.store.Collects uid node.policies key' collected ∧ a.id ∈ collected.map (·.id) ∧
          ¬ m.store.InFlight a.id)) ∧
      ((∀ key' collected, key' ≠ key → m.store.Collects uid node.policies key' collected →
          a.id ∉ collected.map (·.id)) →
        (∀ found, planned.ending = .returned found → a.id ∉ found.map (·.id)) ∧
        (∀ report, passed.ending = .returned (.collected report) →
          a.id ∉ report.marked ∧ a.id ∉ report.failed) ∧
        (passed.state.store.artifacts.find? a.id = some a ∧ a.state = .live) ∧
        ∀ x ∈ passed.exchanges, ∀ uri, x.request.location? = some uri →
          ∃ found b, planned.ending = .returned found ∧ b ∈ found ∧ b.id ≠ a.id ∧ b.uri = uri) := by
  intro without planned passed
  obtain ⟨hstate, hending, honly⟩ := pass_withOutput_none (m := m) hpolicy hbroken
  refine ⟨(ending_plan_withOutput_none hpolicy hbroken).symm, hstate, hending, honly,
    fun a ha => ?_⟩
  have hplanned (found : List Artifact) (hfound : planned.ending = .returned found) :
      a.id ∈ found.map (·.id) ↔ ∃ key' collected, key' ≠ key ∧
        m.store.Collects uid node.policies key' collected ∧ a.id ∈ collected.map (·.id) ∧
        ¬ m.store.InFlight a.id := by
    rw [Store.mem_selected_outputs (selected_of_plan hfound).2]
    constructor
    · rintro ⟨key', collected, hcollects, hmem⟩
      exact ⟨key', collected, ne_key_of_collects hpolicy hbroken hcollects, hcollects, hmem⟩
    · rintro ⟨key', collected, _, hcollects, hmem⟩
      exact ⟨key', collected, hcollects, hmem⟩
  refine ⟨hplanned, fun hother => ?_⟩
  have hnot (found : List Artifact) (hfound : planned.ending = .returned found) :
      a.id ∉ found.map (·.id) := by
    intro hmem
    obtain ⟨key', collected, hne, hcollects, hcollected, _⟩ := (hplanned found hfound).mp hmem
    exact hother key' collected hne hcollects hcollected
  obtain ⟨hrecord, hreport⟩ := unplanned_record_stays hnot
  have hlive := Store.live?_eq_some.mp (Store.mem_outputs.mp ha).1
  refine ⟨hnot, hreport, ⟨hrecord.trans hlive.1, hlive.2⟩, fun x hx uri huri => ?_⟩
  obtain ⟨found, hfound, b, hb, _, _, hat⟩ := planned_of_location _ m hx huri
  refine ⟨found, b, hfound, hb, fun hsame => ?_, hat⟩
  exact hnot found hfound (hsame ▸ List.mem_map_of_mem hb)

/-- One output key is broken, and of the models under it one is published under another key as well,
whose policy collects it. The plan is that of the node without the broken policy, and the model that
is published under the broken key only stays. -/
theorem model_under_broken_key_stays :
    let models := Store.ofModels [model 1 "/1", model 2 "/2"]
    let store := (models.publishing (model 3 "/3") "archive").insertEvent
      (.published ⟨1⟩ ⟨1⟩ "archive")
    let m : Memory := ⟨store, .empty⟩
    let spec := (trainerSpec (.ofRecency 1)).withOutput "archive" (some ⟨none, none, none⟩)
    spec.policies.find? "archive" = some ⟨none, none, none⟩ ∧
      artifactsToCollect ⟨none, none, none⟩ (store.outputs trainer "archive") = .error .unset ∧
      store.outputs trainer "archive" = [model 3 "/3", model 1 "/1"] ∧
      ((plan trainer spec).run (Memory.services .normal) m).ending = .returned [model 1 "/1"] ∧
      ((plan trainer spec).run (Memory.services .normal) m).ending =
        ((plan trainer (spec.withOutput "archive" none)).run (Memory.services .normal) m).ending ∧
      ((pass trainer spec).run (Memory.services .normal) m).state.store.artifacts.find? ⟨3⟩ =
        some (model 3 "/3") := by
  intro models store m spec
  have hpolicy : spec.policies.find? "archive" = some ⟨none, none, none⟩ := by decide +kernel
  have hbroken : artifactsToCollect ⟨none, none, none⟩ (store.outputs trainer "archive") =
      .error .unset := by decide +kernel
  have hlive : store.outputs trainer "archive" = [model 3 "/3", model 1 "/1"] := by decide +kernel
  have hplanned : ((plan trainer spec).run (Memory.services .normal) m).ending =
      .returned [model 1 "/1"] := by decide +kernel
  obtain ⟨hplan, _, _, _, hartifacts⟩ :=
    broken_policy_is_skipped trainer spec m "archive" _ _ hpolicy hbroken
  obtain ⟨hiff, hstays⟩ := hartifacts (model 3 "/3") (by rw [hlive]; exact List.mem_cons_self)
  have hidle : ¬ m.store.InFlight ⟨3⟩ := by decide +kernel
  obtain ⟨_, _, hrecord, _⟩ := hstays fun key' collected hne hcollects hmem =>
    absurd ((hiff _ hplanned).mpr ⟨key', collected, hne, hcollects, hmem, hidle⟩) (by decide)
  exact ⟨hpolicy, hbroken, hlive, hplanned, hplan, hrecord.1⟩

/-- A model that is live under a broken output key is planned and deleted all the same when the
policy of another key collects it. -/
theorem model_under_broken_key_is_planned :
    let store := (Store.ofModels [model 1 "/1", model 2 "/2"]).insertEvent
      (.published ⟨1⟩ ⟨1⟩ "archive")
    let m : Memory := ⟨store, Storage.empty.addFile "/1"⟩
    let spec := (trainerSpec (.ofRecency 1)).withOutput "archive" (some ⟨none, none, none⟩)
    spec.policies.find? "archive" = some ⟨none, none, none⟩ ∧
      artifactsToCollect ⟨none, none, none⟩ (store.outputs trainer "archive") = .error .unset ∧
      store.outputs trainer "archive" = [model 1 "/1"] ∧
      ((plan trainer spec).run (Memory.services .normal) m).ending = .returned [model 1 "/1"] ∧
      ((pass trainer spec).run (Memory.services .normal) m).ending =
        .returned (.collected ⟨[⟨1⟩], [], []⟩) ∧
      ((pass trainer spec).run (Memory.services .normal) m).state.storage.files = [] := by
  decide +kernel

end ArtifactGC
