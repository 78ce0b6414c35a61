import ArtifactGC.Proofs.Recording
import ArtifactGC.Proofs.Retention

/-!
# A second pass

A pass that follows another one of the same node meets fewer live artifacts under every output key.
As a policy collects of fewer artifacts only what it collects of all, and as nothing becomes in
flight or dangles in the meantime, the second pass can only retry what the first one failed to
remove. The one exception is a policy that could not be evaluated the first time.
-/

namespace ArtifactGC

/-! ## Policies that are noted as invalid -/

section Notes

variable {σ : Type} {services : Services σ} {s : σ} {live : LiveOutputs} {events : List Event}

/-- A search that comes to its end has noted every policy that it could not evaluate. -/
theorem noted_of_returned {entries : List (String × Policy)} {found : List Artifact}
    (h : ((candidatesUnderAll live events entries).run services s).ending = .returned found)
    {key : String} {policy : Policy} (hentry : (key, policy) ∈ entries)
    (hlive : liveUnder live key ≠ []) {cause : PolicyError}
    (hinvalid : artifactsToCollect policy (liveUnder live key) = .error cause) :
    .policyInvalid key cause ∈ ((candidatesUnderAll live events entries).run services s).log := by
  induction entries generalizing s found with
  | nil => cases hentry
  | cons entry entries ih =>
    obtain ⟨key', policy'⟩ := entry
    rw [candidatesUnderAll] at h ⊢
    obtain ⟨first, _, hrest, hlog⟩ := Procedure.returned_of_bind h
    rw [hlog, List.mem_append]
    rcases List.mem_cons.mp hentry with heq | hentry
    · obtain ⟨rfl, rfl⟩ := Prod.mk.inj heq
      refine .inl ?_
      rw [candidatesUnder, if_neg hlive, hinvalid]
      exact List.mem_cons_self
    · obtain ⟨rest, hreturned, _, hlog⟩ := Procedure.returned_of_bind hrest
      rw [hlog]
      exact .inr (List.mem_append_left _ (ih hreturned hentry))

end Notes

section Search

variable {uid : NodeUid} {node : NodeSpec} {policies : KeyMap Policy} {m : Memory}

private theorem ends_liveOutputs : ((Procedure.liveOutputs uid).run (Memory.services .normal) m).Ends
    (.returned (m.store.liveOutputs uid)) m := by
  have hanswer : (Memory.services .normal).answer (.liveOutputs uid) m =
      (some (.ok (m.store.liveOutputs uid)), m) := rfl
  exact Procedure.ends_ask hanswer Procedure.ends_returned

/-- The search of a node notes every policy that cannot be evaluated on its live outputs. -/
theorem noted_of_search {found : List Artifact}
    (h : ((candidates uid policies).run (Memory.services .normal) m).ending = .returned found)
    {key : String} {policy : Policy} (hpolicy : policies.find? key = some policy)
    (houtputs : m.store.outputs uid key ≠ []) {cause : PolicyError}
    (hinvalid : artifactsToCollect policy (m.store.outputs uid key) = .error cause) :
    .policyInvalid key cause ∈
      ((candidates uid policies).run (Memory.services .normal) m).log := by
  rw [← Store.liveUnder_liveOutputs] at houtputs hinvalid
  have hsome : ¬ (policies.keys.all fun key =>
      decide (liveUnder (m.store.liveOutputs uid) key = [])) = true := by
    intro hall
    have hkey : key ∈ policies.keys := KeyMap.mem_keys.mpr ⟨policy, hpolicy⟩
    exact houtputs (of_decide_eq_true (List.all_eq_true.mp hall key hkey))
  unfold candidates at h ⊢
  obtain ⟨live, hlive, hrest, hlog⟩ := Procedure.returned_of_bind h
  rw [ends_liveOutputs.ending, Ending.returned.injEq] at hlive
  subst hlive
  rw [hlog, ends_liveOutputs.state, if_neg hsome]
  rw [ends_liveOutputs.state, if_neg hsome] at hrest
  obtain ⟨events, hevents, hrest, hlog⟩ := Procedure.returned_of_bind hrest
  rw [hlog]
  obtain ⟨all, hall, _, hlog⟩ := Procedure.returned_of_bind hrest
  rw [hlog]
  refine List.mem_append_right _ (List.mem_append_right _ (List.mem_append_left _ ?_))
  exact noted_of_returned hall (KeyMap.find?_eq_some.mp hpolicy) houtputs hinvalid

/-- The search of a pass that collects came to its end, and all that it noted is in the log. -/
theorem search_of_collected {report : PurgeReport}
    (h : ((pass uid node).run (Memory.services .normal) m).ending =
      .returned (.collected report)) :
    (∃ found, ((candidates uid node.policies).run (Memory.services .normal) m).ending =
      .returned found) ∧
    ((candidates uid node.policies).run (Memory.services .normal) m).log ⊆
      ((pass uid node).run (Memory.services .normal) m).log := by
  obtain ⟨hid, hpolicies, found, hselected⟩ := selected_of_collected h
  have hsearch := (ends_of_keeps_queries Conditions.normal_answersQueries (m := m)
    (keeps_candidates_queries _ _ _ uid node.policies)).1.ending
  rw [pass_eq hid hpolicies] at h ⊢
  obtain ⟨r, _, _, hlog⟩ := Procedure.returned_of_bind h
  rw [hlog, Procedure.run_attempt, Procedure.run_bind, Run.andThen]
  have hselected : m.store.selected Conditions.normal.groups
      (Conditions.normal.live m.store uid) node.policies = .ok found := hselected
  rw [hsearch, hselected]
  refine ⟨⟨found, rfl⟩, fun entry hentry => ?_⟩
  exact List.mem_append_left _ (List.mem_append_left _ hentry)

end Search

/-- Every policy under whose key a node has live outputs can be evaluated. -/
def Store.Evaluates (s : Store) (uid : NodeUid) (policies : KeyMap Policy) : Prop :=
  ∀ key policy, policies.find? key = some policy → s.outputs uid key ≠ [] →
    ∃ collected, artifactsToCollect policy (s.outputs uid key) = .ok collected

/-- A pass that collects and notes no invalid policy has evaluated all of them. -/
theorem evaluates_of_collected {uid : NodeUid} {node : NodeSpec} {m : Memory}
    {report : PurgeReport}
    (hcollected : ((pass uid node).run (Memory.services .normal) m).ending =
      .returned (.collected report))
    (hnoted : ∀ key cause,
      .policyInvalid key cause ∉ ((pass uid node).run (Memory.services .normal) m).log) :
    m.store.Evaluates uid node.policies := by
  obtain ⟨⟨found, hfound⟩, hlog⟩ := search_of_collected hcollected
  intro key policy hpolicy houtputs
  cases hcollect : artifactsToCollect policy (m.store.outputs uid key) with
  | ok collected => exact ⟨collected, rfl⟩
  | error cause =>
    exact absurd (hlog (noted_of_search hfound hpolicy houtputs hcollect)) (hnoted key cause)

/-! ## What can be selected again -/

section Again

variable {s : Store} {uid : NodeUid} {policies : KeyMap Policy}
  {settled : List (Artifact × Fate)}

/-- After some fates are recorded a policy collects only what it collected before. -/
theorem collected_before (hevaluates : s.Evaluates uid policies) {key : String}
    {collected : List Artifact}
    (h : (s.record settled).Collects uid policies key collected) {id : ArtifactId}
    (hid : id ∈ collected.map (·.id)) :
    ∃ before, s.Collects uid policies key before ∧ id ∈ before.map (·.id) := by
  obtain ⟨policy, hpolicy, hcollect⟩ := h
  obtain ⟨a, ha, rfl⟩ := List.mem_map.mp hid
  have hsub : ((s.record settled).outputs uid key).Sublist (s.outputs uid key) := by
    rw [Store.outputs_record]
    exact List.filter_sublist
  have houtputs : s.outputs uid key ≠ [] :=
    List.ne_nil_of_mem (hsub.subset ((artifactsToCollect_sublist hcollect).subset ha))
  obtain ⟨before, hbefore⟩ := hevaluates key policy hpolicy houtputs
  have hmem := collected_of_fewer Store.nodup_outputs hsub hbefore hcollect ha
  exact ⟨before, ⟨policy, hpolicy, hbefore⟩, List.mem_map_of_mem hmem⟩

/-- After the fates of what was selected are recorded, only failed artifacts are selected. -/
theorem selected_again (hevaluates : s.Evaluates uid policies) {found : List Artifact}
    (hselected : s.selected .passThrough (s.liveOutputs uid) policies = .ok found)
    (hsettled : settled.map (·.1) = found) :
    ∃ again, (s.record settled).selected .passThrough ((s.record settled).liveOutputs uid)
      policies = .ok again ∧ ∀ id ∈ again.map (·.id), id ∈ (reportOf settled).failed := by
  have hnone := Store.exists_selected_outputs.mp ⟨found, hselected⟩
  obtain ⟨again, hagain⟩ : ∃ again, (s.record settled).selected .passThrough
      ((s.record settled).liveOutputs uid) policies = .ok again := by
    rw [Store.exists_selected_outputs]
    intro key collected hcollects e he hdangles
    obtain ⟨hconsumes, hid, hmissing⟩ := Store.dangles_record.mp hdangles
    obtain ⟨before, hbefore, hmem⟩ := collected_before hevaluates hcollects hid
    rw [Store.events_record] at he
    exact hnone key before hbefore e he ⟨hconsumes, hmem, hmissing⟩
  refine ⟨again, hagain, fun id hid => ?_⟩
  obtain ⟨key, collected, hcollects, hmem, hidle⟩ := (Store.mem_selected_outputs hagain).mp hid
  obtain ⟨before, hbefore, hmem⟩ := collected_before hevaluates hcollects hmem
  rw [Store.inFlight_record] at hidle
  have hfound : id ∈ found.map (·.id) :=
    (Store.mem_selected_outputs hselected).mpr ⟨key, before, hbefore, hmem, hidle⟩
  obtain ⟨b, hb, rfl⟩ := List.mem_map.mp hid
  have hlive := Store.live?_of_selected hagain hb
  have hnotMarked : b.id ∉ (reportOf settled).marked := by
    intro hmarked
    rw [Store.live?_record, if_pos hmarked] at hlive
    cases hlive
  rw [← hsettled, List.map_map] at hfound
  obtain ⟨⟨a, fate⟩, hfate, hab⟩ := List.mem_map.mp hfound
  have hab : a.id = b.id := hab
  cases fate with
  | failed => exact mem_withFate.mpr ⟨a, hfate, hab⟩
  | deleted => exact absurd (mem_marked_reportOf.mpr ⟨a, _, hfate, nofun, hab⟩) hnotMarked
  | markedExternal => exact absurd (mem_marked_reportOf.mpr ⟨a, _, hfate, nofun, hab⟩) hnotMarked

end Again

/-- A pass that finds nothing only asks. -/
theorem keeps_pass_of_nothing {s : Store} {live : NodeUid → LiveOutputs} {groups : GroupFilter}
    {uid : NodeUid} {node : NodeSpec} (hid : uid.nodeId = node.id)
    (hpolicies : node.policies.isEmpty = false)
    (hselected : s.selected groups (live uid) node.policies = .ok []) :
    (pass uid node).Keeps (.queries s live groups) (· = .ok (.collected .empty)) := by
  refine keeps_pass (fun hne => absurd hid hne) (fun hempty => ?_) fun _ _ => ?_
  · rw [hpolicies] at hempty
    cases hempty
  · refine (keeps_candidates_queries s live groups uid node.policies).bind
      (fun found hfound => ?_) fun e he => ?_
    · rw [hselected] at hfound
      rw [Except.ok.inj hfound]
      rfl
    · rw [hselected] at he
      cases he

/-! ## Two passes -/

/-- A pass that follows one in which no output key was skipped deletes nothing but what the first
one failed to remove. If that is nothing, it reports nothing, only asks, and changes nothing. -/
theorem second_pass_only_retries (uid : NodeUid) (node : NodeSpec) (m : Memory)
    (first : PurgeReport)
    (hfirst : ((pass uid node).run (Memory.services .normal) m).ending =
      .returned (.collected first))
    (hskipped : ∀ key cause,
      .policyInvalid key cause ∉ ((pass uid node).run (Memory.services .normal) m).log) :
    let after := ((pass uid node).run (Memory.services .normal) m).state
    let again := (pass uid node).run (Memory.services .normal) after
    ∃ second, again.ending = .returned (.collected second) ∧
      (∀ id ∈ second.deleted ++ second.markedExternal, id ∈ first.failed) ∧
      (first.failed = [] → second = .empty ∧ (∀ x ∈ again.exchanges, x.request.IsQuery) ∧
        again.state = after) := by
  intro after again
  obtain ⟨hid, hpolicies, found, hselected⟩ := selected_of_collected hfirst
  have hevaluates := evaluates_of_collected hfirst hskipped
  have hpass := ends_pass_normal hid hpolicies hselected
  have hreport : first = reportOf (m.storage.settleAll found).1 := by
    have hending := hpass.ending
    rw [hfirst] at hending
    cases hending
    rfl
  have hafter : after.store = m.store.record (m.storage.settleAll found).1 :=
    congrArg Memory.store hpass.state
  obtain ⟨retried, hagain, hfailed⟩ :=
    selected_again hevaluates hselected (m.storage.map_fst_settleAll found)
  rw [← hafter] at hagain
  rw [← hreport] at hfailed
  have hends := ends_pass_normal hid hpolicies hagain
  refine ⟨_, hends.ending, fun id hmem => hfailed id (mem_of_mem_marked hmem), fun hnone => ?_⟩
  have hnothing : retried = [] := by
    rw [hnone] at hfailed
    exact List.map_eq_nil_iff.mp (List.eq_nil_iff_forall_not_mem.mpr fun id hmem =>
      List.not_mem_nil (hfailed id hmem))
  subst hnothing
  have hkeeps : (pass uid node).Keeps (.queries after.store
      (Conditions.normal.live after.store) Conditions.normal.groups) _ :=
    keeps_pass_of_nothing hid hpolicies hagain
  obtain ⟨hquiet, hqueries⟩ := ends_of_keeps_queries Conditions.normal_answersQueries hkeeps
  exact ⟨rfl, hqueries, hquiet.state⟩

/-- The removal of a protected file fails before the directory around it is removed; only the
second pass finds that the file is gone. -/
theorem protected_file_is_retried :
    let storage : Storage := (((Storage.empty.addDirectory "/a").addFile "/a/b").protect "/a/b")
    let m : Memory := ⟨.ofModels [model 1 "/a/b", model 2 "/a", model 3 "/c"], storage⟩
    let spec := trainerSpec (.ofRecency 1)
    let first := (pass trainer spec).run (Memory.services .normal) m
    let again := (pass trainer spec).run (Memory.services .normal) first.state
    first.ending = .returned (.collected ⟨[⟨2⟩], [], [⟨1⟩]⟩) ∧
      (∀ key cause, .policyInvalid key cause ∉ first.log) ∧
      again.ending = .returned (.collected ⟨[⟨1⟩], [], []⟩) ∧
      ∃ second, again.ending = .returned (.collected second) ∧
        ∀ id ∈ second.deleted ++ second.markedExternal, id ∈ [(⟨1⟩ : ArtifactId)] := by
  intro storage m spec first again
  have hfirst : first.ending = .returned (.collected ⟨[⟨2⟩], [], [⟨1⟩]⟩) := by decide +kernel
  have hlog : first.log = [.removalFailed ⟨1⟩ ⟨"/a/b", .permissionDenied, "protected path"⟩] := by
    decide +kernel
  have hskipped (key : String) (cause : PolicyError) : .policyInvalid key cause ∉ first.log := by
    rw [hlog]
    simp
  obtain ⟨second, hsecond, honly, _⟩ := second_pass_only_retries trainer spec m _ hfirst hskipped
  exact ⟨hfirst, hskipped, by decide +kernel, second, hsecond, honly⟩

end ArtifactGC
