import ArtifactGC.Proofs.Planning
import ArtifactGC.Proofs.Purge
import ArtifactGC.Proofs.Storage

/-!
# Settling fates in memory

With storage in memory the fate of an artifact is a function of the storage, and a pass is one of
the records and the storage: it settles the fates of what is selected, one after another, and then
writes the changed records. `ends_pass` says so.
-/

namespace ArtifactGC

/-- The store after the records that changed are written, if any did. -/
def Store.record (s : Store) (settled : List (Artifact × Fate)) : Store :=
  if changedRecords settled = [] then s else s.put (changedRecords settled)

/-- How the purge of some live artifacts ends in memory, and the memory after it. -/
def Memory.purge (c : Conditions) (m : Memory) (as : List Artifact) : Ending PurgeReport × Memory :=
  let settled := (m.storage.settleAll as).1
  let rest := (m.storage.settleAll as).2
  if changedRecords settled = [] then (.returned (reportOf settled), ⟨m.store, rest⟩)
  else
    match c.fault .put with
    | none => (.returned (reportOf settled), ⟨m.store.put (changedRecords settled), rest⟩)
    | some (.refuses reason) => (.failed (.store (.unavailable reason)), ⟨m.store, rest⟩)
    | some .breaksDown => (.crashed, ⟨m.store, rest⟩)

/-- A purge whose records can be written reports and records the fates that it settles. -/
theorem Memory.purge_of_written {c : Conditions} (hput : c.fault .put = none) (m : Memory)
    (as : List Artifact) : m.purge c as = (.returned (reportOf (m.storage.settleAll as).1),
      ⟨m.store.record (m.storage.settleAll as).1, (m.storage.settleAll as).2⟩) := by
  unfold Memory.purge Store.record
  rw [hput]
  by_cases hnone : changedRecords (m.storage.settleAll as).1 = []
  · rw [if_pos hnone, if_pos hnone]
  · rw [if_neg hnone, if_neg hnone]

/-- A purge reports and records the fates that it settles, or ends without a report and leaves the
records alone. -/
theorem Memory.purge_cases (c : Conditions) (m : Memory) (as : List Artifact) :
    m.purge c as = (.returned (reportOf (m.storage.settleAll as).1),
        ⟨m.store.record (m.storage.settleAll as).1, (m.storage.settleAll as).2⟩) ∨
      ∃ how, m.purge c as = (how, ⟨m.store, (m.storage.settleAll as).2⟩) ∧
        ∀ report, how ≠ .returned report := by
  cases hput : c.fault .put with
  | none => exact .inl (Memory.purge_of_written hput m as)
  | some fault =>
    unfold Memory.purge Store.record
    rw [hput]
    by_cases hnone : changedRecords (m.storage.settleAll as).1 = []
    · exact .inl (by rw [if_pos hnone, if_pos hnone])
    · rw [if_neg hnone, if_neg hnone]
      cases fault with
      | refuses reason => exact .inr ⟨_, rfl, nofun⟩
      | breaksDown => exact .inr ⟨_, rfl, nofun⟩

section Runs

variable {c : Conditions} (store : Store) (s : Storage)

/-- Removal in memory. -/
theorem ends_removeFromStorage (uri : String) :
    ((removeFromStorage uri).run (Memory.services c) ⟨store, s⟩).Ends
      (.returned (s.clear uri).1) ⟨store, (s.clear uri).2⟩ := by
  unfold removeFromStorage Storage.clear
  have hanswer : (Memory.services c).answer (.isDirectory uri) ⟨store, s⟩ =
      (some (s.isDirectory uri), ⟨store, s⟩) := rfl
  refine Procedure.ends_ask hanswer ?_
  cases s.isDirectory uri with
  | error e => exact Procedure.ends_returned
  | ok directory =>
    cases directory with
    | true => exact Procedure.ends_ask rfl Procedure.ends_returned
    | false => exact Procedure.ends_ask rfl Procedure.ends_returned

/-- The fate of one artifact in memory. -/
theorem ends_settle (a : Artifact) :
    ((settle a).run (Memory.services c) ⟨store, s⟩).Ends (.returned (s.settle a).1)
      ⟨store, (s.settle a).2⟩ := by
  unfold settle Storage.settle
  split
  · exact Procedure.ends_returned
  · refine Procedure.ends_bind (ends_removeFromStorage store s a.uri) ?_
    generalize s.clear a.uri = cleared
    obtain ⟨answer, s⟩ := cleared
    cases answer with
    | ok _ => exact Procedure.ends_returned
    | error e =>
      refine Procedure.ends_ask rfl ?_
      dsimp only [Storage.fateAfter, Prod.map, Memory.storageService]
      rcases s.isPresent a.uri with e | _ | _
      · exact Procedure.ends_note Procedure.ends_returned
      · exact Procedure.ends_returned
      · exact Procedure.ends_note Procedure.ends_returned

/-- The fates of several artifacts in memory. -/
theorem ends_settleAll (as : List Artifact) :
    ((settleAll as).run (Memory.services c) ⟨store, s⟩).Ends (.returned (s.settleAll as).1)
      ⟨store, (s.settleAll as).2⟩ := by
  induction as generalizing s with
  | nil => exact Procedure.ends_returned
  | cons a as ih =>
    refine Procedure.ends_bind (ends_settle store s a) ?_
    exact Procedure.ends_bind (ih _) Procedure.ends_returned

/-- A batch that can be written is written. -/
theorem ends_put (hput : c.fault .put = none) (batch : List Artifact) :
    ((Procedure.put batch).run (Memory.services c) ⟨store, s⟩).Ends (.returned ())
      ⟨store.put batch, s⟩ := by
  have hanswer : (Memory.services c).answer (.put batch) ⟨store, s⟩ =
      (some (.ok ()), ⟨store.put batch, s⟩) := by
    change Memory.underFault (c.fault .put) _ _ _ = _
    rw [hput]
    rfl
  exact Procedure.ends_ask hanswer Procedure.ends_returned

/-- A batch that is refused is not written. -/
theorem ends_put_of_refused {reason : String} (hput : c.fault .put = some (.refuses reason))
    (batch : List Artifact) :
    ((Procedure.put batch).run (Memory.services c) ⟨store, s⟩).Ends
      (.failed (.store (.unavailable reason))) ⟨store, s⟩ := by
  have hanswer : (Memory.services c).answer (.put batch) ⟨store, s⟩ =
      (some (.error (.unavailable reason)), ⟨store, s⟩) := by
    change Memory.underFault (c.fault .put) _ _ _ = _
    rw [hput]
    rfl
  exact Procedure.ends_ask hanswer Procedure.ends_failed

/-- A batch at which the store breaks down is not written. -/
theorem ends_put_of_breakdown (hput : c.fault .put = some .breaksDown) (batch : List Artifact) :
    ((Procedure.put batch).run (Memory.services c) ⟨store, s⟩).Ends .crashed ⟨store, s⟩ := by
  have hanswer : (Memory.services c).answer (.put batch) ⟨store, s⟩ = (none, ⟨store, s⟩) := by
    change Memory.underFault (c.fault .put) _ _ _ = _
    rw [hput]
    rfl
  exact Procedure.ends_ask_of_none hanswer

/-- A purge settles the fates of its live artifacts and goes on with their records. -/
theorem ends_purge {as : List Artifact} {settled : List (Artifact × Fate)} {s' : Storage}
    (hsettled : s.settleAll (as.filter (·.isLive)) = (settled, s')) {how : Ending PurgeReport}
    {m : Memory}
    (hnone : changedRecords settled = [] → how = .returned (reportOf settled) ∧ m = ⟨store, s'⟩)
    (hput : changedRecords settled ≠ [] →
      ((Procedure.put (changedRecords settled) >>= fun _ => .returned (reportOf settled)).run
        (Memory.services c) ⟨store, s'⟩).Ends how m) :
    ((purge as).run (Memory.services c) ⟨store, s⟩).Ends how m := by
  have hall := ends_settleAll (c := c) store s (as.filter (·.isLive))
  rw [hsettled] at hall
  refine Procedure.ends_bind hall ?_
  change ((if changedRecords settled = [] then _ else _ : Procedure PurgeReport).run _ _).Ends _ _
  by_cases hempty : changedRecords settled = []
  · obtain ⟨rfl, rfl⟩ := hnone hempty
    rw [if_pos hempty]
    exact Procedure.ends_returned
  · rw [if_neg hempty]
    exact hput hempty

/-- A purge of live artifacts settles their fates and records them, unless something goes wrong when
the records are written. -/
theorem ends_purge_of_live {as : List Artifact} (hlive : ∀ a ∈ as, a.isLive = true) (m : Memory) :
    ((purge as).run (Memory.services c) m).Ends (m.purge c as).1 (m.purge c as).2 := by
  refine ends_purge m.store m.storage (by rw [List.filter_eq_self.mpr hlive]) (fun hempty => ?_)
    fun hchanged => ?_
  · rw [Memory.purge, if_pos hempty]
    exact ⟨rfl, rfl⟩
  · rw [Memory.purge, if_neg hchanged]
    cases hput : c.fault .put with
    | none => exact Procedure.ends_bind (ends_put _ _ hput _) Procedure.ends_returned
    | some fault =>
      cases fault with
      | refuses reason => exact Procedure.ends_bind_of_failed (ends_put_of_refused _ _ hput _)
      | breaksDown => exact Procedure.ends_bind_of_crashed (ends_put_of_breakdown _ _ hput _)

/-- A purge whose records can be written. -/
theorem ends_purge_of_written (hput : c.fault .put = none) {as : List Artifact}
    (hlive : ∀ a ∈ as, a.isLive = true) :
    ((purge as).run (Memory.services c) ⟨store, s⟩).Ends (.returned (reportOf (s.settleAll as).1))
      ⟨store.record (s.settleAll as).1, (s.settleAll as).2⟩ := by
  have hends := ends_purge_of_live (c := c) hlive ⟨store, s⟩
  rw [Memory.purge_of_written hput] at hends
  exact hends

/-- A purge whose records are refused. -/
theorem ends_purge_of_refused {reason : String} (hput : c.fault .put = some (.refuses reason))
    {as : List Artifact} (hlive : ∀ a ∈ as, a.isLive = true)
    (hchanged : changedRecords (s.settleAll as).1 ≠ []) :
    ((purge as).run (Memory.services c) ⟨store, s⟩).Ends
      (.failed (.store (.unavailable reason))) ⟨store, (s.settleAll as).2⟩ := by
  have hends := ends_purge_of_live (c := c) hlive ⟨store, s⟩
  rw [Memory.purge, if_neg hchanged, hput] at hends
  exact hends

end Runs

/-! ## Passes -/

section Passes

variable {σ : Type} {services : Services σ} {c : Conditions} {uid : NodeUid} {node : NodeSpec}
  {m m' : Memory}

/-- A pass makes an outcome of every result and of every failure. -/
theorem ends_pass_of_purge (hid : uid.nodeId = node.id) (hpolicies : node.policies.isEmpty = false)
    {s s' : σ} {r : Except Failure PurgeReport}
    (h : ((candidates uid node.policies >>= purge).run services s).Ends (.ofExcept r) s') :
    ((pass uid node).run services s).Ends (.returned (.ofResult r)) s' := by
  rw [pass_eq hid hpolicies]
  have hattempt := Procedure.ends_attempt h
  cases r with
  | ok report => exact Procedure.ends_bind hattempt Procedure.ends_returned
  | error e => exact Procedure.ends_bind hattempt (Procedure.ends_note Procedure.ends_returned)

/-- A pass purges what is selected. -/
theorem ends_pass_of_selected (hc : c.AnswersQueries) (hid : uid.nodeId = node.id)
    (hpolicies : node.policies.isEmpty = false) {found : List Artifact}
    (hselected : m.store.selected c.groups (c.live m.store uid) node.policies = .ok found)
    {r : Except Failure PurgeReport}
    (hpurge : ((purge found).run (Memory.services c) m).Ends (.ofExcept r) m') :
    ((pass uid node).run (Memory.services c) m).Ends (.returned (.ofResult r)) m' := by
  have hsearch := (ends_of_keeps_queries hc (m := m)
    (keeps_candidates_queries _ _ c.groups uid node.policies)).1
  rw [hselected] at hsearch
  exact ends_pass_of_purge hid hpolicies (Procedure.ends_bind hsearch hpurge)

/-- A pass is given up when nothing can be selected. -/
theorem ends_pass_of_error (hc : c.AnswersQueries) (hid : uid.nodeId = node.id)
    (hpolicies : node.policies.isEmpty = false) {e : Failure}
    (hselected : m.store.selected c.groups (c.live m.store uid) node.policies = .error e) :
    ((pass uid node).run (Memory.services c) m).Ends (.returned (.aborted e.kind e.message)) m := by
  have hsearch := (ends_of_keeps_queries hc (m := m)
    (keeps_candidates_queries _ _ c.groups uid node.policies)).1
  rw [hselected] at hsearch
  exact ends_pass_of_purge (r := .error e) hid hpolicies (Procedure.ends_bind_of_failed hsearch)

end Passes

namespace Store

variable {s : Store} {uid : NodeUid} {policies : KeyMap Policy} {key : String} {policy : Policy}
  {live : List Artifact} {found : List Artifact}

/-- Only live artifacts under a key are selected under it. -/
theorem selectedUnder_subset (hnodup : (live.map (·.id)).Nodup) {part : List Artifact}
    (h : s.selectedUnder .passThrough key policy live = .ok part) : part ⊆ live := by
  cases hcollect : artifactsToCollect policy live with
  | error cause =>
    rw [selectedUnder, hcollect] at h
    obtain rfl := Except.ok.inj h
    exact List.nil_subset _
  | ok collected =>
    rw [selectedUnder_of_collected hnodup hcollect, verdict] at h
    cases hfirst : s.firstDangling? (collected.map (·.id)) with
    | some e =>
      rw [hfirst] at h
      cases h
    | none =>
      rw [hfirst] at h
      obtain rfl := Except.ok.inj h
      exact fun a ha => (artifactsToCollect_sublist hcollect).subset (mem_idle.mp ha).1

/-- What is selected of the live outputs of a node are live records of the store. -/
theorem live?_of_selected
    (h : s.selected .passThrough (s.liveOutputs uid) policies = .ok found) {a : Artifact}
    (ha : a ∈ found) : s.live? a.id = some a := by
  obtain ⟨lists, hlists, rfl⟩ := exceptMap_eq_ok.mp h
  obtain ⟨part, hpart, hmem⟩ := List.mem_flatten.mp (mem_of_mem_distinctOn ha)
  obtain ⟨⟨key, policy⟩, _, hunder⟩ := (mem_of_mapM_eq_ok hlists).mp hpart
  rw [liveUnder_liveOutputs] at hunder
  exact (mem_outputs.mp (selectedUnder_subset nodup_outputs hunder hmem)).1

end Store

/-- A pass with a store that works and a filter that holds nothing back settles the fates of what
is selected and records them. -/
theorem ends_pass_normal {uid : NodeUid} {node : NodeSpec} {m : Memory} {found : List Artifact}
    (hid : uid.nodeId = node.id) (hpolicies : node.policies.isEmpty = false)
    (hselected : m.store.selected .passThrough (m.store.liveOutputs uid) node.policies =
      .ok found) :
    ((pass uid node).run (Memory.services .normal) m).Ends
      (.returned (.collected (reportOf (m.storage.settleAll found).1)))
      ⟨m.store.record (m.storage.settleAll found).1, (m.storage.settleAll found).2⟩ := by
  refine ends_pass_of_selected Conditions.normal_answersQueries hid hpolicies hselected
    (r := .ok _) (ends_purge_of_written m.store m.storage rfl fun a ha => ?_)
  have hlive := (Store.live?_eq_some.mp (Store.live?_of_selected hselected ha)).2
  simp [Artifact.isLive, hlive]

/-- A pass with a store that works and a filter that holds nothing back changes nothing and does not
collect, or it settles the fates of what is selected and records them. -/
theorem ends_pass_cases (uid : NodeUid) (node : NodeSpec) (m : Memory) :
    (∃ how, ((pass uid node).run (Memory.services .normal) m).Ends how m ∧
      ∀ report, how ≠ .returned (.collected report)) ∨
    (uid.nodeId = node.id ∧ node.policies.isEmpty = false ∧ ∃ found,
      m.store.selected .passThrough (m.store.liveOutputs uid) node.policies = .ok found ∧
      ((pass uid node).run (Memory.services .normal) m).Ends
        (.returned (.collected (reportOf (m.storage.settleAll found).1)))
        ⟨m.store.record (m.storage.settleAll found).1, (m.storage.settleAll found).2⟩) := by
  rcases pass_cases uid node with ⟨_, hpass⟩ | ⟨_, _, hpass⟩ | ⟨hid, hpolicies⟩
  · rw [hpass]
    exact .inl ⟨_, Procedure.ends_failed, nofun⟩
  · rw [hpass]
    exact .inl ⟨_, Procedure.ends_returned, nofun⟩
  · cases hselected : m.store.selected .passThrough (m.store.liveOutputs uid) node.policies with
    | ok found =>
      exact .inr ⟨hid, hpolicies, found, rfl, ends_pass_normal hid hpolicies hselected⟩
    | error e =>
      have hends := ends_pass_of_error Conditions.normal_answersQueries hid hpolicies hselected
      exact .inl ⟨_, hends, nofun⟩

/-- A pass that collects is one of the declared node, with policies from whose live outputs
something can be selected. -/
theorem selected_of_collected {uid : NodeUid} {node : NodeSpec} {m : Memory}
    {report : PurgeReport}
    (h : ((pass uid node).run (Memory.services .normal) m).ending =
      .returned (.collected report)) :
    uid.nodeId = node.id ∧ node.policies.isEmpty = false ∧ ∃ found,
      m.store.selected .passThrough (m.store.liveOutputs uid) node.policies = .ok found := by
  rcases ends_pass_cases uid node m with ⟨how, hends, hnot⟩ | ⟨hid, hpolicies, found, hselected, _⟩
  · exact absurd (hends.ending.symm.trans h) (hnot report)
  · exact ⟨hid, hpolicies, found, hselected⟩

end ArtifactGC
