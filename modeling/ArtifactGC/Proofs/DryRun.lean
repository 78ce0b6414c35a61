import ArtifactGC.Proofs.Effects
import ArtifactGC.Proofs.Neighbours

/-!
# A plan is a dry run

With a store that works and a filter that answers candidates as it was asked about them, a plan
foretells the pass: the pass is given up with the failure of the plan, or it reports on exactly the
artifacts that the plan lists and changes the records of those that it marks. `pass_follows_plan`
says so.
-/

namespace ArtifactGC

/-- A report says of each of some artifacts, and of no other one, what became of it, and keeps their
order. External are those that are owned outside the pipeline. -/
structure PurgeReport.AccountsFor (report : PurgeReport) (found : List Artifact) : Prop where
  /-- Deleted artifacts are listed in their order. -/
  deleted : report.deleted.Sublist (found.map (·.id))
  /-- External artifacts are those that are owned outside the pipeline, in their order. -/
  markedExternal : report.markedExternal = (found.filter (·.isExternal)).map (·.id)
  /-- Failed artifacts are listed in their order. -/
  failed : report.failed.Sublist (found.map (·.id))
  /-- No artifact is listed twice, be it in one list or in two. -/
  nodup : (report.deleted ++ report.markedExternal ++ report.failed).Nodup
  /-- All artifacts are listed. -/
  perm : (report.deleted ++ report.markedExternal ++ report.failed).Perm (found.map (·.id))

/-- A report on fates that are settled in memory accounts for the artifacts. -/
theorem accountsFor_reportOf (s : Storage) {found : List Artifact}
    (hnodup : (found.map (·.id)).Nodup) :
    (reportOf (s.settleAll found).1).AccountsFor found := by
  have hsub (fate : Fate) : (withFate fate (s.settleAll found).1).Sublist (found.map (·.id)) := by
    rw [← s.map_id_settleAll found]
    exact List.filter_sublist.map _
  have hperm := perm_reportOf (s.settleAll found).1
  rw [s.map_id_settleAll] at hperm
  have hexternal : withFate .markedExternal (s.settleAll found).1 =
      (found.filter (·.isExternal)).map (·.id) := by
    have hfate : (s.settleAll found).1.filter (fun x => decide (x.2 = .markedExternal)) =
        (s.settleAll found).1.filter fun x => x.1.isExternal :=
      List.filter_congr fun x hx => by
        rw [Bool.eq_iff_iff, decide_eq_true_eq]
        exact Storage.isExternal_of_settleAll hx
    have hfound : found.filter (·.isExternal) =
        ((s.settleAll found).1.filter fun x => x.1.isExternal).map (·.1) := by
      conv_lhs => rw [← s.map_fst_settleAll found]
      exact List.filter_map
    rw [withFate, hfate, hfound, List.map_map]
    rfl
  exact ⟨hsub .deleted, hexternal, hsub .failed, hperm.nodup_iff.mpr hnodup, hperm⟩

/-- Let the store work, and let the filter answer candidates as it was asked about them. Then a plan
of the declared node changes nothing, and the pass does what is planned. Where the plan fails, the
pass is given up with that failure. Where the plan lists artifacts, the pass has no policy, or it
accounts for exactly these artifacts and marks those that it reports as deleted or external. -/
theorem pass_follows_plan (groups : GroupFilter) (hgroups : groups.PreservesRecords)
    (uid : NodeUid) (node : NodeSpec) (m : Memory) (hid : uid.nodeId = node.id) :
    let services := Memory.services (.filtering groups)
    let planned := (plan uid node).run services m
    let passed := (pass uid node).run services m
    planned.state = m ∧
    ((∃ e, planned.ending = .failed e ∧ passed.ending = .returned (.aborted e.kind e.message) ∧
        passed.state = m) ∨
      ∃ found, planned.ending = .returned found ∧
        ((node.policies.isEmpty = true ∧ passed.ending = .returned .noPolicy ∧ passed.state = m) ∨
          node.policies.isEmpty = false ∧ ∃ report,
            passed.ending = .returned (.collected report) ∧ report.AccountsFor found ∧
            passed.state.store = m.store.mark report.marked)) := by
  intro services planned passed
  cases hpolicies : node.policies.isEmpty with
  | true =>
    have hplanned : planned = (Procedure.returned []).run services m :=
      congrArg (fun p => p.run services m) (plan_of_isEmpty hid hpolicies)
    have hpassed : passed = (Procedure.returned .noPolicy).run services m :=
      congrArg (fun p => p.run services m) (pass_of_isEmpty hid hpolicies)
    rw [hplanned, hpassed]
    exact ⟨rfl, .inr ⟨[], rfl, .inl ⟨rfl, rfl, rfl⟩⟩⟩
  | false =>
    have hending : planned.ending = .ofExcept
        (m.store.selected groups (m.store.liveOutputs uid) node.policies) :=
      ending_of_plan_filtering hid
    obtain ⟨hstate, hpass⟩ := ends_pass_of_plan (c := .filtering groups) rfl hgroups hid hpolicies m
    have hpass : passed.Ends (m.purgeFound (.filtering groups) planned.ending).1.toOutcome
        (m.purgeFound (.filtering groups) planned.ending).2 := hpass
    refine ⟨hstate, ?_⟩
    cases hselected : m.store.selected groups (m.store.liveOutputs uid) node.policies with
    | error e =>
      have hfailed : planned.ending = .failed e := by rw [hending, hselected]; rfl
      rw [hfailed] at hpass ⊢
      exact .inl ⟨e, rfl, hpass.ending, hpass.state⟩
    | ok found =>
      have hfound : planned.ending = .returned found := by rw [hending, hselected]; rfl
      have hlists : m.store.Lists uid found := lists_of_plan rfl hgroups hfound
      have hstore := (hlists.purged (c := .filtering groups)).store
      rw [hfound] at hpass ⊢
      rw [Memory.purgeFound] at hpass
      rw [Memory.purge_of_written rfl] at hpass hstore
      refine .inr ⟨found, rfl, .inr ⟨rfl, _, hpass.ending, ?_, ?_⟩⟩
      · exact accountsFor_reportOf m.storage hlists.nodup
      · rw [hpass.state]
        exact hstore

/-- A filter turns the candidates around and names each twice. Of the three planned models the pass
deletes one, marks the external one, and fails to remove the protected one. -/
theorem trainer_pass_follows_plan :
    let groups : GroupFilter := fun _ cs => .ok (cs.reverse ++ cs)
    let external := (model 1 "/1").markExternal
    let m : Memory := ⟨.ofModels [external, model 2 "/2", model 3 "/3", model 4 "/4"],
      ((Storage.empty.addFile "/2").addFile "/3").protect "/2"⟩
    let spec := trainerSpec (.ofRecency 1)
    groups.PreservesRecords ∧ trainer.nodeId = spec.id ∧
      ((plan trainer spec).run (Memory.services (.filtering groups)) m).ending =
        .returned [model 3 "/3", model 2 "/2", external] ∧
      ((pass trainer spec).run (Memory.services (.filtering groups)) m).ending =
        .returned (.collected ⟨[⟨3⟩], [⟨1⟩], [⟨2⟩]⟩) ∧
      (⟨[⟨3⟩], [⟨1⟩], [⟨2⟩]⟩ : PurgeReport).AccountsFor [model 3 "/3", model 2 "/2", external] ∧
      ((pass trainer spec).run (Memory.services (.filtering groups)) m).state.store =
        m.store.mark [⟨3⟩, ⟨1⟩] := by
  intro groups external m spec
  have hgroups : groups.PreservesRecords := by
    rintro usage cs _ ⟨⟩ a ha _
    simpa using ha
  have hid : trainer.nodeId = spec.id := by decide +kernel
  have hplanned : ((plan trainer spec).run (Memory.services (.filtering groups)) m).ending =
      .returned [model 3 "/3", model 2 "/2", external] := by decide +kernel
  have hpassed : ((pass trainer spec).run (Memory.services (.filtering groups)) m).ending =
      .returned (.collected ⟨[⟨3⟩], [⟨1⟩], [⟨2⟩]⟩) := by decide +kernel
  obtain ⟨_, ⟨e, hfailed, _⟩ | ⟨found, hfound, hrest⟩⟩ :=
    pass_follows_plan groups hgroups trainer spec m hid
  · rw [hplanned] at hfailed
    cases hfailed
  · rw [hplanned] at hfound
    obtain rfl := Ending.returned.inj hfound
    rcases hrest with ⟨_, hnone, _⟩ | ⟨_, report, hreport, haccounts, hstore⟩
    · rw [hpassed] at hnone
      cases hnone
    · rw [hpassed] at hreport
      obtain rfl := Outcome.collected.inj (Ending.returned.inj hreport)
      have hmarked : (⟨[⟨3⟩], [⟨1⟩], [⟨2⟩]⟩ : PurgeReport).marked = [⟨3⟩, ⟨1⟩] := rfl
      rw [hmarked] at hstore
      exact ⟨hgroups, hid, hplanned, hpassed, haccounts, hstore⟩

end ArtifactGC
