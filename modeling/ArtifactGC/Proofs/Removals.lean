import ArtifactGC.Proofs.Neighbours

/-!
# What a purge removes from storage

A purge in memory reports what storage looks like afterwards. `contains_settleAll_of_deleted` says
that nothing is left at the location of an artifact that is reported as deleted, be it removed,
vanished, or taken with a directory above it. What is lost lies at the locations of the purged
artifacts or below them, and the record of removals grows by those that were answered with success,
which `removed_run` says of every procedure. `purge_removes_what_it_reports` puts this together.
-/

namespace ArtifactGC

/-! ## Locations of deleted artifacts -/

namespace Storage

variable {s : Storage} {a : Artifact} {as : List Artifact}

/-- Nothing is left at the location of an artifact that is deleted. -/
theorem contains_settle_of_deleted (h : (s.settle a).1 = .deleted) :
    (s.settle a).2.contains a.uri = false := by
  unfold settle at h ⊢
  split at h
  · cases h
  · rename_i hexternal
    rw [if_neg hexternal]
    obtain ⟨removed, hclear⟩ := clear_eq s a.uri
    rw [hclear] at h ⊢
    cases hanswer : s.clearAnswer a.uri with
    | ok _ => exact contains_cleared hanswer
    | error e =>
      -- the removal fails, and the check that follows finds nothing
      rw [hanswer] at h
      simp only [fateAfter, isPresent] at h
      split at h
      · rename_i hpresent
        split at hpresent
        · cases hpresent
        · exact Except.ok.inj hpresent
      · cases h

/-- Nothing is left at the location of a deleted artifact when others are settled after it. -/
theorem contains_settleAll_of_deleted (h : (a, .deleted) ∈ (s.settleAll as).1) :
    (s.settleAll as).2.contains a.uri = false := by
  induction as generalizing s with
  | nil => cases h
  | cons b bs ih =>
    rcases List.mem_cons.mp h with heq | hmem
    · obtain ⟨rfl, hfate⟩ := Prod.mk.inj heq
      have hgone := contains_settle_of_deleted hfate.symm
      rw [← Bool.not_eq_true] at hgone ⊢
      exact fun hcontains => hgone ((leftOf_settleAll _ bs).contains hcontains)
    · exact ih hmem

/-- Where a directory is gone, nothing is left below it. -/
theorem LeftOf.not_contains_below {rest : Storage} {uri path : String} (h : rest.LeftOf s)
    (hdirectory : uri ∈ s.directories) (hgone : rest.contains uri = false)
    (hbelow : (uri ++ "/").toList <+: path.toList) : rest.contains path = false := by
  have hnot : uri ∉ rest.directories := fun hmem => by
    rw [contains_iff.mpr (.inr hmem)] at hgone
    cases hgone
  rw [← Bool.not_eq_true]
  intro hcontains
  have hwithin := h.whole uri hdirectory hnot path hcontains
  rw [isWithin_iff.mpr (.inr hbelow)] at hwithin
  cases hwithin

end Storage

/-! ## The record of removals -/

/-- The location whose removal was answered with success. -/
def Exchange.removed? : Exchange → Option String
  | ⟨.remove uri, some (.ok _)⟩ => some uri
  | ⟨.removeRecursive uri, some (.ok _)⟩ => some uri
  | _ => none

section Record

variable {c : Conditions}

/-- Nothing but a removal with success is recorded. -/
theorem Storage.removed_remove (s : Storage) (uri : String) :
    (s.remove uri).2.removed =
      s.removed ++ (Exchange.removed? ⟨.remove uri, some (s.remove uri).1⟩).toList := by
  unfold remove plannedFailure?
  split_ifs <;> simp [Exchange.removed?, recordRemoval, dropTree]

/-- Nothing but a removal of a directory with success is recorded. -/
theorem Storage.removed_removeRecursive (s : Storage) (uri : String) :
    (s.removeRecursive uri).2.removed = s.removed ++
      (Exchange.removed? ⟨.removeRecursive uri, some (s.removeRecursive uri).1⟩).toList := by
  unfold removeRecursive plannedFailure?
  split_ifs <;> simp [Exchange.removed?, recordRemoval, dropTree]

/-- An answer records the removal that it reports. -/
theorem removed_answer (request : Request) (m : Memory) :
    ((Memory.services c).answer request m).2.storage.removed = m.storage.removed ++
      (Exchange.removed? ⟨request, ((Memory.services c).answer request m).1⟩).toList := by
  have hstore {α : Type} (fault : Option StoreFault) (answer : α) (after : Memory)
      (hafter : after.storage = m.storage) :
      (Memory.underFault fault answer m after).2.storage.removed = m.storage.removed := by
    rcases Memory.underFault_state fault answer m after with h | h <;> rw [h]
    rw [hafter]
  cases request with
  | remove uri => exact m.storage.removed_remove uri
  | removeRecursive uri => exact m.storage.removed_removeRecursive uri
  | liveOutputs node => exact (hstore _ _ m rfl).trans (List.append_nil _).symm
  | events ids => exact (hstore _ _ m rfl).trans (List.append_nil _).symm
  | executions ids => exact (hstore _ _ m rfl).trans (List.append_nil _).symm
  | put batch =>
    have hput := hstore (c.fault .put) () { m with store := m.store.put batch } rfl
    exact hput.trans (List.append_nil _).symm
  | unusedInGroups | isDirectory | isPresent => exact (List.append_nil _).symm

/-- Whatever is run in memory, the removals that are answered with success are recorded, in the
order in which they are asked for, and no others. -/
theorem removed_run {α : Type} (p : Procedure α) (m : Memory) :
    let run := p.run (Memory.services c) m
    run.state.storage.removed = m.storage.removed ++ run.exchanges.filterMap (·.removed?) := by
  induction p generalizing m with
  | returned a => exact (List.append_nil _).symm
  | failed e => exact (List.append_nil _).symm
  | note entry rest ih => exact ih m
  | ask request next ih =>
    have hanswer := removed_answer (c := c) request m
    rw [Procedure.run]
    rcases heq : (Memory.services c).answer request m with ⟨_ | answer, m'⟩ <;> rw [heq] at hanswer
    · simpa [List.filterMap_cons, Exchange.removed?] using hanswer
    · dsimp only [Run.after] at hanswer ⊢
      rw [ih answer m', hanswer, List.append_assoc, List.singleton_append, List.filterMap_cons]
      cases Exchange.removed? ⟨request, some answer⟩ <;> rfl

end Record

/-! ## Purges -/

/-- Artifacts that are not live make no difference to a purge. -/
theorem purge_filter_isLive (as : List Artifact) : purge (as.filter (·.isLive)) = purge as := by
  have hlive : (as.filter (·.isLive)).filter (·.isLive) = as.filter (·.isLive) :=
    List.filter_eq_self.mpr fun a ha => (List.mem_filter.mp ha).2
  unfold purge
  rw [hlive]

section Purges

variable (c : Conditions) (m : Memory) (as : List Artifact)

/-- A purge in memory settles the fates of the live artifacts that it is given. -/
theorem ends_purge_in_memory : ((purge as).run (Memory.services c) m).Ends
    (m.purge c (as.filter (·.isLive))).1 (m.purge c (as.filter (·.isLive))).2 := by
  rw [← purge_filter_isLive as]
  exact ends_purge_of_live (fun a ha => (List.mem_filter.mp ha).2) m

/-- However a purge ends, storage is left as the fates of its artifacts are settled. -/
theorem Memory.storage_purge : (m.purge c as).2.storage = (m.storage.settleAll as).2 := by
  rcases m.purge_cases c as with h | ⟨how, h, _⟩ <;> rw [h]

/-- A purge that comes to its end reports the fates of its artifacts. -/
theorem Memory.report_purge {report : PurgeReport} (h : (m.purge c as).1 = .returned report) :
    report = reportOf (m.storage.settleAll as).1 := by
  rcases m.purge_cases c as with hpurge | ⟨how, hpurge, hnot⟩
  · rw [hpurge] at h
    exact (Ending.returned.inj h).symm
  · rw [hpurge] at h
    exact absurd h (hnot report)

/-- A purge in memory, of artifacts with different identifiers, has a report unless something goes
wrong when the records are written. There is neither a file nor a directory at the location of an
artifact that is reported as deleted, and if there was a directory, there is nothing below it. What
is lost from storage was at the location of a live artifact that is not owned outside the pipeline,
or below it; nothing is added, and the failures that are set up stay. The record of removals grows
by exactly the locations whose removal was answered with success, in the order of the requests. -/
theorem purge_removes_what_it_reports (hids : (as.map (·.id)).Nodup) :
    let run := (purge as).run (Memory.services c) m
    let before := m.storage
    let after := run.state.storage
    (c.fault .put = none → ∃ report, run.ending = .returned report) ∧
    (∀ report, run.ending = .returned report → ∀ a ∈ as, a.id ∈ report.deleted →
      (a.uri ∉ after.files ∧ a.uri ∉ after.directories) ∧
      (a.uri ∈ before.directories → ∀ path, (a.uri ++ "/").toList <+: path.toList →
        path ∉ after.files ∧ path ∉ after.directories)) ∧
    (∀ path, path ∈ before.files ∧ path ∉ after.files ∨
        path ∈ before.directories ∧ path ∉ after.directories →
      ∃ a ∈ as, a.isLive = true ∧ a.isExternal = false ∧
        (path = a.uri ∨ (a.uri ++ "/").toList <+: path.toList)) ∧
    (after.files ⊆ before.files ∧ after.directories ⊆ before.directories) ∧
    (after.protectedUris = before.protectedUris ∧ after.vanishingUris = before.vanishingUris ∧
      after.uncheckableUris = before.uncheckableUris ∧
      after.unstatableUris = before.unstatableUris) ∧
    after.removed = before.removed ++ run.exchanges.filterMap (·.removed?) := by
  intro run before after
  have hends := ends_purge_in_memory c m as
  have hafter : after = (before.settleAll (as.filter (·.isLive))).2 :=
    (congrArg Memory.storage hends.state).trans (m.storage_purge c _)
  have hleft : after.LeftOf before := hafter ▸ Storage.leftOf_settleAll before _
  refine ⟨fun hput => ?_, fun report hreport a ha hdeleted => ?_, fun path hlost => ?_,
    ⟨hleft.files, hleft.directories⟩, ⟨hleft.protectedUris, hleft.vanishingUris,
      hleft.uncheckableUris, hleft.unstatableUris⟩, removed_run (purge as) m⟩
  · have hending := hends.ending
    rw [Memory.purge_of_written hput] at hending
    exact ⟨_, hending⟩
  · rw [m.report_purge c _ (hends.ending.symm.trans hreport)] at hdeleted
    obtain ⟨b, hb, hid⟩ := mem_withFate.mp hdeleted
    -- the identifiers differ, so it is the artifact itself that is deleted
    have hmem : b ∈ as := (List.mem_filter.mp (Storage.mem_of_mem_settleAll hb)).1
    obtain rfl : b = a := List.inj_on_of_nodup_map hids hmem ha hid
    have hgone : after.contains b.uri = false := by
      rw [hafter]
      exact Storage.contains_settleAll_of_deleted hb
    have hnothing {path : String} (h : after.contains path = false) :
        path ∉ after.files ∧ path ∉ after.directories := by
      rw [← Bool.not_eq_true, Storage.contains_iff, not_or] at h
      exact h
    exact ⟨hnothing hgone, fun hdirectory path hbelow =>
      hnothing (hleft.not_contains_below hdirectory hgone hbelow)⟩
  · have htaken (directory : Bool) (hbefore : path ∈ before.locations directory)
        (hnot : path ∉ after.locations directory) :
        ∃ a ∈ as, a.isLive = true ∧ a.isExternal = false ∧
          (path = a.uri ∨ (a.uri ++ "/").toList <+: path.toList) := by
      by_contra hnone
      rw [hafter, Storage.mem_locations_settleAll] at hnot
      refine hnot ⟨hbefore, fun a ha hexternal htakes => hnone ?_⟩
      obtain ⟨hmem, hlive⟩ := List.mem_filter.mp ha
      exact ⟨a, hmem, hlive, hexternal, Storage.isWithin_iff.mp htakes.isWithin⟩
    rcases hlost with ⟨hbefore, hnot⟩ | ⟨hbefore, hnot⟩
    · exact htaken false hbefore hnot
    · exact htaken true hbefore hnot

end Purges

/-- A protected file is left when it is to be removed, and goes with its directory after that. A
file that vanishes is deleted without a record of its removal, and a file beside the directory
stays. -/
theorem protected_file_goes_with_directory :
    let storage := ((Storage.empty.addDirectory "/run").addFile "/run/a").addFile "/run-v2"
      |>.addFile "/old" |>.protect "/run/a" |>.vanishOnRemove "/old"
    let models := [model 1 "/run/a", model 2 "/run", model 3 "/old"]
    let run := (purge models).run (Memory.services .normal) ⟨.empty, storage⟩
    (models.map (·.id)).Nodup ∧ run.ending = .returned ⟨[⟨2⟩, ⟨3⟩], [], [⟨1⟩]⟩ ∧
      ("/run" ∉ run.state.storage.directories ∧ "/run/a" ∉ run.state.storage.files) ∧
      run.state.storage.files = ["/run-v2"] ∧ run.state.storage.protectedUris = ["/run/a"] ∧
      run.state.storage.removed = ["/run"] := by
  intro storage models run
  have hids : (models.map (·.id)).Nodup := by decide +kernel
  have hending : run.ending = .returned ⟨[⟨2⟩, ⟨3⟩], [], [⟨1⟩]⟩ := by decide +kernel
  obtain ⟨_, hgone, _, _, ⟨hprotected, _⟩, hremoved⟩ :=
    purge_removes_what_it_reports .normal ⟨.empty, storage⟩ models hids
  obtain ⟨⟨_, hrun⟩, hbelow⟩ := hgone _ hending (model 2 "/run") (by decide) (by decide)
  have hfile := (hbelow (by decide +kernel) "/run/a" (by decide +kernel)).1
  exact ⟨hids, hending, ⟨hrun, hfile⟩, by decide +kernel, hprotected,
    hremoved.trans (by decide +kernel)⟩

end ArtifactGC
