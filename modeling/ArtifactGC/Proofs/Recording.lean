import ArtifactGC.Proofs.Settlement

/-!
# What recording changes

When the fates of artifacts are recorded, the artifacts that were removed or marked external become
deleted and nothing else changes. So the live outputs of every node are what they were, less the
artifacts that were marked.
-/

namespace ArtifactGC

/-- The artifacts that a purge marks deleted. -/
def PurgeReport.marked (report : PurgeReport) : List ArtifactId :=
  report.deleted ++ report.markedExternal

/-- Marked are the artifacts whose fate is not failure. -/
theorem mem_marked_reportOf {settled : List (Artifact × Fate)} {id : ArtifactId} :
    id ∈ (reportOf settled).marked ↔
      ∃ a fate, (a, fate) ∈ settled ∧ fate ≠ .failed ∧ a.id = id := by
  rw [PurgeReport.marked, reportOf, List.mem_append, mem_withFate, mem_withFate]
  constructor
  · rintro (⟨a, ha, hid⟩ | ⟨a, ha, hid⟩)
    · exact ⟨a, .deleted, ha, nofun, hid⟩
    · exact ⟨a, .markedExternal, ha, nofun, hid⟩
  · rintro ⟨a, fate, ha, hfate, hid⟩
    cases fate with
    | deleted => exact .inl ⟨a, ha, hid⟩
    | markedExternal => exact .inr ⟨a, ha, hid⟩
    | failed => exact absurd rfl hfate

/-- Only artifacts whose fate was settled are marked. -/
theorem mem_of_mem_marked {s : Storage} {as : List Artifact} {id : ArtifactId}
    (h : id ∈ (reportOf (s.settleAll as).1).marked) : id ∈ as.map (·.id) := by
  obtain ⟨a, fate, ha, _, rfl⟩ := mem_marked_reportOf.mp h
  have hmem : a ∈ (s.settleAll as).1.map (·.1) := List.mem_map_of_mem ha
  rw [Storage.map_fst_settleAll] at hmem
  exact List.mem_map_of_mem hmem

/-- A report lists every artifact whose fate is settled, and under one fate only. -/
theorem perm_reportOf (settled : List (Artifact × Fate)) :
    ((reportOf settled).marked ++ (reportOf settled).failed).Perm (settled.map (·.1.id)) := by
  induction settled with
  | nil => exact .nil
  | cons x settled ih =>
    obtain ⟨a, fate⟩ := x
    simp only [reportOf, PurgeReport.marked, withFate, List.map_cons] at ih ⊢
    refine List.Perm.trans ?_ (ih.cons a.id)
    cases fate with
    | deleted => simp
    | markedExternal => simp
    | failed =>
      simp only [reduceCtorEq, decide_false, decide_true, List.filter_cons, List.map_cons,
        Bool.false_eq_true, if_false, if_true]
      exact List.perm_middle

/-- The records that change are those of the marked artifacts. -/
theorem map_id_changedRecords {settled : List (Artifact × Fate)} {id : ArtifactId} :
    id ∈ (changedRecords settled).map (·.id) ↔ id ∈ (reportOf settled).marked := by
  rw [mem_marked_reportOf, List.mem_map]
  constructor
  · rintro ⟨r, hr, rfl⟩
    obtain ⟨a, fate, ha, hfate, rfl⟩ := mem_changedRecords.mp hr
    exact ⟨a, fate, ha, hfate, rfl⟩
  · rintro ⟨a, fate, ha, hfate, rfl⟩
    exact ⟨_, mem_changedRecords.mpr ⟨a, fate, ha, hfate, rfl⟩, rfl⟩

namespace Store

variable {s : Store} {settled : List (Artifact × Fate)} {id : ArtifactId} {e : Event}
  {uid : NodeUid} {key : String}

@[simp] theorem events_record : (s.record settled).events = s.events := by
  unfold record
  split <;> rfl

@[simp] theorem executions_record : (s.record settled).executions = s.executions := by
  unfold record
  split <;> rfl

/-- The artifact has a record that says that it is deleted. -/
def IsDeleted (s : Store) (id : ArtifactId) : Prop :=
  ∃ a, s.artifacts.find? id = some a ∧ a.state = .deleted

instance (s : Store) (id : ArtifactId) : Decidable (s.IsDeleted id) :=
  decidable_of_iff ((s.artifacts.find? id).any fun a => decide (a.state = .deleted))
    (by simp [IsDeleted, Option.any_eq_true])

/-- Artifacts that are not marked keep their records. -/
theorem find?_record_of_notMem (h : id ∉ (reportOf settled).marked) :
    (s.record settled).artifacts.find? id = s.artifacts.find? id := by
  unfold record
  split
  · rfl
  · exact Table.find?_upsertAll_of_notMem fun hid => h (map_id_changedRecords.mp hid)

/-- Artifacts that are marked are deleted. -/
theorem isDeleted_record_of_mem (h : id ∈ (reportOf settled).marked) :
    (s.record settled).IsDeleted id := by
  have hid := map_id_changedRecords.mpr h
  unfold record
  split
  · rename_i hnil
    rw [hnil] at hid
    cases hid
  · obtain ⟨r, hr, hfind⟩ := Table.find?_upsertAll_of_mem (t := s.artifacts) hid
    obtain ⟨a, _, _, _, rfl⟩ := mem_changedRecords.mp hr
    exact ⟨_, hfind, rfl⟩

/-- Deleted are the artifacts that are marked and those that were deleted before. -/
theorem isDeleted_record :
    (s.record settled).IsDeleted id ↔ id ∈ (reportOf settled).marked ∨ s.IsDeleted id := by
  by_cases h : id ∈ (reportOf settled).marked
  · exact iff_of_true (isDeleted_record_of_mem h) (.inl h)
  · rw [IsDeleted, find?_record_of_notMem h]
    exact ⟨.inr, fun hor => hor.resolve_left h⟩

/-- Live are the artifacts that were live and are not marked. -/
theorem live?_record :
    (s.record settled).live? id = if id ∈ (reportOf settled).marked then none else s.live? id := by
  split
  · rename_i h
    obtain ⟨a, hfind, hstate⟩ := isDeleted_record_of_mem (s := s) h
    rw [live?, hfind]
    simp [Option.filter, hstate]
  · rename_i h
    rw [live?, live?, find?_record_of_notMem h]

/-- Recording does not change what is in flight. -/
@[simp] theorem inFlight_record : (s.record settled).InFlight id ↔ s.InFlight id := by
  simp [InFlight, OfUnderWay]

/-- Recording does not change what dangles. -/
@[simp] theorem dangles_record {ids : List ArtifactId} :
    (s.record settled).Dangles ids e ↔ s.Dangles ids e := by
  simp [Dangles]

/-- The live outputs of a node are what they were, less the marked artifacts. -/
theorem outputs_record :
    (s.record settled).outputs uid key =
      (s.outputs uid key).filter fun a => a.id ∉ (reportOf settled).marked := by
  have hpublishes (e : Event) : (s.record settled).Publishes uid key e ↔ s.Publishes uid key e := by
    simp [Publishes, OfNode]
  have hlive (events : List Event) :
      events.filterMap (fun e => (s.record settled).live? e.artifactId) =
        (events.filterMap fun e => s.live? e.artifactId).filter
          fun a => decide (a.id ∉ (reportOf settled).marked) := by
    rw [List.filter_filterMap]
    congr 1
    funext e
    rw [live?_record]
    cases hfind : s.live? e.artifactId with
    | none => simp
    | some a =>
      have hid := id_of_live? hfind
      by_cases hmarked : e.artifactId ∈ (reportOf settled).marked <;>
        simp [Option.filter, hid, hmarked]
  have hevents : (s.record settled).events.filter
      (fun e => decide ((s.record settled).Publishes uid key e)) =
        s.events.filter fun e => decide (s.Publishes uid key e) := by
    rw [events_record]
    exact List.filter_congr fun e _ => decide_eq_decide.mpr (hpublishes e)
  rw [outputs, outputs, hevents, hlive]
  exact distinctOn_filter (fun id => decide (id ∉ (reportOf settled).marked)) _

end Store

/-- A pass does not report an artifact that is not planned, and leaves its record. -/
theorem unplanned_record_stays {uid : NodeUid} {node : NodeSpec} {m : Memory} {id : ArtifactId}
    (h : ∀ found, ((plan uid node).run (Memory.services .normal) m).ending = .returned found →
      id ∉ found.map (·.id)) :
    ((pass uid node).run (Memory.services .normal) m).state.store.artifacts.find? id =
        m.store.artifacts.find? id ∧
      ∀ report, ((pass uid node).run (Memory.services .normal) m).ending =
        .returned (.collected report) → id ∉ report.marked ∧ id ∉ report.failed := by
  rcases ends_pass_cases uid node m with ⟨how, hends, hnot⟩ | ⟨hid, _, found, hselected, hends⟩
  · rw [hends.ending, hends.state]
    exact ⟨rfl, fun report hreport => absurd hreport (hnot report)⟩
  · have hunplanned : id ∉ found.map (·.id) := h found (by rw [ending_of_plan hid, hselected]; rfl)
    have hfate (fate : Fate) : id ∉ withFate fate (m.storage.settleAll found).1 := by
      intro hmem
      obtain ⟨a, ha, rfl⟩ := mem_withFate.mp hmem
      exact hunplanned (List.mem_map_of_mem (Storage.mem_of_mem_settleAll ha))
    have hmarked : id ∉ (reportOf (m.storage.settleAll found).1).marked := fun hmem =>
      (List.mem_append.mp hmem).elim (hfate .deleted) (hfate .markedExternal)
    rw [hends.ending, hends.state]
    refine ⟨Store.find?_record_of_notMem hmarked, ?_⟩
    rintro report ⟨⟩
    exact ⟨hmarked, hfate .failed⟩

end ArtifactGC
