import ArtifactGC.Proofs.Recording

/-!
# Marking artifacts deleted

A purge of stored artifacts changes a store in one way only: some artifacts are marked deleted, and
a batch is counted if there are any. So a store after several purges does not depend on their
order. The main statements are `marks_put` and `record_eq_mark`, which say what a batch and what
recording does, and `mark_comm`.
-/

namespace ArtifactGC

namespace Artifact

variable {ids ids' : List ArtifactId} {a : Artifact}

/-- The record of an artifact after some artifacts are marked deleted. -/
def markedIn (ids : List ArtifactId) (a : Artifact) : Artifact :=
  if a.id ∈ ids then { a with state := .deleted } else a

@[simp] theorem id_markedIn (ids : List ArtifactId) (a : Artifact) :
    (a.markedIn ids).id = a.id := by
  unfold markedIn
  split <;> rfl

@[simp] theorem markedIn_nil : a.markedIn [] = a := by simp [markedIn]

theorem markedIn_of_mem (h : a.id ∈ ids) : a.markedIn ids = { a with state := .deleted } :=
  if_pos h

theorem markedIn_of_notMem (h : a.id ∉ ids) : a.markedIn ids = a := if_neg h

/-- Whoever is marked first or second is marked. -/
theorem markedIn_markedIn : (a.markedIn ids).markedIn ids' = a.markedIn (ids ++ ids') := by
  by_cases h : a.id ∈ ids <;> by_cases h' : a.id ∈ ids' <;> simp [markedIn, h, h']

/-- Nothing but the state of a record changes. -/
theorem deleted_markedIn :
    { a.markedIn ids with state := .deleted } = { a with state := .deleted } := by
  unfold markedIn
  split <;> rfl

/-- Only the state of a record changes, and only to deleted. -/
theorem state_markedIn : (a.markedIn ids).state = .live ↔ a.state = .live ∧ a.id ∉ ids := by
  by_cases h : a.id ∈ ids
  · simp [markedIn_of_mem h, h]
  · simp [markedIn_of_notMem h, h]

end Artifact

namespace Store

variable {s : Store} {ids ids' : List ArtifactId} {id : ArtifactId}

/-- The store after some artifacts are marked deleted, in one batch if there are any. -/
def mark (s : Store) (ids : List ArtifactId) : Store :=
  if ids = [] then s
  else
    { s with
      artifacts := s.artifacts.mapRecords (.markedIn ids) (Artifact.id_markedIn ids)
      batches := s.batches + 1 }

@[simp] theorem mark_nil (s : Store) : s.mark [] = s := rfl

@[simp] theorem events_mark : (s.mark ids).events = s.events := by
  unfold mark
  split <;> rfl

@[simp] theorem executions_mark : (s.mark ids).executions = s.executions := by
  unfold mark
  split <;> rfl

/-- Every record is kept, marked where it is one of those. -/
@[simp] theorem artifacts_mark : (s.mark ids).artifacts =
    s.artifacts.mapRecords (.markedIn ids) (Artifact.id_markedIn ids) := by
  unfold mark
  split
  · rename_i hnil
    subst hnil
    have hid : Artifact.markedIn [] = id := funext fun _ => Artifact.markedIn_nil
    exact Table.ext (by simp [Table.mapRecords, hid])
  · rfl

/-- Artifacts that are not marked keep their records. -/
theorem find?_mark_of_notMem (h : id ∉ ids) :
    (s.mark ids).artifacts.find? id = s.artifacts.find? id := by
  rw [artifacts_mark, Table.find?_mapRecords]
  cases hfind : s.artifacts.find? id with
  | none => rfl
  | some a =>
    have hid : a.id = id := Table.key_of_find? hfind
    rw [Option.map_some, Artifact.markedIn_of_notMem (hid ▸ h)]

/-- It makes no difference which artifacts are marked first. -/
theorem mark_comm : (s.mark ids).mark ids' = (s.mark ids').mark ids := by
  by_cases h : ids = []
  · rw [h, mark_nil, mark_nil]
  · by_cases h' : ids' = []
    · rw [h', mark_nil, mark_nil]
    · have hmarked (a : Artifact) :
          (a.markedIn ids).markedIn ids' = (a.markedIn ids').markedIn ids := by
        rw [Artifact.markedIn_markedIn, Artifact.markedIn_markedIn]
        simp only [Artifact.markedIn, List.mem_append, or_comm]
      simp only [mark, if_neg h, if_neg h', mk.injEq, and_self, and_true]
      exact Table.ext (by simp [Table.mapRecords, hmarked])

/-- The store after several batches mark some artifacts deleted, one batch after another. -/
def markAll (s : Store) (batches : List (List ArtifactId)) : Store := batches.foldl mark s

theorem markAll_append (batches batches' : List (List ArtifactId)) :
    s.markAll (batches ++ batches') = (s.markAll batches).markAll batches' := List.foldl_append

@[simp] theorem events_markAll (batches : List (List ArtifactId)) :
    (s.markAll batches).events = s.events := by
  induction batches generalizing s with
  | nil => rfl
  | cons ids batches ih => exact ih.trans events_mark

@[simp] theorem executions_markAll (batches : List (List ArtifactId)) :
    (s.markAll batches).executions = s.executions := by
  induction batches generalizing s with
  | nil => rfl
  | cons ids batches ih => exact ih.trans executions_mark

/-- Artifacts that are in no batch keep their records. -/
theorem find?_markAll_of_notMem {batches : List (List ArtifactId)}
    (h : ∀ ids ∈ batches, id ∉ ids) :
    (s.markAll batches).artifacts.find? id = s.artifacts.find? id := by
  induction batches generalizing s with
  | nil => rfl
  | cons ids batches ih =>
    obtain ⟨hids, hbatches⟩ := List.forall_mem_cons.mp h
    exact (ih hbatches).trans (find?_mark_of_notMem hids)

/-- The order of the batches makes no difference. -/
theorem markAll_of_perm {batches batches' : List (List ArtifactId)}
    (h : batches.Perm batches') : s.markAll batches = s.markAll batches' :=
  h.foldl_eq' (fun _ _ _ _ _ => mark_comm) s

/-- Only which artifacts are marked matters. -/
theorem mapRecords_markedIn_congr (h : ∀ id, id ∈ ids ↔ id ∈ ids') :
    s.artifacts.mapRecords (.markedIn ids) (Artifact.id_markedIn ids) =
      s.artifacts.mapRecords (.markedIn ids') (Artifact.id_markedIn ids') := by
  have hmarked : Artifact.markedIn ids = Artifact.markedIn ids' :=
    funext fun a => by simp only [Artifact.markedIn, h a.id]
  exact Table.ext (congrArg (s.artifacts.records.map ·) hmarked)

/-- The second store is the first one with some artifacts marked deleted. -/
structure Marks (s : Store) (ids : List ArtifactId) (s' : Store) : Prop where
  /-- No event changes. -/
  events : s'.events = s.events
  /-- No execution changes. -/
  executions : s'.executions = s.executions
  /-- Every record is kept at its place, marked where it is one of those. -/
  artifacts : s'.artifacts = s.artifacts.mapRecords (.markedIn ids) (Artifact.id_markedIn ids)

/-- To write records of stored artifacts, marked deleted, is to mark these artifacts. -/
theorem marks_put {batch : List Artifact}
    (h : ∀ r ∈ batch, ∃ a, s.artifacts.find? r.id = some a ∧ r = { a with state := .deleted }) :
    s.Marks (batch.map (·.id)) (s.put batch) := by
  refine ⟨rfl, rfl, Table.ext_find? ?_ fun id => ?_⟩
  · rw [Table.keys_mapRecords]
    refine Table.keys_upsertAll fun r hr => ?_
    obtain ⟨a, hfind, rfl⟩ := h r hr
    exact List.mem_map_of_mem (f := (·.id)) (Table.find?_eq_some.mp hfind).1
  · rw [Table.find?_mapRecords]
    by_cases hid : id ∈ batch.map (·.id)
    · obtain ⟨r, hr, hfind⟩ := Table.find?_upsertAll_of_mem (t := s.artifacts) hid
      obtain ⟨a, hstored, rfl⟩ := h r hr
      have hmarked : ({ a with state := .deleted } : Artifact).id = id := Table.key_of_find? hfind
      have hsame : a.id = id := hmarked
      have hstored : s.artifacts.find? id = some a := hsame ▸ hstored
      exact hfind.trans (by rw [hstored, Option.map_some, Artifact.markedIn_of_mem (hsame ▸ hid)])
    · have hkept := find?_mark_of_notMem (s := s) hid
      rw [artifacts_mark, Table.find?_mapRecords] at hkept
      exact (Table.find?_upsertAll_of_notMem hid).trans hkept.symm

/-- To record the fates of stored artifacts is to mark those that the report lists as deleted or
external. -/
theorem record_eq_mark {settled : List (Artifact × Fate)}
    (h : ∀ x ∈ settled, s.artifacts.find? x.1.id = some x.1) :
    s.record settled = s.mark (reportOf settled).marked := by
  have hnil : changedRecords settled = [] ↔ (reportOf settled).marked = [] := by
    rw [← List.map_eq_nil_iff (f := (·.id)), List.eq_nil_iff_forall_not_mem,
      List.eq_nil_iff_forall_not_mem]
    simp only [map_id_changedRecords]
  have hstored : ∀ r ∈ changedRecords settled,
      ∃ a, s.artifacts.find? r.id = some a ∧ r = { a with state := .deleted } := by
    intro r hr
    obtain ⟨a, fate, ha, _, rfl⟩ := mem_changedRecords.mp hr
    exact ⟨a, h _ ha, rfl⟩
  by_cases hmarked : (reportOf settled).marked = []
  · rw [record, if_pos (hnil.mpr hmarked), hmarked, mark_nil]
  · rw [record, if_neg (mt hnil.mp hmarked), mark, if_neg hmarked, put]
    congr 1
    exact (marks_put hstored).artifacts.trans
      (mapRecords_markedIn_congr fun _ => map_id_changedRecords)

namespace Marks

variable {s' s'' : Store}

theorem refl (s : Store) : s.Marks [] s := ⟨rfl, rfl, @artifacts_mark s []⟩

/-- Only which artifacts are marked matters. -/
theorem congr (h : s.Marks ids s') (hids : ∀ id, id ∈ ids ↔ id ∈ ids') : s.Marks ids' s' :=
  ⟨h.events, h.executions, h.artifacts.trans (mapRecords_markedIn_congr hids)⟩

/-- The order and the set of the identifiers stay. -/
theorem keys (h : s.Marks ids s') : s'.artifacts.keys = s.artifacts.keys := by
  rw [h.artifacts, Table.keys_mapRecords]

/-- A record is found with its state changed if the artifact is marked. -/
theorem find?_eq (h : s.Marks ids s') :
    s'.artifacts.find? id = (s.artifacts.find? id).map (.markedIn ids) := by
  rw [h.artifacts, Table.find?_mapRecords]

/-- Live are the artifacts that were live and are not marked. -/
theorem live?_eq (h : s.Marks ids s') :
    s'.live? id = if id ∈ ids then none else s.live? id := by
  rw [live?, live?, h.find?_eq]
  cases hfind : s.artifacts.find? id with
  | none => simp
  | some a =>
    have hid : a.id = id := Table.key_of_find? hfind
    by_cases hmem : id ∈ ids
    · simp [Option.filter, Artifact.state_markedIn, hid, hmem]
    · rw [if_neg hmem, Option.map_some, Artifact.markedIn_of_notMem (hid ▸ hmem)]

/-- What is live was live and is not marked. -/
theorem live_of_live (h : s.Marks ids s') {a : Artifact} (hlive : s'.live? id = some a) :
    id ∉ ids ∧ s.live? id = some a := by
  rw [h.live?_eq] at hlive
  split at hlive
  · cases hlive
  · exact ⟨‹_›, hlive⟩

/-- What is deleted stays deleted. -/
theorem isDeleted (h : s.Marks ids s') (hdeleted : s.IsDeleted id) : s'.IsDeleted id := by
  obtain ⟨a, hfind, hstate⟩ := hdeleted
  refine ⟨a.markedIn ids, by rw [h.find?_eq, hfind, Option.map_some], ?_⟩
  by_cases hmem : a.id ∈ ids
  · rw [Artifact.markedIn_of_mem hmem]
  · rw [Artifact.markedIn_of_notMem hmem, hstate]

/-- What was live and is deleted was marked. -/
theorem mem_of_isDeleted (h : s.Marks ids s') {a : Artifact} (hlive : s.live? id = some a)
    (hdeleted : s'.IsDeleted id) : id ∈ ids := by
  by_contra hmem
  obtain ⟨b, hfind, hstate⟩ := hdeleted
  have hstill : s'.live? id = some a := by rw [h.live?_eq, if_neg hmem, hlive]
  obtain ⟨hfind', hstate'⟩ := live?_eq_some.mp hstill
  rw [hfind] at hfind'
  obtain rfl := Option.some.inj hfind'
  rw [hstate] at hstate'
  cases hstate'

/-- Artifacts that are marked one after another are all marked. -/
theorem trans (h : s.Marks ids s') (h' : s'.Marks ids' s'') : s.Marks (ids ++ ids') s'' where
  events := h'.events.trans h.events
  executions := h'.executions.trans h.executions
  artifacts := by
    rw [h'.artifacts, h.artifacts]
    exact Table.ext (by simp [Table.mapRecords, Artifact.markedIn_markedIn])

end Marks

end Store

end ArtifactGC
