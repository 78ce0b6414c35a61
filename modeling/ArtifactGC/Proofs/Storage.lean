import ArtifactGC.Memory.Storage
import ArtifactGC.Purge
import Mathlib.Tactic.SplitIfs

/-!
# What removals leave of a storage

With storage in memory the fate of an artifact is a function of the storage. One storage is left of
another one when it fails in the same ways, has no other locations, and has lost directories only
together with everything below them. Removals leave such a storage, and they do so on both sides of
the relation. So an artifact that can be removed can also be removed from what is left, and
`LeftOf.fates` says so for any number of artifacts that are settled one after another.
-/

namespace ArtifactGC

namespace Storage

/-- Removes what is at a location, a directory with everything below it. -/
def clear (s : Storage) (uri : String) : Except StorageError Unit × Storage :=
  match s.isDirectory uri with
  | .ok true => s.removeRecursive uri
  | .ok false => s.remove uri
  | .error e => (.error e, s)

/-- The fate of an artifact whose removal was answered in some way. -/
def fateAfter (s : Storage) (uri : String) : Except StorageError Unit → Fate
  | .ok _ => .deleted
  | .error _ =>
    match s.isPresent uri with
    | .ok false => .deleted
    | _ => .failed

/-- The fate of a live artifact, and the storage after it is settled. -/
def settle (s : Storage) (a : Artifact) : Fate × Storage :=
  if a.isExternal then (.markedExternal, s)
  else ((s.clear a.uri).2.fateAfter a.uri (s.clear a.uri).1, (s.clear a.uri).2)

/-- The fates of some live artifacts that are settled one after another, and the storage after
that. -/
def settleAll (s : Storage) : List Artifact → List (Artifact × Fate) × Storage
  | [] => ([], s)
  | a :: as =>
    ((a, (s.settle a).1) :: ((s.settle a).2.settleAll as).1, ((s.settle a).2.settleAll as).2)

/-- All artifacts are settled in their order. -/
@[simp] theorem map_fst_settleAll (s : Storage) (as : List Artifact) :
    (s.settleAll as).1.map (·.1) = as := by
  induction as generalizing s with
  | nil => rfl
  | cons a as ih => simp [settleAll, ih]

theorem map_id_settleAll (s : Storage) (as : List Artifact) :
    (s.settleAll as).1.map (·.1.id) = as.map (·.id) := by
  have hfst := congrArg (List.map (·.id)) (map_fst_settleAll s as)
  rwa [List.map_map] at hfst

/-- Only fates of artifacts that are given are settled. -/
theorem mem_of_mem_settleAll {s : Storage} {as : List Artifact} {a : Artifact} {fate : Fate}
    (h : (a, fate) ∈ (s.settleAll as).1) : a ∈ as := by
  rw [← map_fst_settleAll s as]
  exact List.mem_map_of_mem h

/-! ## Locations below locations -/

theorem isWithin_iff {root uri : String} :
    isWithin root uri = true ↔ uri = root ∨ (root ++ "/").toList <+: uri.toList := by
  have hstarts : (root ++ "/").isPrefixOf uri = true ↔ (root ++ "/").toList <+: uri.toList :=
    String.startsWith_string_iff
  rw [isWithin, Bool.or_eq_true, decide_eq_true_eq, hstarts]

@[simp] theorem isWithin_self (uri : String) : isWithin uri uri = true :=
  isWithin_iff.mpr (.inl rfl)

/-- What lies below a location that lies below another one lies below that one. -/
theorem isWithin_trans {a b c : String} (hab : isWithin a b = true) (hbc : isWithin b c = true) :
    isWithin a c = true := by
  rcases isWithin_iff.mp hbc with rfl | hbc
  · exact hab
  · rcases isWithin_iff.mp hab with rfl | hab
    · exact isWithin_iff.mpr (.inr hbc)
    · have hslash : b.toList <+: (b ++ "/").toList := by
        rw [String.toList_append]
        exact List.prefix_append _ _
      exact isWithin_iff.mpr (.inr (hab.trans (hslash.trans hbc)))

/-! ## What is left of a storage -/

/-- The first storage is left of the second one after some removals. -/
structure LeftOf (rest s : Storage) : Prop where
  /-- No file is new. -/
  files : rest.files ⊆ s.files
  /-- No directory is new. -/
  directories : rest.directories ⊆ s.directories
  /-- The same locations are protected. -/
  protectedUris : rest.protectedUris = s.protectedUris
  /-- The same locations vanish. -/
  vanishingUris : rest.vanishingUris = s.vanishingUris
  /-- The same locations cannot be checked for presence. -/
  uncheckableUris : rest.uncheckableUris = s.uncheckableUris
  /-- The same locations cannot be checked for directories. -/
  unstatableUris : rest.unstatableUris = s.unstatableUris
  /-- Directories are gone with everything below them. -/
  whole : ∀ d ∈ s.directories, d ∉ rest.directories →
    ∀ uri, rest.contains uri = true → isWithin d uri = false

variable {rest s t : Storage} {uri : String}

theorem contains_iff : s.contains uri = true ↔ uri ∈ s.files ∨ uri ∈ s.directories := by
  simp [contains]

/-- What is left was there. -/
theorem LeftOf.contains (h : rest.LeftOf s) (hcontains : rest.contains uri = true) :
    s.contains uri = true := by
  rw [contains_iff] at hcontains ⊢
  exact hcontains.imp (fun hfile => h.files hfile) fun hdirectory => h.directories hdirectory

theorem LeftOf.refl (s : Storage) : s.LeftOf s where
  files := List.Subset.refl _
  directories := List.Subset.refl _
  protectedUris := rfl
  vanishingUris := rfl
  uncheckableUris := rfl
  unstatableUris := rfl
  whole _ hd hnot := absurd hd hnot

theorem LeftOf.trans (h : rest.LeftOf s) (h' : s.LeftOf t) : rest.LeftOf t where
  files := List.Subset.trans h.files h'.files
  directories := List.Subset.trans h.directories h'.directories
  protectedUris := h.protectedUris.trans h'.protectedUris
  vanishingUris := h.vanishingUris.trans h'.vanishingUris
  uncheckableUris := h.uncheckableUris.trans h'.uncheckableUris
  unstatableUris := h.unstatableUris.trans h'.unstatableUris
  whole d hd hnot uri hcontains := by
    by_cases hmid : d ∈ s.directories
    · exact h.whole d hmid hnot uri hcontains
    · exact h'.whole d hd hmid uri (h.contains hcontains)

/-- Records of removals do not matter. -/
theorem LeftOf.withRemoved (h : rest.LeftOf s) (removed removed' : List String) :
    { rest with removed := removed }.LeftOf { s with removed := removed' } :=
  ⟨h.files, h.directories, h.protectedUris, h.vanishingUris, h.uncheckableUris, h.unstatableUris,
    h.whole⟩

/-- The storage without a file. -/
def dropFile (s : Storage) (uri : String) : Storage :=
  { s with files := s.files.filter (· ≠ uri) }

theorem contains_dropTree {p : String} :
    (s.dropTree uri).contains p = true ↔ s.contains p = true ∧ isWithin uri p = false := by
  simp only [contains_iff, dropTree, List.mem_filter]
  simp [or_and_right]

/-- A removed directory is left with nothing below it. -/
theorem leftOf_dropTree (s : Storage) (uri : String) : (s.dropTree uri).LeftOf s where
  files := List.filter_sublist.subset
  directories := List.filter_sublist.subset
  protectedUris := rfl
  vanishingUris := rfl
  uncheckableUris := rfl
  unstatableUris := rfl
  whole d hd hnot p hp := by
    obtain ⟨_, hout⟩ := contains_dropTree.mp hp
    cases hwithin : isWithin uri d with
    | false =>
      exact absurd (List.mem_filter.mpr ⟨hd, by simp [hwithin]⟩) hnot
    | true =>
      cases hbelow : isWithin d p with
      | false => rfl
      | true =>
        rw [isWithin_trans hwithin hbelow] at hout
        cases hout

/-- Where nothing lies below a location, nothing is lost with it. -/
theorem LeftOf.dropTree_right (h : rest.LeftOf s)
    (hnone : ∀ p, rest.contains p = true → isWithin uri p = false) :
    rest.LeftOf (s.dropTree uri) where
  files p hp := List.mem_filter.mpr ⟨h.files hp, by
    simp [hnone p (contains_iff.mpr (.inl hp))]⟩
  directories p hp := List.mem_filter.mpr ⟨h.directories hp, by
    simp [hnone p (contains_iff.mpr (.inr hp))]⟩
  protectedUris := h.protectedUris
  vanishingUris := h.vanishingUris
  uncheckableUris := h.uncheckableUris
  unstatableUris := h.unstatableUris
  whole d hd hnot := h.whole d (List.mem_filter.mp hd).1 hnot

/-- A location can be removed with everything below it on both sides. -/
theorem LeftOf.dropTree (h : rest.LeftOf s) : (rest.dropTree uri).LeftOf (s.dropTree uri) :=
  ((leftOf_dropTree rest uri).trans h).dropTree_right fun _ hp => (contains_dropTree.mp hp).2

theorem leftOf_dropFile (s : Storage) (uri : String) : (s.dropFile uri).LeftOf s where
  files := List.filter_sublist.subset
  directories := List.Subset.refl _
  protectedUris := rfl
  vanishingUris := rfl
  uncheckableUris := rfl
  unstatableUris := rfl
  whole _ hd hnot := absurd hd hnot

/-- A file can be removed on both sides. -/
theorem LeftOf.dropFile (h : rest.LeftOf s) : (rest.dropFile uri).LeftOf (s.dropFile uri) where
  files := List.filter_subset _ h.files
  directories := h.directories
  protectedUris := h.protectedUris
  vanishingUris := h.vanishingUris
  uncheckableUris := h.uncheckableUris
  unstatableUris := h.unstatableUris
  whole d hd hnot p hp := h.whole d hd hnot p ((leftOf_dropFile rest uri).contains hp)

/-! ## Removals -/

/-- What the removal of a location leaves, apart from the record of it. -/
def cleared (s : Storage) (uri : String) : Storage :=
  if uri ∈ s.unstatableUris ∨ uri ∈ s.protectedUris then s
  else if uri ∈ s.vanishingUris ∨ uri ∈ s.directories then s.dropTree uri
  else s.dropFile uri

private theorem dropFile_of_notMem (h : uri ∉ s.files) : s.dropFile uri = s := by
  have hall : s.files.filter (fun p => decide (p ≠ uri)) = s.files :=
    List.filter_eq_self.mpr fun p hp => decide_eq_true fun heq => h (heq ▸ hp)
  rw [dropFile, hall]

/-- What the removal of a location is answered. -/
def clearAnswer (s : Storage) (uri : String) : Except StorageError Unit :=
  if uri ∈ s.unstatableUris then .error ⟨uri, .other, "stat failed"⟩
  else if uri ∈ s.protectedUris then .error ⟨uri, .permissionDenied, "protected path"⟩
  else if uri ∈ s.vanishingUris then .error ⟨uri, .other, "removal interrupted"⟩
  else if uri ∈ s.directories ∨ uri ∈ s.files then .ok ()
  else .error (nothingThere uri)

/-- A removal has its answer and leaves the storage without the location, unless it is refused. -/
theorem clear_eq (s : Storage) (uri : String) :
    ∃ removed, s.clear uri = (s.clearAnswer uri, { s.cleared uri with removed := removed }) := by
  unfold clear isDirectory clearAnswer cleared
  by_cases hstat : uri ∈ s.unstatableUris
  · rw [if_pos hstat, if_pos hstat, if_pos (.inl hstat)]
    exact ⟨s.removed, rfl⟩
  · rw [if_neg hstat, if_neg hstat]
    by_cases hprotected : uri ∈ s.protectedUris
    · have hfail : s.plannedFailure? uri =
          some (⟨uri, .permissionDenied, "protected path"⟩, s) := by
        rw [plannedFailure?, if_pos hprotected]
      rw [if_pos hprotected, if_pos (.inr hprotected)]
      cases decide (uri ∈ s.directories) <;> simp only [remove, removeRecursive, hfail] <;>
        exact ⟨s.removed, rfl⟩
    · rw [if_neg hprotected, if_neg (not_or.mpr ⟨hstat, hprotected⟩)]
      by_cases hvanishing : uri ∈ s.vanishingUris
      · have hfail : s.plannedFailure? uri =
            some (⟨uri, .other, "removal interrupted"⟩, s.dropTree uri) := by
          rw [plannedFailure?, if_neg hprotected, if_pos hvanishing]
        rw [if_pos hvanishing, if_pos (.inl hvanishing)]
        cases decide (uri ∈ s.directories) <;> simp only [remove, removeRecursive, hfail] <;>
          exact ⟨s.removed, rfl⟩
      · have hfail : s.plannedFailure? uri = none := by
          rw [plannedFailure?, if_neg hprotected, if_neg hvanishing]
        rw [if_neg hvanishing]
        by_cases hdirectory : uri ∈ s.directories
        · rw [if_pos (.inl hdirectory), if_pos (.inr hdirectory), decide_eq_true hdirectory]
          simp only [removeRecursive, hfail, if_pos hdirectory]
          exact ⟨s.removed ++ [uri], rfl⟩
        · rw [if_neg (not_or.mpr ⟨hvanishing, hdirectory⟩), decide_eq_false hdirectory]
          simp only [remove, hfail]
          by_cases hfile : uri ∈ s.files
          · rw [if_pos hfile, if_pos (.inr hfile)]
            exact ⟨s.removed ++ [uri], rfl⟩
          · rw [if_neg hfile, if_neg (not_or.mpr ⟨hdirectory, hfile⟩), dropFile_of_notMem hfile]
            exact ⟨s.removed, rfl⟩

/-- A removal that succeeds leaves nothing at the location. -/
theorem contains_cleared (h : s.clearAnswer uri = .ok ()) :
    (s.cleared uri).contains uri = false := by
  unfold clearAnswer at h
  split_ifs at h with hstat hprotected hvanishing hthere
  rw [cleared, if_neg (not_or.mpr ⟨hstat, hprotected⟩), ← Bool.not_eq_true]
  by_cases hdirectory : uri ∈ s.directories
  · rw [if_pos (.inr hdirectory), contains_dropTree]
    simp
  · rw [if_neg (not_or.mpr ⟨hvanishing, hdirectory⟩), contains_iff]
    simp [dropFile, hdirectory]

/-- A removal leaves a part of the storage. -/
theorem leftOf_cleared (s : Storage) (uri : String) : (s.cleared uri).LeftOf s := by
  unfold cleared
  split
  · exact LeftOf.refl s
  · split
    · exact leftOf_dropTree s uri
    · exact leftOf_dropFile s uri

/-- The removal of a location on both sides leaves one part of the other. -/
theorem LeftOf.cleared (h : rest.LeftOf s) : (rest.cleared uri).LeftOf (s.cleared uri) := by
  unfold Storage.cleared
  rw [h.unstatableUris, h.protectedUris, h.vanishingUris]
  by_cases hkept : uri ∈ s.unstatableUris ∨ uri ∈ s.protectedUris
  · rw [if_pos hkept, if_pos hkept]
    exact h
  · rw [if_neg hkept, if_neg hkept]
    by_cases hvanishing : uri ∈ s.vanishingUris
    · rw [if_pos (.inl hvanishing), if_pos (.inl hvanishing)]
      exact h.dropTree
    · by_cases hdirectory : uri ∈ s.directories
      · rw [if_pos (.inr hdirectory) (c := uri ∈ s.vanishingUris ∨ uri ∈ s.directories)]
        by_cases hrest : uri ∈ rest.directories
        · rw [if_pos (.inr hrest)]
          exact h.dropTree
        · -- the directory is gone already, and so is everything below it
          rw [if_neg (not_or.mpr ⟨hvanishing, hrest⟩)]
          exact (leftOf_dropFile rest uri).trans (h.dropTree_right (h.whole uri hdirectory hrest))
      · have hrest : uri ∉ rest.directories := fun hmem => hdirectory (h.directories hmem)
        rw [if_neg (not_or.mpr ⟨hvanishing, hrest⟩), if_neg (not_or.mpr ⟨hvanishing, hdirectory⟩)]
        exact h.dropFile

/-! ## Fates -/

/-- Settling the fate of an artifact leaves a part of the storage. -/
theorem leftOf_settle (s : Storage) (a : Artifact) : (s.settle a).2.LeftOf s := by
  unfold settle
  split
  · exact LeftOf.refl s
  · obtain ⟨removed, hclear⟩ := clear_eq s a.uri
    rw [hclear]
    exact (leftOf_cleared s a.uri).withRemoved removed s.removed

/-- Settling the fate of an artifact on both sides leaves one part of the other. -/
theorem LeftOf.settle (h : rest.LeftOf s) (a : Artifact) :
    (rest.settle a).2.LeftOf (s.settle a).2 := by
  unfold Storage.settle
  split
  · exact h
  · obtain ⟨removed, hrest⟩ := clear_eq rest a.uri
    obtain ⟨removed', hclear⟩ := clear_eq s a.uri
    rw [hrest, hclear]
    exact h.cleared.withRemoved removed removed'

/-- Where every location can be checked for presence, an artifact is left when something is left
at its location. -/
theorem settle_eq_failed_iff (hchecks : s.uncheckableUris = []) {a : Artifact} :
    (s.settle a).1 = .failed ↔ a.isExternal = false ∧ (s.settle a).2.contains a.uri = true := by
  unfold settle
  by_cases hexternal : a.isExternal = true
  · rw [if_pos hexternal]
    simp [hexternal]
  · have hexternal : a.isExternal = false := by simpa using hexternal
    obtain ⟨removed, hclear⟩ := clear_eq s a.uri
    have hstill : (s.cleared a.uri).uncheckableUris = [] := by
      rw [(leftOf_cleared s a.uri).uncheckableUris, hchecks]
    have hpresent : (s.clear a.uri).2.isPresent a.uri =
        .ok ((s.clear a.uri).2.contains a.uri) := by
      rw [isPresent, hclear, hstill, if_neg List.not_mem_nil]
    have hcontains : (s.clear a.uri).2.contains a.uri = (s.cleared a.uri).contains a.uri := by
      rw [hclear]
      rfl
    have hfst : (s.clear a.uri).1 = s.clearAnswer a.uri := congrArg Prod.fst hclear
    rw [if_neg (by simp [hexternal])]
    cases hanswer : (s.clear a.uri).1 with
    | ok _ =>
      have hgone := contains_cleared (hfst.symm.trans hanswer)
      simp [fateAfter, hexternal, hcontains, hgone]
    | error e =>
      simp only [fateAfter, hpresent, hexternal, true_and]
      cases (s.clear a.uri).2.contains a.uri <;> simp

/-- An artifact that is not left in a storage is not left in a part of it. -/
theorem LeftOf.fate (h : rest.LeftOf s) (hchecks : s.uncheckableUris = []) {a : Artifact}
    (hfate : (s.settle a).1 ≠ .failed) : (rest.settle a).1 ≠ .failed := by
  intro hfailed
  obtain ⟨hexternal, hcontains⟩ :=
    (settle_eq_failed_iff (h.uncheckableUris.trans hchecks)).mp hfailed
  exact hfate ((settle_eq_failed_iff hchecks).mpr ⟨hexternal, (h.settle a).contains hcontains⟩)

/-- Settling fates one after another leaves a part of the storage. -/
theorem leftOf_settleAll (s : Storage) (as : List Artifact) : (s.settleAll as).2.LeftOf s := by
  induction as generalizing s with
  | nil => exact LeftOf.refl s
  | cons a as ih => exact (ih _).trans (leftOf_settle s a)

/-- Artifacts that are settled one after another and are not left in a storage are not left in a
part of it. -/
theorem LeftOf.fates (h : rest.LeftOf s) (hchecks : s.uncheckableUris = []) {as : List Artifact}
    {a : Artifact} {fate : Fate} (hmem : (a, fate) ∈ (s.settleAll as).1) (hfate : fate ≠ .failed) :
    ∃ fate', (a, fate') ∈ (rest.settleAll as).1 ∧ fate' ≠ .failed := by
  induction as generalizing rest s with
  | nil => cases hmem
  | cons b bs ih =>
    rcases List.mem_cons.mp hmem with heq | hmem
    · obtain ⟨rfl, rfl⟩ := Prod.mk.inj heq
      exact ⟨_, List.mem_cons_self, h.fate hchecks hfate⟩
    · have hstill : (s.settle b).2.uncheckableUris = [] := by
        rw [(leftOf_settle s b).uncheckableUris, hchecks]
      obtain ⟨fate', hmem', hfate'⟩ := ih (h.settle b) hstill hmem
      exact ⟨fate', List.mem_cons_of_mem _ hmem', hfate'⟩

end Storage

end ArtifactGC
