import ArtifactGC.Proofs.Contract
import ArtifactGC.Purge

/-!
# What a purge does

Whatever storage answers, a purge settles the fate of exactly the live artifacts that it is given,
in their order, and writes, if anything, the records of those that it did not fail to remove.
`keeps_purge` says so for any contract that lets storage be used.
-/

namespace ArtifactGC

/-- Storage may be used in every way at a location. -/
structure Contract.AllowsStorageAt (c : Contract) (uri : String) : Prop where
  /-- It may be asked whether the location is a directory. -/
  isDirectory : c.asks (.isDirectory uri)
  /-- It may be asked whether anything is there. -/
  isPresent : c.asks (.isPresent uri)
  /-- A file may be removed. -/
  remove : c.asks (.remove uri)
  /-- A directory may be removed. -/
  removeRecursive : c.asks (.removeRecursive uri)

/-- Storage may be used in every way. -/
structure Contract.AllowsStorage (c : Contract) : Prop where
  /-- Locations may be asked whether they are directories. -/
  isDirectory : ∀ uri, c.asks (.isDirectory uri)
  /-- Locations may be asked whether anything is there. -/
  isPresent : ∀ uri, c.asks (.isPresent uri)
  /-- Files may be removed. -/
  remove : ∀ uri, c.asks (.remove uri)
  /-- Directories may be removed. -/
  removeRecursive : ∀ uri, c.asks (.removeRecursive uri)

/-- Where storage may be used, it may be used at every location. -/
theorem Contract.AllowsStorage.allowsAt {c : Contract} (hc : c.AllowsStorage) (uri : String) :
    c.AllowsStorageAt uri :=
  ⟨hc.isDirectory uri, hc.isPresent uri, hc.remove uri, hc.removeRecursive uri⟩

/-- Artifacts whose fate is settled are reported under their fate. -/
theorem mem_withFate {fate : Fate} {settled : List (Artifact × Fate)} {id : ArtifactId} :
    id ∈ withFate fate settled ↔ ∃ a, (a, fate) ∈ settled ∧ a.id = id := by
  simp only [withFate, List.mem_map, List.mem_filter, decide_eq_true_eq]
  constructor
  · rintro ⟨⟨a, fate'⟩, ⟨hmem, rfl⟩, rfl⟩
    exact ⟨a, hmem, rfl⟩
  · rintro ⟨a, hmem, rfl⟩
    exact ⟨(a, fate), ⟨hmem, rfl⟩, rfl⟩

/-- Changed records are those of artifacts that did not fail, marked deleted. -/
theorem mem_changedRecords {settled : List (Artifact × Fate)} {r : Artifact} :
    r ∈ changedRecords settled ↔ ∃ a fate, (a, fate) ∈ settled ∧ fate ≠ .failed ∧
      { a with state := .deleted } = r := by
  simp only [changedRecords, List.mem_map, List.mem_filter, decide_eq_true_eq]
  constructor
  · rintro ⟨⟨a, fate⟩, ⟨hmem, hfate⟩, rfl⟩
    exact ⟨a, fate, hmem, hfate, rfl⟩
  · rintro ⟨a, fate, hmem, hfate, rfl⟩
    exact ⟨(a, fate), ⟨hmem, hfate⟩, rfl⟩

section Keeps

variable {c : Contract}

/-- A removal comes back with an answer, be it that of the check for a directory. -/
theorem keeps_removeFromStorage {uri : String} (hc : c.AllowsStorageAt uri) :
    (removeFromStorage uri).Keeps c fun r => ∃ answer, r = .ok answer := by
  refine ⟨hc.isDirectory, fun answer _ => ?_⟩
  rcases answer with e | _ | _
  · exact ⟨_, rfl⟩
  · exact ⟨hc.remove, fun answer _ => ⟨answer, rfl⟩⟩
  · exact ⟨hc.removeRecursive, fun answer _ => ⟨answer, rfl⟩⟩

/-- Settling the fate of an artifact does not fail. Storage is used at its location only, and not
at all when the artifact is owned outside the pipeline. -/
theorem keeps_settle {a : Artifact} (hc : a.isExternal = false → c.AllowsStorageAt a.uri) :
    (settle a).Keeps c fun r => ∃ fate, r = .ok fate := by
  unfold settle
  split
  · exact ⟨_, rfl⟩
  · rename_i hexternal
    have hat : c.AllowsStorageAt a.uri := hc (by simpa using hexternal)
    refine (keeps_removeFromStorage hat).bind (fun answer _ => ?_) fun e he => ?_
    · cases answer with
      | ok _ => exact ⟨_, rfl⟩
      | error e =>
        refine ⟨hat.isPresent, fun present _ => ?_⟩
        rcases present with _ | _ | _ <;> exact ⟨_, rfl⟩
    · obtain ⟨answer, hanswer⟩ := he
      cases hanswer

/-- The fates of all artifacts are settled in their order. -/
theorem keeps_settleAll {as : List Artifact}
    (hc : ∀ a ∈ as, a.isExternal = false → c.AllowsStorageAt a.uri) :
    (settleAll as).Keeps c fun r => ∃ settled, r = .ok settled ∧ settled.map (·.1) = as := by
  induction as with
  | nil => exact ⟨[], rfl, rfl⟩
  | cons a as ih =>
    obtain ⟨hca, hcas⟩ := List.forall_mem_cons.mp hc
    refine (keeps_settle hca).bind (fun fate _ => ?_) (by rintro e ⟨fate, ⟨⟩⟩)
    refine (ih hcas).bind ?_ (by rintro e ⟨settled, ⟨⟩, _⟩)
    rintro settled ⟨_, ⟨⟩, rfl⟩
    exact ⟨(a, fate) :: settled, rfl, rfl⟩

/-- A purge that may write the changed records of any fates of its live artifacts reports such
fates, or passes on the refusal of the store. -/
theorem keeps_purge {as : List Artifact} {post : Except Failure PurgeReport → Prop}
    (hc : ∀ a ∈ as, a.isLive = true → a.isExternal = false → c.AllowsStorageAt a.uri)
    (hput : ∀ settled, settled.map (·.1) = as.filter (·.isLive) →
      c.asks (.put (changedRecords settled)))
    (hdone : ∀ settled, settled.map (·.1) = as.filter (·.isLive) → post (.ok (reportOf settled)))
    (hrefused : ∀ e, post (.error (.store e))) : (purge as).Keeps c post := by
  have hlive : ∀ a ∈ as.filter (·.isLive), a.isExternal = false → c.AllowsStorageAt a.uri := by
    intro a ha
    obtain ⟨hmem, hstate⟩ := List.mem_filter.mp ha
    exact hc a hmem hstate
  refine (keeps_settleAll hlive).bind ?_ (by rintro e ⟨settled, ⟨⟩, _⟩)
  rintro settled ⟨_, ⟨⟩, hsettled⟩
  change Procedure.Keeps c _ (if _ then _ else _)
  split
  · exact hdone settled hsettled
  · refine ⟨hput settled hsettled, fun answer _ => ?_⟩
    cases answer with
    | error e => exact hrefused e
    | ok _ => exact hdone settled hsettled

end Keeps

end ArtifactGC
