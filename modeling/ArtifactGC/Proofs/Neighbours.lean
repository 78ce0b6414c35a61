import ArtifactGC.Proofs.Settlement

/-!
# Artifacts beside purged ones

A removal takes its own location and, where that is a directory, everything below it. `Takes` says
which locations it takes, and `mem_locations_settleAll` that a purge takes exactly what the removals
of its artifacts take from the storage as it was at the start. So an artifact that is retained keeps
its storage when its location lies neither below nor above that of a purged one, and
`retained_artifacts_keep_storage` says so. It is not enough that locations differ: a directory that
is purged takes the artifacts that are stored in it, as `directory_takes_retained_artifact` shows.
-/

namespace ArtifactGC

namespace Storage

/-- A location lies below another one. -/
def IsBelow (root uri : String) : Prop := isWithin root uri = true ∧ uri ≠ root

instance (root uri : String) : Decidable (IsBelow root uri) := inferInstanceAs (Decidable (_ ∧ _))

/-- Of two locations that both contain a third one, one contains the other. -/
theorem isWithin_or_isWithin {a b path : String} (ha : isWithin a path = true)
    (hb : isWithin b path = true) : isWithin a b = true ∨ isWithin b a = true := by
  rcases isWithin_iff.mp ha with rfl | ha'
  · exact .inr hb
  · rcases isWithin_iff.mp hb with rfl | hb'
    · exact .inl ha
    · -- two prefixes of one text, each with a slash at its end
      have hslash (x : String) : (x ++ "/").toList = x.toList ++ ['/'] := String.toList_append
      have hwithin {x y : String} (h : (x ++ "/").toList <+: (y ++ "/").toList) :
          isWithin x y = true := by
        rw [hslash y] at h
        rcases List.prefix_concat_iff.mp h with heq | hprefix
        · rw [hslash x] at heq
          have hxy : x.toList = y.toList := List.append_cancel_right heq
          exact isWithin_iff.mpr (.inl (String.toList_inj.mp hxy).symm)
        · exact isWithin_iff.mpr (.inr hprefix)
      rcases List.prefix_or_prefix_of_prefix ha' hb' with h | h
      · exact .inl (hwithin h)
      · exact .inr (hwithin h)

/-- The locations that hold a directory, or a file. -/
def locations (s : Storage) (directory : Bool) : List String :=
  if directory then s.directories else s.files

/-- The removal of a location takes another one: it is attempted at all, and the other one is the
same, or lies below it and the location is a directory or vanishes. -/
def Takes (s : Storage) (uri path : String) : Prop :=
  uri ∉ s.unstatableUris ∧ uri ∉ s.protectedUris ∧
    (path = uri ∨ (uri ∈ s.vanishingUris ∨ uri ∈ s.directories) ∧ isWithin uri path = true)

variable {s rest : Storage} {uri path : String} {directory : Bool}

/-- Only what lies at a location or below it is taken with it. -/
theorem Takes.isWithin (h : s.Takes uri path) : isWithin uri path = true := by
  obtain ⟨_, _, rfl | ⟨_, hwithin⟩⟩ := h
  · exact isWithin_self path
  · exact hwithin

theorem mem_locations_dropTree :
    path ∈ (s.dropTree uri).locations directory ↔
      path ∈ s.locations directory ∧ isWithin uri path = false := by
  cases directory <;> simp [locations, dropTree]

/-- Without a directory at a location only its file is dropped. -/
theorem mem_locations_dropFile (h : uri ∉ s.directories) :
    path ∈ (s.dropFile uri).locations directory ↔ path ∈ s.locations directory ∧ path ≠ uri := by
  cases directory with
  | false => simp [locations, dropFile]
  | true =>
    refine ⟨fun hmem => ⟨hmem, ?_⟩, And.left⟩
    rintro rfl
    exact h hmem

/-- A removal leaves what it does not take. -/
theorem mem_locations_cleared :
    path ∈ (s.cleared uri).locations directory ↔
      path ∈ s.locations directory ∧ ¬ s.Takes uri path := by
  unfold cleared
  by_cases hkept : uri ∈ s.unstatableUris ∨ uri ∈ s.protectedUris
  · have hnot : ¬ s.Takes uri path := fun ⟨hstat, hprotected, _⟩ => hkept.elim hstat hprotected
    rw [if_pos hkept]
    exact ⟨fun hmem => ⟨hmem, hnot⟩, And.left⟩
  · rw [if_neg hkept]
    obtain ⟨hstat, hprotected⟩ := not_or.mp hkept
    by_cases htree : uri ∈ s.vanishingUris ∨ uri ∈ s.directories
    · have htakes : s.Takes uri path ↔ isWithin uri path = true :=
        ⟨Takes.isWithin, fun hwithin => ⟨hstat, hprotected, .inr ⟨htree, hwithin⟩⟩⟩
      rw [if_pos htree, mem_locations_dropTree, htakes, Bool.not_eq_true]
    · have htakes : s.Takes uri path ↔ path = uri := by
        refine ⟨?_, fun heq => ⟨hstat, hprotected, .inl heq⟩⟩
        rintro ⟨_, _, heq | ⟨h, _⟩⟩
        · exact heq
        · exact absurd h htree
      rw [if_neg htree, mem_locations_dropFile (not_or.mp htree).2, htakes]

/-- Settling the fate of an artifact leaves what its removal does not take. -/
theorem mem_locations_settle {a : Artifact} :
    path ∈ (s.settle a).2.locations directory ↔
      path ∈ s.locations directory ∧ (a.isExternal = false → ¬ s.Takes a.uri path) := by
  unfold settle
  by_cases hexternal : a.isExternal = true
  · rw [if_pos hexternal]
    simp [hexternal]
  · obtain ⟨removed, hclear⟩ := clear_eq s a.uri
    rw [if_neg hexternal, hclear]
    simp only [hexternal, forall_const]
    exact mem_locations_cleared

/-- From what is left of a storage, a removal takes what it takes from the storage. -/
theorem LeftOf.takes_iff (h : rest.LeftOf s) (hpath : path ∈ rest.locations directory) :
    rest.Takes uri path ↔ s.Takes uri path := by
  have hcontains : rest.contains path = true := by
    rw [contains_iff]
    cases directory with
    | false => exact .inl hpath
    | true => exact .inr hpath
  unfold Takes
  rw [h.unstatableUris, h.protectedUris, h.vanishingUris]
  refine and_congr_right fun _ => and_congr_right fun _ => or_congr_right ?_
  constructor
  · rintro ⟨htree, hwithin⟩
    exact ⟨htree.imp_right fun hmem => h.directories hmem, hwithin⟩
  · rintro ⟨htree, hwithin⟩
    refine ⟨htree.imp_right fun hmem => ?_, hwithin⟩
    by_contra hgone
    rw [h.whole uri hmem hgone path hcontains] at hwithin
    cases hwithin

/-- Settling the fates of artifacts one after another leaves what none of their removals takes. -/
theorem mem_locations_settleAll {as : List Artifact} :
    path ∈ (s.settleAll as).2.locations directory ↔
      path ∈ s.locations directory ∧ ∀ a ∈ as, a.isExternal = false → ¬ s.Takes a.uri path := by
  induction as generalizing s with
  | nil => simp [settleAll]
  | cons a as ih =>
    rw [settleAll, ih, mem_locations_settle, List.forall_mem_cons, and_assoc]
    refine and_congr_right fun hpath => and_congr_right fun hkept => ?_
    -- what is left is taken by later removals when it is taken from the storage at the start
    have hleft : path ∈ (s.settle a).2.locations directory :=
      mem_locations_settle.mpr ⟨hpath, hkept⟩
    simp only [(leftOf_settle s a).takes_iff hleft]

/-- Exactly the artifacts that are owned outside the pipeline are marked external. -/
theorem isExternal_of_settleAll {as : List Artifact} {a : Artifact} {fate : Fate}
    (h : (a, fate) ∈ (s.settleAll as).1) : fate = .markedExternal ↔ a.isExternal = true := by
  induction as generalizing s with
  | nil => cases h
  | cons b bs ih =>
    rcases List.mem_cons.mp h with heq | hmem
    · obtain ⟨rfl, rfl⟩ := Prod.mk.inj heq
      unfold settle
      by_cases hexternal : a.isExternal = true
      · simp [hexternal]
      · rw [if_neg hexternal]
        refine iff_of_false ?_ hexternal
        unfold fateAfter
        split
        · nofun
        · split <;> nofun
    · exact ih hmem

end Storage

/-! ## Reports on removals -/

/-- Reported as deleted or failed are the artifacts that are not owned outside the pipeline. -/
theorem mem_deleted_or_failed {s : Storage} {as : List Artifact} {id : ArtifactId} :
    (id ∈ (reportOf (s.settleAll as).1).deleted ∨ id ∈ (reportOf (s.settleAll as).1).failed) ↔
      ∃ a ∈ as, a.isExternal = false ∧ a.id = id := by
  rw [reportOf, mem_withFate, mem_withFate]
  constructor
  · rintro (⟨a, ha, rfl⟩ | ⟨a, ha, rfl⟩)
    · have hexternal := Storage.isExternal_of_settleAll ha
      exact ⟨a, Storage.mem_of_mem_settleAll ha, by simpa using hexternal, rfl⟩
    · have hexternal := Storage.isExternal_of_settleAll ha
      exact ⟨a, Storage.mem_of_mem_settleAll ha, by simpa using hexternal, rfl⟩
  · rintro ⟨a, ha, hexternal, rfl⟩
    rw [← Storage.map_fst_settleAll s as] at ha
    obtain ⟨⟨a, fate⟩, hsettled, rfl⟩ := List.mem_map.mp ha
    have hfate := Storage.isExternal_of_settleAll hsettled
    cases fate with
    | deleted => exact .inl ⟨a, hsettled, rfl⟩
    | failed => exact .inr ⟨a, hsettled, rfl⟩
    | markedExternal =>
      rw [hfate.mp rfl] at hexternal
      cases hexternal

/-- A record of the store whose artifact a report lists as deleted or failed: its removal was
attempted. -/
def Store.Attempted (s : Store) (report : PurgeReport) (p : Artifact) : Prop :=
  p ∈ s.artifacts.records ∧ (p.id ∈ report.deleted ∨ p.id ∈ report.failed)

/-- A pass that collects leaves exactly what none of the removals takes that it attempts. -/
theorem mem_locations_of_collected {uid : NodeUid} {node : NodeSpec} {m : Memory}
    {report : PurgeReport}
    (h : ((pass uid node).run (Memory.services .normal) m).ending =
      .returned (.collected report)) {directory : Bool} {path : String} :
    path ∈ ((pass uid node).run (Memory.services .normal) m).state.storage.locations directory ↔
      path ∈ m.storage.locations directory ∧
        ∀ p, m.store.Attempted report p → ¬ m.storage.Takes p.uri path := by
  rcases ends_pass_cases uid node m with ⟨_, hends, hnot⟩ | ⟨_, _, found, hselected, hends⟩
  · exact absurd (hends.ending.symm.trans h) (hnot report)
  have hreport : report = reportOf (m.storage.settleAll found).1 := by
    have hsame := h.symm.trans hends.ending
    cases hsame
    rfl
  have hrecord {a : Artifact} (ha : a ∈ found) : a ∈ m.store.artifacts.records :=
    (Table.find?_eq_some.mp (Store.live?_eq_some.mp (Store.live?_of_selected hselected ha)).1).1
  rw [hends.state, Storage.mem_locations_settleAll]
  refine and_congr_right fun _ => ?_
  unfold Store.Attempted
  rw [hreport]
  simp only [mem_deleted_or_failed]
  constructor
  · rintro hkept p ⟨hp, a, ha, hexternal, hsame⟩
    obtain rfl : a = p := List.inj_on_of_nodup_map m.store.artifacts.nodup (hrecord ha) hp hsame
    exact hkept a ha hexternal
  · intro hkept a ha hexternal
    exact hkept a ⟨hrecord ha, a, ha, hexternal, rfl⟩

/-- A removal takes nothing at or below a location that lies neither below nor above its own. -/
theorem Storage.not_takes_of_unrelated {s : Storage} {a p path : String} (hne : p ≠ a)
    (hbelow : ¬ IsBelow a p) (habove : ¬ IsBelow p a) (hpath : isWithin a path = true) :
    ¬ s.Takes p path := by
  intro htakes
  rcases isWithin_or_isWithin hpath htakes.isWithin with hap | hpa
  · exact hbelow ⟨hap, hne⟩
  · exact habove ⟨hpa, hne.symm⟩

/-- A pass that collects leaves exactly the files and directories that none of the removals takes
that it attempts, which are those of the artifacts that it reports as deleted or failed. In
particular, where the artifacts of the store have pairwise different locations, an artifact that is
not reported so keeps its file, its directory and everything below, unless the location of one that
is reported so lies below or above its own. -/
theorem retained_artifacts_keep_storage (uid : NodeUid) (node : NodeSpec) (m : Memory)
    (report : PurgeReport) (huris : (m.store.artifacts.records.map (·.uri)).Nodup)
    (hcollected : ((pass uid node).run (Memory.services .normal) m).ending =
      .returned (.collected report)) :
    let after := ((pass uid node).run (Memory.services .normal) m).state.storage
    (∀ path,
      (path ∈ after.files ↔ path ∈ m.storage.files ∧
        ∀ p, m.store.Attempted report p → ¬ m.storage.Takes p.uri path) ∧
      (path ∈ after.directories ↔ path ∈ m.storage.directories ∧
        ∀ p, m.store.Attempted report p → ¬ m.storage.Takes p.uri path)) ∧
    ∀ a ∈ m.store.artifacts.records, a.id ∉ report.deleted → a.id ∉ report.failed →
      (∀ p, m.store.Attempted report p →
        ¬ Storage.IsBelow a.uri p.uri ∧ ¬ Storage.IsBelow p.uri a.uri) →
      ∀ path, Storage.isWithin a.uri path = true →
        (path ∈ after.files ↔ path ∈ m.storage.files) ∧
        (path ∈ after.directories ↔ path ∈ m.storage.directories) := by
  intro after
  have hlocations (directory : Bool) (path : String) :
      path ∈ after.locations directory ↔ path ∈ m.storage.locations directory ∧
        ∀ p, m.store.Attempted report p → ¬ m.storage.Takes p.uri path :=
    mem_locations_of_collected hcollected
  refine ⟨fun path => ⟨hlocations false path, hlocations true path⟩, ?_⟩
  intro a ha hdeleted hfailed hunrelated path hpath
  have hkept (p : Artifact) (hp : m.store.Attempted report p) : ¬ m.storage.Takes p.uri path := by
    obtain ⟨hbelow, habove⟩ := hunrelated p hp
    refine Storage.not_takes_of_unrelated (fun hsame => ?_) hbelow habove hpath
    obtain rfl : p = a := List.inj_on_of_nodup_map huris hp.1 ha hsame
    exact hp.2.elim hdeleted hfailed
  exact ⟨(hlocations false path).trans (and_iff_left hkept),
    (hlocations true path).trans (and_iff_left hkept)⟩

/-- A directory is purged with everything below it, and a retained file beside it that only shares
the first letters of its location stays. -/
theorem file_beside_purged_directory_stays :
    let storage := ((Storage.empty.addDirectory "/a").addFile "/a/b").addFile "/ab"
    let m : Memory := ⟨.ofModels [model 1 "/a", model 2 "/ab"], storage⟩
    let spec := trainerSpec (.ofRecency 1)
    (m.store.artifacts.records.map (·.uri)).Nodup ∧
      ((pass trainer spec).run (Memory.services .normal) m).ending =
        .returned (.collected ⟨[⟨1⟩], [], []⟩) ∧
      (∀ p ∈ m.store.artifacts.records, p.id = ⟨1⟩ →
        ¬ Storage.IsBelow "/ab" p.uri ∧ ¬ Storage.IsBelow p.uri "/ab") ∧
      "/a/b" ∉ ((pass trainer spec).run (Memory.services .normal) m).state.storage.files ∧
      "/ab" ∈ ((pass trainer spec).run (Memory.services .normal) m).state.storage.files := by
  intro storage m spec
  have huris : (m.store.artifacts.records.map (·.uri)).Nodup := by decide +kernel
  have hcollected : ((pass trainer spec).run (Memory.services .normal) m).ending =
      .returned (.collected ⟨[⟨1⟩], [], []⟩) := by decide +kernel
  have hunrelated : ∀ p ∈ m.store.artifacts.records, p.id = ⟨1⟩ →
      ¬ Storage.IsBelow "/ab" p.uri ∧ ¬ Storage.IsBelow p.uri "/ab" := by decide +kernel
  have hretained : model 2 "/ab" ∈ m.store.artifacts.records := by decide +kernel
  obtain ⟨_, hkept⟩ := retained_artifacts_keep_storage trainer spec m _ huris hcollected
  have hstays := (hkept _ hretained (by decide +kernel) (by decide +kernel)
    (fun p hp => hunrelated p hp.1 (by simpa [Store.Attempted] using hp.2)) "/ab"
    (by decide +kernel)).1
  exact ⟨huris, hcollected, hunrelated, by decide +kernel, hstays.mpr (by decide +kernel)⟩

/-- Two artifacts have different locations, and the one that is retained is stored in the directory
of the one that is purged: its file is gone. -/
theorem directory_takes_retained_artifact :
    let m : Memory := ⟨.ofModels [model 1 "/a", model 2 "/a/b"],
      (Storage.empty.addDirectory "/a").addFile "/a/b"⟩
    let spec := trainerSpec (.ofRecency 1)
    (m.store.artifacts.records.map (·.uri)).Nodup ∧
      ((pass trainer spec).run (Memory.services .normal) m).ending =
        .returned (.collected ⟨[⟨1⟩], [], []⟩) ∧
      model 2 "/a/b" ∈ m.store.artifacts.records ∧ "/a/b" ∈ m.storage.files ∧
      "/a/b" ∉ ((pass trainer spec).run (Memory.services .normal) m).state.storage.files := by
  decide +kernel

end ArtifactGC
