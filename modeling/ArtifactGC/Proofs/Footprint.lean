import ArtifactGC.Proofs.Effects
import ArtifactGC.Proofs.Neighbours

/-!
# What a pass depends on

A pass sees of a memory the events, the executions, the records of the artifacts that its node has
published, and storage at their locations. `Memory.AgreesFor` says that two memories have this in
common. Then the plans of the node are the same, the fates that are settled are the same, and
`AgreesFor.ending_pass` says that the passes end in the same way.
-/

namespace ArtifactGC

namespace Storage

/-- Two storages fail in the same ways, and some locations hold the same in both. -/
structure AgreesOn (s s' : Storage) (uris : String → Prop) : Prop where
  /-- The same locations are protected. -/
  protectedUris : s'.protectedUris = s.protectedUris
  /-- The same locations vanish. -/
  vanishingUris : s'.vanishingUris = s.vanishingUris
  /-- The same locations cannot be checked for presence. -/
  uncheckableUris : s'.uncheckableUris = s.uncheckableUris
  /-- The same locations cannot be checked for directories. -/
  unstatableUris : s'.unstatableUris = s.unstatableUris
  /-- The locations hold the same. -/
  locations : ∀ uri, uris uri → ∀ directory,
    (uri ∈ s'.locations directory ↔ uri ∈ s.locations directory)

/-- What is left of a storage agrees with it wherever nothing is lost. -/
theorem LeftOf.agreesOn {rest s : Storage} {uris : String → Prop} (h : rest.LeftOf s)
    (hkept : ∀ uri, uris uri → ∀ directory,
      uri ∈ s.locations directory → uri ∈ rest.locations directory) : s.AgreesOn rest uris where
  protectedUris := h.protectedUris
  vanishingUris := h.vanishingUris
  uncheckableUris := h.uncheckableUris
  unstatableUris := h.unstatableUris
  locations uri huri directory := by
    refine ⟨fun hmem => ?_, hkept uri huri directory⟩
    cases directory with
    | false => exact h.files hmem
    | true => exact h.directories hmem

namespace AgreesOn

variable {s s' : Storage} {uris : String → Prop} {uri : String} (h : s.AgreesOn s' uris)
  (huri : uris uri)
include h huri

/-- The removal of one of the locations is answered the same. -/
theorem fst_clear : (s'.clear uri).1 = (s.clear uri).1 := by
  have hfile : uri ∈ s'.files ↔ uri ∈ s.files := h.locations uri huri false
  have hdirectory : uri ∈ s'.directories ↔ uri ∈ s.directories := h.locations uri huri true
  obtain ⟨_, hclear⟩ := clear_eq s uri
  obtain ⟨_, hclear'⟩ := clear_eq s' uri
  rw [hclear, hclear']
  unfold clearAnswer
  rw [h.unstatableUris, h.protectedUris, h.vanishingUris]
  simp only [hfile, hdirectory]

/-- The removal of one of the locations takes the same. -/
theorem takes_iff {path : String} : s'.Takes uri path ↔ s.Takes uri path := by
  have hdirectory : uri ∈ s'.directories ↔ uri ∈ s.directories := h.locations uri huri true
  unfold Takes
  rw [h.unstatableUris, h.protectedUris, h.vanishingUris, hdirectory]

/-- After the removal of one of the locations the storages still agree. -/
theorem clear : (s.clear uri).2.AgreesOn (s'.clear uri).2 uris := by
  obtain ⟨removed, hclear⟩ := clear_eq s uri
  obtain ⟨removed', hclear'⟩ := clear_eq s' uri
  have hleft := leftOf_cleared s uri
  have hleft' := leftOf_cleared s' uri
  rw [hclear, hclear']
  exact {
    protectedUris := hleft'.protectedUris.trans (h.protectedUris.trans hleft.protectedUris.symm)
    vanishingUris := hleft'.vanishingUris.trans (h.vanishingUris.trans hleft.vanishingUris.symm)
    uncheckableUris :=
      hleft'.uncheckableUris.trans (h.uncheckableUris.trans hleft.uncheckableUris.symm)
    unstatableUris :=
      hleft'.unstatableUris.trans (h.unstatableUris.trans hleft.unstatableUris.symm)
    locations := fun path hpath directory => by
      have hsame : path ∈ (s.cleared uri).locations directory ↔
          path ∈ s.locations directory ∧ ¬ s.Takes uri path := mem_locations_cleared
      have hsame' : path ∈ (s'.cleared uri).locations directory ↔
          path ∈ s'.locations directory ∧ ¬ s'.Takes uri path := mem_locations_cleared
      rw [h.takes_iff huri, h.locations path hpath directory] at hsame'
      exact hsame'.trans hsame.symm }

/-- Whether anything is at one of the locations is answered the same. -/
theorem isPresent : s'.isPresent uri = s.isPresent uri := by
  have hfile : uri ∈ s'.files ↔ uri ∈ s.files := h.locations uri huri false
  have hdirectory : uri ∈ s'.directories ↔ uri ∈ s.directories := h.locations uri huri true
  have hcontains : s'.contains uri = s.contains uri := by
    rw [Bool.eq_iff_iff, contains_iff, contains_iff, hfile, hdirectory]
  rw [Storage.isPresent, Storage.isPresent, h.uncheckableUris, hcontains]

end AgreesOn

/-- The fate of an artifact at one of the locations is the same, and the storages still agree after
it is settled. -/
theorem AgreesOn.settle {s s' : Storage} {uris : String → Prop} (h : s.AgreesOn s' uris)
    {a : Artifact} (ha : uris a.uri) :
    (s'.settle a).1 = (s.settle a).1 ∧ (s.settle a).2.AgreesOn (s'.settle a).2 uris := by
  unfold Storage.settle
  split
  · exact ⟨rfl, h⟩
  · have hcleared := h.clear ha
    refine ⟨?_, hcleared⟩
    unfold fateAfter
    rw [h.fst_clear ha, hcleared.isPresent ha]

/-- The fates of artifacts at some of the locations are the same. -/
theorem AgreesOn.settleAll {s s' : Storage} {uris : String → Prop} (h : s.AgreesOn s' uris)
    {as : List Artifact} (has : ∀ a ∈ as, uris a.uri) :
    (s'.settleAll as).1 = (s.settleAll as).1 := by
  induction as generalizing s s' with
  | nil => rfl
  | cons a as ih =>
    obtain ⟨ha, has⟩ := List.forall_mem_cons.mp has
    obtain ⟨hfate, hsettled⟩ := h.settle ha
    rw [Storage.settleAll, Storage.settleAll, hfate, ih hsettled has]

end Storage

/-! ## The part of a node -/

namespace Store

/-- An execution of the node has published the artifact. -/
def IsOutput (s : Store) (uid : NodeUid) (id : ArtifactId) : Prop :=
  ∃ e ∈ s.events, e.artifactId = id ∧ e.kind.isOutput = true ∧ s.OfNode uid e

instance (s : Store) (uid : NodeUid) (id : ArtifactId) : Decidable (s.IsOutput uid id) :=
  inferInstanceAs (Decidable (∃ e ∈ s.events, _))

/-- An artifact that the node has published is stored at the location. -/
def IsOutputUri (s : Store) (uid : NodeUid) (uri : String) : Prop :=
  ∃ a ∈ s.artifacts.records, s.IsOutput uid a.id ∧ a.uri = uri

variable {s s' : Store} {uid : NodeUid} {found : List Artifact}

/-- What is listed is published by the node. -/
theorem Lists.isOutput (h : s.Lists uid found) {a : Artifact} (ha : a ∈ found) :
    s.IsOutput uid a.id := by
  obtain ⟨key, e, he, hid, hpublished, hof⟩ := h.published a ha
  exact ⟨e, he, hid, (Event.publishesUnder_iff.mp hpublished).1, hof⟩

/-- What is listed is stored as it is listed. -/
theorem Lists.mem_records (h : s.Lists uid found) {a : Artifact} (ha : a ∈ found) :
    a ∈ s.artifacts.records :=
  (Table.find?_eq_some.mp (live?_eq_some.mp (h.live a ha)).1).1

/-- What is listed is stored at locations of the node. -/
theorem Lists.isOutputUri (h : s.Lists uid found) {a : Artifact} (ha : a ∈ found) :
    s.IsOutputUri uid a.uri := ⟨a, h.mem_records ha, h.isOutput ha, rfl⟩

/-- The live outputs of a node depend on the records of what it has published only. -/
theorem liveOutputs_congr (hevents : s'.events = s.events)
    (hexecutions : s'.executions = s.executions)
    (houtputs : ∀ id, s.IsOutput uid id → s'.artifacts.find? id = s.artifacts.find? id) :
    s'.liveOutputs uid = s.liveOutputs uid := by
  have hpublications : s'.publications uid = s.publications uid := by
    rw [publications, publications, hevents, hexecutions]
    refine List.filterMap_congr fun e he => ?_
    cases e.outputKey with
    | none => rfl
    | some key =>
      cases hexecution : s.executions.find? e.executionId with
      | none => rfl
      | some x =>
        by_cases hof : e.kind.isOutput = true ∧ x.node = uid
        · have houtput : s.IsOutput uid e.artifactId := ⟨e, he, rfl, hof.1, x, hexecution, hof.2⟩
          rw [houtputs e.artifactId houtput]
        · have hnot (a : Artifact) :
              ¬ (e.kind.isOutput = true ∧ x.node = uid ∧ a.isLive = true) :=
            fun h => hof ⟨h.1, h.2.1⟩
          cases s'.artifacts.find? e.artifactId <;> cases s.artifacts.find? e.artifactId <;>
            simp [hnot]
  rw [liveOutputs, liveOutputs, hpublications]

end Store

/-- Two memories have in common what a pass of the node sees. -/
structure Memory.AgreesFor (m m' : Memory) (uid : NodeUid) : Prop where
  /-- Events are the same. -/
  events : m'.store.events = m.store.events
  /-- Executions are the same. -/
  executions : m'.store.executions = m.store.executions
  /-- Records of artifacts that the node has published are the same. -/
  outputs : ∀ id, m.store.IsOutput uid id →
    m'.store.artifacts.find? id = m.store.artifacts.find? id
  /-- Storage is the same at their locations. -/
  storage : m.storage.AgreesOn m'.storage (m.store.IsOutputUri uid)

/-- What a plan of the node lists. -/
def plannedIn (c : Conditions) (m : Memory) (uid : NodeUid) (node : NodeSpec) : List Artifact :=
  ((plan uid node).run (Memory.services c) m).ending.listed

section Passes

variable {c : Conditions} {m m' : Memory} {uid : NodeUid}

/-- The searches of a node are answered the same. -/
theorem Memory.AgreesFor.answer (h : m.AgreesFor m' uid) {request : Request}
    (hsearches : request.Searches uid) :
    ((Memory.services c).answer request m).1 = ((Memory.services c).answer request m').1 ∧
      ((Memory.services c).answer request m).2 = m ∧
      ((Memory.services c).answer request m').2 = m' := by
  have hsame {α : Type} {answer answer' : α} (fault : Option StoreFault)
      (heq : answer' = answer) :
      (Memory.underFault fault answer m m).1 = (Memory.underFault fault answer' m' m').1 ∧
        (Memory.underFault fault answer m m).2 = m ∧
        (Memory.underFault fault answer' m' m').2 = m' := by
    subst heq
    rcases fault with _ | _ | _ <;> exact ⟨rfl, rfl, rfl⟩
  cases request with
  | liveOutputs node =>
    obtain rfl : node = uid := hsearches
    have hlive := Store.liveOutputs_congr h.events h.executions h.outputs
    exact hsame _ (congrArg c.liveOverride.getD hlive)
  | events ids =>
    refine hsame _ ?_
    rw [Store.eventsOn, Store.eventsOn, h.events]
  | executions ids =>
    refine hsame _ ?_
    rw [Store.executionsOf, Store.executionsOf, h.executions]
  | unusedInGroups usage cs => exact ⟨rfl, rfl, rfl⟩
  | put | isDirectory | isPresent | remove | removeRecursive => cases hsearches

/-- The plans of the node end in the same way. -/
theorem Memory.AgreesFor.ending_plan (h : m.AgreesFor m' uid) (node : NodeSpec) :
    ((plan uid node).run (Memory.services c) m).ending =
      ((plan uid node).run (Memory.services c) m').ending := by
  have hkeeps := keeps_plan_origin (c := .ofAsks (Request.Searches uid)) (fun _ h => h) node
  refine (hkeeps.simulates (R := fun s s' => s = m ∧ s' = m') (fun {request s s'} hask hs => ?_)
    ⟨rfl, rfl⟩).1
  obtain ⟨rfl, rfl⟩ := hs
  exact h.answer hask

/-- A purge ends in the same way when it settles the same fates. -/
theorem fst_purge_congr {found : List Artifact}
    (h : (m'.storage.settleAll found).1 = (m.storage.settleAll found).1) :
    (m'.purge c found).1 = (m.purge c found).1 := by
  unfold Memory.purge
  rw [h]
  dsimp only
  split
  · rfl
  · split <;> rfl

variable (hlive : c.liveOverride = none) (hgroups : c.groups.PreservesRecords)
include hlive hgroups

/-- The passes of the node end in the same way. -/
theorem Memory.AgreesFor.ending_pass (h : m.AgreesFor m' uid) (node : NodeSpec) :
    ((pass uid node).run (Memory.services c) m').ending =
      ((pass uid node).run (Memory.services c) m).ending := by
  rcases pass_cases uid node with ⟨_, hpass⟩ | ⟨_, _, hpass⟩ | ⟨hid, hpolicies⟩
  · rw [hpass]
    rfl
  · rw [hpass]
    rfl
  · obtain ⟨_, hends⟩ := ends_pass_of_plan hlive hgroups hid hpolicies m
    obtain ⟨_, hends'⟩ := ends_pass_of_plan hlive hgroups hid hpolicies m'
    rw [hends.ending, hends'.ending, ← h.ending_plan node]
    cases hplanned : ((plan uid node).run (Memory.services c) m).ending with
    | returned found =>
      have hlists := lists_of_plan hlive hgroups hplanned
      have hsettled := h.storage.settleAll fun a ha => hlists.isOutputUri ha
      exact congrArg Ending.toOutcome (fst_purge_congr hsettled)
    | failed e => rfl
    | crashed => rfl

end Passes

end ArtifactGC
