import ArtifactGC.Proofs.Footprint
import ArtifactGC.Proofs.Interleaving

/-!
# Passes of unrelated nodes

Nodes are unrelated in a store if they share no outputs, and no output of one is stored at, above or
below an output of the other. A pass of one then changes nothing of what a pass of the other sees,
and what both change does not depend on which comes first. `Memory.After` is what the memory looks
like after some passes of unrelated nodes. It lists them without regard to their order, and so
`unrelated_passes_commute` follows.
-/

namespace ArtifactGC

namespace Store

/-- The nodes have published no artifact in common, and none of one lies at a location of the other,
above it or below it. -/
structure Unrelated (s : Store) (uid uid' : NodeUid) : Prop where
  /-- No artifact is published by both. -/
  outputs : ∀ id, s.IsOutput uid id → ¬ s.IsOutput uid' id
  /-- No artifact of one contains an artifact of the other. -/
  locations : ∀ uri uri', s.IsOutputUri uid uri → s.IsOutputUri uid' uri' →
    Storage.isWithin uri uri' = false ∧ Storage.isWithin uri' uri = false

variable {s : Store} {uid uid' : NodeUid}

theorem Unrelated.symm (h : s.Unrelated uid uid') : s.Unrelated uid' uid where
  outputs id hid' hid := h.outputs id hid hid'
  locations uri uri' huri huri' := (h.locations uri' uri huri' huri).symm

/-- It is enough to look at the events and the records. -/
theorem unrelated_iff : s.Unrelated uid uid' ↔
    (∀ e ∈ s.events, s.IsOutput uid e.artifactId → ¬ s.IsOutput uid' e.artifactId) ∧
      ∀ a ∈ s.artifacts.records, ∀ b ∈ s.artifacts.records,
        s.IsOutput uid a.id → s.IsOutput uid' b.id →
          Storage.isWithin a.uri b.uri = false ∧ Storage.isWithin b.uri a.uri = false := by
  constructor
  · intro h
    exact ⟨fun e _ => h.outputs e.artifactId, fun a ha b hb hout hout' =>
      h.locations a.uri b.uri ⟨a, ha, hout, rfl⟩ ⟨b, hb, hout', rfl⟩⟩
  · rintro ⟨hevents, hrecords⟩
    refine ⟨?_, ?_⟩
    · rintro _ ⟨e, he, rfl, hpublished⟩
      exact hevents e he ⟨e, he, rfl, hpublished⟩
    · rintro _ _ ⟨a, ha, hout, rfl⟩ ⟨b, hb, hout', rfl⟩
      exact hrecords a ha b hb hout hout'

instance (s : Store) (uid uid' : NodeUid) : Decidable (s.Unrelated uid uid') :=
  decidable_of_iff' _ unrelated_iff

end Store

/-! ## A memory after some passes -/

namespace Memory

/-- The result of the pass of a node when no other pass comes before it. -/
def resultOf (c : Conditions) (m : Memory) (n : NodeUid × NodeSpec) : Except Failure Outcome :=
  ((pass n.1 n.2).run (services c) m).ending.toResult

/-- The second memory is what the passes of some nodes leave of the first one, if each of them does
there what it does when no other pass comes before it. -/
structure After (c : Conditions) (m : Memory) (done : List (NodeUid × NodeSpec)) (m' : Memory) :
    Prop where
  /-- The artifacts that the passes report as deleted or external are marked deleted. -/
  store : m'.store = m.store.markAll (done.map fun n => markedBy (m.resultOf c n))
  /-- Storage is left of what it was. -/
  leftOf : m'.storage.LeftOf m.storage
  /-- Gone is what the removals take that the passes attempt. -/
  locations : ∀ {directory path}, path ∈ m'.storage.locations directory ↔
    path ∈ m.storage.locations directory ∧ ∀ n ∈ done, ∀ a ∈ plannedIn c m n.1 n.2,
      a.isExternal = false → ¬ m.storage.Takes a.uri path

variable {c : Conditions} {m m' : Memory} {done : List (NodeUid × NodeSpec)}

theorem After.refl (c : Conditions) (m : Memory) : m.After c [] m :=
  ⟨rfl, .refl _, fun {_ _} => ⟨fun h => ⟨h, List.forall_mem_nil _⟩, And.left⟩⟩

section Steps

variable (hlive : c.liveOverride = none) (hgroups : c.groups.PreservesRecords)
  (h : m.After c done m')
include hlive hgroups h

/-- A pass of a node that is unrelated to those before sees what it would see without them. -/
theorem After.agreesFor {uid : NodeUid} (hunrelated : ∀ n ∈ done, m.store.Unrelated n.1 uid) :
    m.AgreesFor m' uid where
  events := by rw [h.store, Store.events_markAll]
  executions := by rw [h.store, Store.executions_markAll]
  outputs id hid := by
    rw [h.store]
    refine Store.find?_markAll_of_notMem fun ids hids hmem => ?_
    obtain ⟨n, hn, rfl⟩ := List.mem_map.mp hids
    have hpurged := purged_of_pass hlive hgroups n.1 n.2 m
    obtain ⟨a, ha, rfl⟩ := List.mem_map.mp (hpurged.subset hmem)
    exact (hunrelated n hn).outputs a.id (hpurged.lists.isOutput ha) hid
  storage := by
    refine h.leftOf.agreesOn fun uri huri directory hmem => ?_
    refine h.locations.mpr ⟨hmem, fun n hn a ha _ htakes => ?_⟩
    have hlists := (purged_of_pass hlive hgroups n.1 n.2 m).lists
    have hapart := ((hunrelated n hn).locations a.uri uri (hlists.isOutputUri ha) huri).1
    have hwithin : Storage.isWithin a.uri uri = true := htakes.isWithin
    rw [hapart] at hwithin
    cases hwithin

/-- A pass of a node that is unrelated to those before does what it does without them. -/
theorem After.pass {uid : NodeUid} (hunrelated : ∀ n ∈ done, m.store.Unrelated n.1 uid)
    (node : NodeSpec) :
    let run := (pass uid node).run (services c) m'
    run.ending.toResult = m.resultOf c (uid, node) ∧
      m.After c (done ++ [(uid, node)]) run.state := by
  intro run
  have hagrees := h.agreesFor hlive hgroups hunrelated
  have hresult : run.ending.toResult = m.resultOf c (uid, node) :=
    congrArg Ending.toResult (hagrees.ending_pass hlive hgroups node)
  have hplanned : plannedIn c m' uid node = plannedIn c m uid node := by
    rw [plannedIn, plannedIn, hagrees.ending_plan]
  have hpurged : m'.Purged uid (plannedIn c m' uid node) run.ending.toResult run.state :=
    purged_of_pass hlive hgroups uid node m'
  have hstorage := hpurged.storage
  rw [hplanned] at hstorage
  refine ⟨hresult, ?_, ?_, fun {directory path} => ?_⟩
  · rw [hpurged.store, hresult, h.store, List.map_append, Store.markAll_append]
    rfl
  · rw [hstorage]
    exact (Storage.leftOf_settleAll _ _).trans h.leftOf
  · rw [hstorage, Storage.mem_locations_settleAll, List.forall_mem_append,
      List.forall_mem_singleton, ← and_assoc, ← h.locations]
    refine and_congr_right fun hleft => ?_
    simp only [h.leftOf.takes_iff hleft]

/-- Passes of unrelated nodes, one after another, each do what they do without the others. -/
theorem After.oneByOne {nodes : List (NodeUid × NodeSpec)}
    (hunrelated : (done ++ nodes).Pairwise fun n n' => m.store.Unrelated n.1 n'.1) :
    let run := ArtifactGC.oneByOne (services c) nodes m'
    run.1 = nodes.map (fun n => (n.1, m.resultOf c n)) ∧ m.After c (done ++ nodes) run.2 := by
  induction nodes generalizing done m' with
  | nil => exact ⟨rfl, by rwa [List.append_nil]⟩
  | cons n nodes ih =>
    obtain ⟨uid, node⟩ := n
    have hbefore : ∀ n ∈ done, m.store.Unrelated n.1 uid := fun n hn =>
      (List.pairwise_append.mp hunrelated).2.2 n hn (uid, node) List.mem_cons_self
    obtain ⟨hresult, hafter⟩ := h.pass hlive hgroups hbefore node
    rw [List.append_cons] at hunrelated ⊢
    obtain ⟨hresults, hrest⟩ := ih hafter hunrelated
    refine ⟨?_, hrest⟩
    rw [ArtifactGC.oneByOne, List.map_cons, hresults, hresult]

end Steps

end Memory

/-- Let a store answer with the live artifacts that it holds, if at all, and a filter answer
candidates as it was asked about them. Then passes of unrelated nodes, one after another, have the
results that they have alone, and in whichever order they run, they leave the same artifacts,
executions, events and batches, and the same files and directories. -/
theorem unrelated_passes_commute (c : Conditions) (hlive : c.liveOverride = none)
    (hgroups : c.groups.PreservesRecords) (m : Memory) (nodes nodes' : List (NodeUid × NodeSpec))
    (hunrelated : nodes.Pairwise fun n n' => m.store.Unrelated n.1 n'.1)
    (hperm : nodes'.Perm nodes) :
    let services := Memory.services c
    let run := runMany services [] nodes m
    let run' := runMany services [] nodes' m
    let alone := fun n : NodeUid × NodeSpec =>
      (n.1, ((pass n.1 n.2).run services m).ending.toResult)
    (run.results = nodes.map alone ∧ run'.results = nodes'.map alone) ∧
      run'.state.store = run.state.store ∧
      (∀ path, path ∈ run'.state.storage.files ↔ path ∈ run.state.storage.files) ∧
      ∀ path, path ∈ run'.state.storage.directories ↔ path ∈ run.state.storage.directories := by
  intro services run run' alone
  have hunrelated' : nodes'.Pairwise fun n n' => m.store.Unrelated n.1 n'.1 :=
    (hperm.pairwise_iff fun {_ _} h => h.symm).mpr hunrelated
  obtain ⟨hresults, hafter⟩ := (Memory.After.refl c m).oneByOne hlive hgroups hunrelated
  obtain ⟨hresults', hafter'⟩ := (Memory.After.refl c m).oneByOne hlive hgroups hunrelated'
  obtain ⟨hrun, hstate⟩ := runMany_nil services nodes m
  obtain ⟨hrun', hstate'⟩ := runMany_nil services nodes' m
  rw [← hstate] at hafter
  rw [← hstate'] at hafter'
  have hlocations (directory : Bool) (path : String) :
      path ∈ run'.state.storage.locations directory ↔
        path ∈ run.state.storage.locations directory := by
    refine hafter'.locations.trans (Iff.trans ?_ hafter.locations.symm)
    simp only [List.nil_append, hperm.mem_iff]
  have hfiles (path : String) := hlocations false path
  have hdirectories (path : String) := hlocations true path
  refine ⟨⟨hrun.trans hresults, hrun'.trans hresults'⟩, ?_, hfiles, hdirectories⟩
  calc run'.state.store
    _ = m.store.markAll (nodes'.map fun n => markedBy (m.resultOf c n)) := hafter'.store
    _ = m.store.markAll (nodes.map fun n => markedBy (m.resultOf c n)) :=
      Store.markAll_of_perm (hperm.map _)
    _ = run.state.store := hafter.store.symm

/-- The reader has published models too, the older one in a directory, and still reads a model of
the trainer. Each pass deletes the older models that are not in use, whichever of them is first. -/
theorem trainer_and_reader_commute :
    let reader : NodeUid := ⟨"pipeline", "reader"⟩
    let spec := (NodeSpec.new "reader").withOutput "model" (some (.ofRecency 1))
    let read := (Store.ofModels [model 1 "/1", model 2 "/2", model 3 "/3"]).withReader 1 .running
    let store := ((read.insertArtifact (model 4 "/4")).insertEvent (.published ⟨4⟩ ⟨2⟩ "model")
      |>.insertArtifact (model 5 "/5")).insertEvent (.published ⟨5⟩ ⟨2⟩ "model")
    let m : Memory :=
      ⟨store, ((Storage.empty.addFile "/2").addDirectory "/4").addFile "/4/weights"⟩
    let nodes := [(trainer, trainerSpec (.ofRecency 1)), (reader, spec)]
    let run := runMany (Memory.services .normal) [] nodes m
    let run' := runMany (Memory.services .normal) [] nodes.reverse m
    Conditions.normal.groups.PreservesRecords ∧
      nodes.Pairwise (fun n n' => m.store.Unrelated n.1 n'.1) ∧
      run.results = [(trainer, .ok (.collected ⟨[⟨2⟩], [], []⟩)),
        (reader, .ok (.collected ⟨[⟨4⟩], [], []⟩))] ∧
      run'.results = run.results.reverse ∧
      run.state.store = m.store.markAll [[⟨4⟩], [⟨2⟩]] ∧
      run'.state.store = run.state.store ∧
      run.state.storage.files = [] ∧ run.state.storage.directories = [] := by
  intro reader spec read store m nodes run run'
  have hgroups : Conditions.normal.groups.PreservesRecords := by
    rintro usage cs _ ⟨⟩ a ha _
    exact ha
  have hunrelated : nodes.Pairwise fun n n' => m.store.Unrelated n.1 n'.1 := by decide +kernel
  have hresults : run.results = [(trainer, .ok (.collected ⟨[⟨2⟩], [], []⟩)),
      (reader, .ok (.collected ⟨[⟨4⟩], [], []⟩))] := by decide +kernel
  have hstore : run.state.store = m.store.markAll [[⟨4⟩], [⟨2⟩]] := by decide +kernel
  have hfiles : run.state.storage.files = [] := by decide +kernel
  have hdirectories : run.state.storage.directories = [] := by decide +kernel
  obtain ⟨⟨halone, halone'⟩, hsame, _⟩ :=
    unrelated_passes_commute .normal rfl hgroups m nodes nodes.reverse hunrelated
      (List.reverse_perm nodes)
  have hreverse : run'.results = run.results.reverse := by
    rw [halone, ← List.map_reverse]
    exact halone'
  exact ⟨hgroups, hunrelated, hresults, hreverse, hstore, hsame, hfiles, hdirectories⟩

end ArtifactGC
