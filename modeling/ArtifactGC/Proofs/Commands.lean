import ArtifactGC.Proofs.FileTrees
import ArtifactGC.Proofs.Performing
import ArtifactGC.Proofs.Reloading
import ArtifactGC.Proofs.RoundTrip

/-!
# What commands leave behind

A command reads the files of its target. If it accepts their texts, it runs a plan or a pass with
the store that the snapshot holds, and `collect` may write the snapshot of that store back. Nothing
but the records that the printed outcome reports as deleted or external differs then from the
snapshot that was read, whatever storage answers, also when the pass was given up. If the texts are
not accepted, nothing but reading them is done. `commands_change_what_they_report` says so.
-/

namespace ArtifactGC

/-! ## Snapshots with marked artifacts -/

/-- To mark artifacts deleted changes the state of their records in the snapshot. -/
theorem Store.snapshot_mark (s : Store) (ids : List ArtifactId) : (s.mark ids).snapshot =
    { s.snapshot with artifacts := s.snapshot.artifacts.map (.markedIn ids) } := by
  rw [snapshot, artifacts_mark, executions_mark, events_mark]
  rfl

/-- To mark an artifact deleted does not change its properties. -/
@[simp] theorem Artifact.doubles_markedIn (ids : List ArtifactId) (a : Artifact) :
    (a.markedIn ids).doubles = a.doubles := by
  unfold markedIn
  split <;> rfl

/-- What is left of a snapshot after a pass with some outcome: the artifacts that it reports as
deleted or external are marked deleted, and of several executions that share an identifier the last
one is in place of the first. -/
def Snapshot.afterPass (t : Snapshot) (outcome : Outcome) : Snapshot :=
  ⟨t.artifacts.map (.markedIn (markedBy (.ok outcome))), latest Execution.id t.executions, t.events⟩

/-- What is left of a snapshot that was read from some text reads back from the text that is
written, when the doubles in it do. -/
theorem readText?_afterPass [ScalarTexts] [LawfulScalarTexts] {text : String} {t : Snapshot}
    (h : readText? Snapshot text = some t) (hread : ∀ d ∈ t.doubles, d.IsReadBack)
    (outcome : Outcome) :
    readText? Snapshot (toJson (t.afterPass outcome)).pretty = some (t.afterPass outcome) := by
  have hdoubles : (t.afterPass outcome).doubles = t.doubles := by
    unfold Snapshot.afterPass
    rw [Snapshot.doubles, List.flatMap_map]
    simp only [Artifact.doubles_markedIn]
    rfl
  obtain ⟨j, _, hj⟩ := Option.bind_eq_some_iff.mp h
  have hfinite : ∀ d ∈ t.doubles, d.isFinite = true :=
    List.all_eq_true.mp (Snapshot.guardedCodec.isFinite_of_ofJson? hj)
  exact Snapshot.guardedCodec.roundTrips.reads_back _ (hdoubles ▸ hread) (hdoubles ▸ hfinite) _
    (by simp [textsOf])

namespace Command

/-- Without a node that is named, or with the declared one named, the declared one is asked for. -/
theorem nodeId_nodeUid_eq_iff {target : Target} {node : NodeSpec} :
    (target.nodeUid node).nodeId = node.id ↔
      target.nodeId = none ∨ target.nodeId = some node.id := by
  cases h : target.nodeId <;> simp [Target.nodeUid, h]

/-- A command that ran a pass ends well unless the pass was given up. -/
theorem code_statusOf (outcome : Outcome) :
    (statusOf outcome).code = 0 ↔ ¬ ∃ kind message, outcome = .aborted kind message := by
  cases outcome <;> simp [statusOf, Outcome.isAborted, ExitStatus.code]

section Texts

variable [ScalarTexts]

/-! ## Loading -/

/-- The texts of a snapshot and of a node make sense for a command. -/
structure Target.Accepts (target : Target) (text nodeText : String) (snapshot : Snapshot)
    (node : NodeSpec) : Prop where
  /-- The first text holds a snapshot. -/
  snapshot_read : readText? Snapshot text = some snapshot
  /-- The second text holds the declaration of a node. -/
  node_read : readText? NodeSpec nodeText = some node
  /-- No artifact identifier is repeated. -/
  distinct : (snapshot.artifacts.map (·.id)).Nodup
  /-- No node is named, or the declared one is. -/
  declared : target.nodeId = none ∨ target.nodeId = some node.id

/-- An artifact of the snapshot that a text holds is located at a path. -/
def Target.Reaches (target : Target) (text path : String) : Prop :=
  ∃ snapshot, readText? Snapshot text = some snapshot ∧
    ∃ a ∈ snapshot.artifacts, target.storage.locate a.uri = path

/-- The artifacts of an accepted snapshot are located at such paths. -/
theorem Target.Accepts.reaches {target : Target} {text nodeText : String} {snapshot : Snapshot}
    {node : NodeSpec} (h : target.Accepts text nodeText snapshot node) {a : Artifact}
    (ha : a ∈ snapshot.artifacts) : target.Reaches text (target.storage.locate a.uri) :=
  ⟨snapshot, h.snapshot_read, a, ha, rfl⟩

section Loading

variable {σ : Type} {host : Host (StateM σ)} {target : Target} {s s₁ s₂ : σ}
  {text nodeText : String}

omit [ScalarTexts] in
/-- A file that can be read is decoded. -/
theorem readJson_of_read {α : Type} [JsonCodec α] {path : String}
    (h : host.readText path s = (.ok text, s₁)) :
    (readJson host path : StateM σ (Except CommandError α)) s = (decodeText path text, s₁) :=
  bind_of_eq h

variable (htext : host.readText target.snapshot s = (.ok text, s₁))
include htext

/-- Without a snapshot the node is not even read. -/
theorem load_of_no_snapshot (h : readText? Snapshot text = none) :
    load host target s = (.error (.parse target.snapshot), s₁) := by
  refine (bind_of_eq (readJson_of_read htext)).trans ?_
  rw [decodeText_eq, h]
  rfl

variable (hnode : host.readText target.node s₁ = (.ok nodeText, s₂))
include hnode

/-- With a snapshot the node is read, and the store is loaded if no identifier is repeated. -/
theorem load_of_snapshot {snapshot : Snapshot} (h : readText? Snapshot text = some snapshot) :
    load host target s = ((do
      let node : NodeSpec ← decodeText target.node nodeText
      let store ← (Store.ofSnapshot snapshot).mapError CommandError.store
      return ⟨store, node⟩ : Except CommandError Loaded), s₂) := by
  refine (bind_of_eq (readJson_of_read htext)).trans ?_
  rw [decodeText_eq, h]
  refine (bind_of_eq (readJson_of_read hnode)).trans ?_
  cases (decodeText target.node nodeText : Except CommandError NodeSpec) with
  | error e => rfl
  | ok node =>
    dsimp only
    cases Store.ofSnapshot snapshot with
    | error e => rfl
    | ok store => rfl

/-- Texts that are accepted are loaded. -/
theorem load_of_accepted {snapshot : Snapshot} {node : NodeSpec}
    (h : target.Accepts text nodeText snapshot node) :
    ∃ store, Store.ofSnapshot snapshot = .ok store ∧
      load host target s = (.ok ⟨store, node⟩, s₂) := by
  have hstore := Store.ofSnapshot_eq_ok.mpr ⟨h.distinct, rfl⟩
  refine ⟨_, hstore, ?_⟩
  rw [load_of_snapshot htext hnode h.snapshot_read, decodeText_eq, h.node_read, hstore]
  rfl

/-- Texts that are not accepted are not loaded, or the node is not the one that is asked for. -/
theorem load_of_refused (h : ∀ snapshot node, ¬ target.Accepts text nodeText snapshot node) :
    (∃ e s', load host target s = (.error e, s') ∧ (s' = s₁ ∨ s' = s₂)) ∨
      ∃ store node, load host target s = (.ok ⟨store, node⟩, s₂) ∧
        (target.nodeUid node).nodeId ≠ node.id := by
  cases hread : readText? Snapshot text with
  | none => exact .inl ⟨_, s₁, load_of_no_snapshot htext hread, .inl rfl⟩
  | some snapshot =>
    rw [load_of_snapshot htext hnode hread, decodeText_eq]
    cases hdeclared : readText? NodeSpec nodeText with
    | none => exact .inl ⟨_, s₂, rfl, .inr rfl⟩
    | some node =>
      cases hstore : Store.ofSnapshot snapshot with
      | error e => exact .inl ⟨_, s₂, rfl, .inr rfl⟩
      | ok store =>
        have hdistinct := (Store.ofSnapshot_eq_ok.mp hstore).1
        exact .inr ⟨store, node, rfl, fun hid =>
          h snapshot node ⟨hread, hdeclared, hdistinct, nodeId_nodeUid_eq_iff.mp hid⟩⟩

end Loading

/-! ## Carrying out -/

section Tasks

variable {σ : Type} {host : Host (StateM σ)} {target : Target} {loaded : Loaded} {store : Store}
  {s s' s'' : σ}

/-- A plan that fails is the end. -/
theorem runPlan_of_failed {cause : Failure}
    (h : performLocally target.storage host (plan (target.nodeUid loaded.node) loaded.node)
      loaded.store s = ((.error cause, store), s')) :
    runPlan host target loaded s = (.stopped "" (.failure cause), s') :=
  bind_of_eq h

/-- What is planned is printed. -/
theorem runPlan_of_planned {found : List Artifact}
    (h : performLocally target.storage host (plan (target.nodeUid loaded.node) loaded.node)
      loaded.store s = ((.ok found, store), s')) :
    runPlan host target loaded s = (.printed .success (printedText found), s') :=
  bind_of_eq h

variable {write : Bool}

/-- A pass that fails is the end. -/
theorem runCollect_of_failed {cause : Failure}
    (h : performLocally target.storage host (pass (target.nodeUid loaded.node) loaded.node)
      loaded.store s = ((.error cause, store), s')) :
    runCollect host target write loaded s = (.stopped "" (.failure cause), s') :=
  bind_of_eq h

variable {outcome : Outcome}
  (h : performLocally target.storage host (pass (target.nodeUid loaded.node) loaded.node)
    loaded.store s = ((.ok outcome, store), s'))
include h

/-- An outcome is printed. -/
theorem runCollect_of_unwritten : runCollect host target false loaded s =
    (.printed (statusOf outcome) (printedText outcome), s') :=
  bind_of_eq h

/-- An outcome is printed, and the snapshot after the pass is written. -/
theorem runCollect_of_written
    (hwrite : host.writeText target.snapshot (toJson store.snapshot).pretty s' = (.ok (), s'')) :
    runCollect host target true loaded s =
      (.printed (statusOf outcome) (printedText outcome), s'') :=
  (bind_of_eq h).trans (bind_of_eq hwrite)

/-- The outcome is printed whether or not the snapshot can be written. -/
theorem output_runCollect :
    (runCollect host target write loaded s).1.output = printedText outcome := by
  cases write with
  | false => rw [runCollect_of_unwritten h]; rfl
  | true =>
    obtain ⟨r, s'', hwrite⟩ : ∃ r s'',
        host.writeText target.snapshot (toJson store.snapshot).pretty s' = (r, s'') :=
      ⟨_, _, rfl⟩
    cases r with
    | error cause =>
      have hrun : runCollect host target true loaded s =
          (.stopped (printedText outcome) (.write target.snapshot cause), s'') :=
        (bind_of_eq h).trans (bind_of_eq hwrite)
      rw [hrun]
      rfl
    | ok _ =>
      rw [runCollect_of_written h hwrite]
      rfl

end Tasks

section Invocations

variable {σ : Type} {host : Host (StateM σ)} {invocation : Invocation} {s s₁ s₂ : σ}
  {text nodeText : String}

/-- After loading the task is carried out. -/
theorem carryOut_of_loaded {loaded : Loaded}
    (h : load host invocation.target s = (.ok loaded, s₂)) :
    carryOut host invocation s = (match invocation.task with
      | .plan => runPlan host invocation.target loaded
      | .collect write => runCollect host invocation.target write loaded) s₂ :=
  bind_of_eq h

variable
  (htext : host.readText invocation.target.snapshot s = (.ok text, s₁))
  (hnode : host.readText invocation.target.node s₁ = (.ok nodeText, s₂))
include htext hnode

/-- When the texts are not accepted, nothing is printed, and nothing but reading them is done. -/
theorem carryOut_of_refused
    (h : ∀ snapshot node, ¬ invocation.target.Accepts text nodeText snapshot node) :
    ∃ e s', carryOut host invocation s = (.stopped "" e, s') ∧ (s' = s₁ ∨ s' = s₂) := by
  rcases load_of_refused htext hnode h with ⟨e, s', hload, hs'⟩ | ⟨store, node, hload, hid⟩
  · exact ⟨e, s', bind_of_eq hload, hs'⟩
  · let storage := invocation.target.storage
    let uid := invocation.target.nodeUid node
    let mismatch : Failure := .nodeMismatch node.id uid.nodeId
    have hplan : performLocally storage host (plan uid node) store s₂ =
        ((.error mismatch, store), s₂) := by
      rw [plan_of_mismatch hid]
      rfl
    have hpass : performLocally storage host (pass uid node) store s₂ =
        ((.error mismatch, store), s₂) := by
      rw [pass_of_mismatch hid]
      rfl
    rw [carryOut_of_loaded hload]
    cases invocation.task with
    | plan => exact ⟨.failure mismatch, s₂, runPlan_of_failed hplan, .inr rfl⟩
    | collect write => exact ⟨.failure mismatch, s₂, runCollect_of_failed hpass, .inr rfl⟩

variable {snapshot : Snapshot} {node : NodeSpec}
  (h : invocation.target.Accepts text nodeText snapshot node)
include h

/-- The outcome of the pass of accepted texts is printed. -/
theorem output_of_accepted {write : Bool} (htask : invocation.task = .collect write)
    {store : Store} (hstore : Store.ofSnapshot snapshot = .ok store) {outcome : Outcome}
    (hpass : (performLocally invocation.target.storage host
      (pass (invocation.target.nodeUid node) node) store s₂).1.1 = .ok outcome) :
    (carryOut host invocation s).1.output = printedText outcome := by
  obtain ⟨store', hstore', hload⟩ := load_of_accepted htext hnode h
  obtain rfl : store' = store := Except.ok.inj (hstore'.symm.trans hstore)
  rw [carryOut_of_loaded hload, htask]
  exact output_runCollect (Prod.ext (Prod.ext hpass rfl) rfl)

variable {paths : String → Prop} {J : σ → Prop} (hJ : host.Preserves paths J)
  (hpaths : ∀ a ∈ snapshot.artifacts, paths (invocation.target.storage.locate a.uri)) (hs : J s₂)
include hJ hpaths hs

/-- The pass of accepted texts ends with an outcome, and what is left of the snapshot is that of the
store after it. -/
theorem performs_accepted_pass :
    ∃ store store' outcome s', load host invocation.target s = (.ok ⟨store, node⟩, s₂) ∧
      performLocally invocation.target.storage host (pass (invocation.target.nodeUid node) node)
        store s₂ = ((.ok outcome, store'), s') ∧
      store'.snapshot = snapshot.afterPass outcome ∧
      (∀ id ∈ markedBy (.ok outcome), ∃ a ∈ snapshot.artifacts, a.id = id ∧ a.isLive = true) ∧
      J s' := by
  obtain ⟨store, hstore, hload⟩ := load_of_accepted htext hnode h
  have hsnapshot := Store.snapshot_of_loaded hstore
  have hrecords : store.artifacts.records = snapshot.artifacts :=
    congrArg Snapshot.artifacts hsnapshot
  obtain ⟨outcome, s', hpass, hlive, hs'⟩ :=
    performs_pass hJ (hrecords ▸ hpaths) (nodeId_nodeUid_eq_iff.mpr h.declared) hs
  refine ⟨store, _, outcome, s', hload, hpass, ?_, fun id hid => ?_, hs'⟩
  · rw [Store.snapshot_mark, hsnapshot]
    rfl
  · obtain ⟨a, ha⟩ := hlive id hid
    obtain ⟨hfind, hstate⟩ := Store.live?_eq_some.mp ha
    obtain ⟨hmem, rfl⟩ := Table.find?_eq_some.mp hfind
    exact ⟨a, hrecords ▸ hmem, rfl, by simp [Artifact.isLive, hstate]⟩

/-- With accepted texts `collect` ends with an outcome, and if what is left of the snapshot can be
written, it is. -/
theorem collect_of_accepted (htask : invocation.task = .collect true) :
    ∃ outcome s', J s' ∧
      (∀ id ∈ markedBy (.ok outcome), ∃ a ∈ snapshot.artifacts, a.id = id ∧ a.isLive = true) ∧
      ∀ s'', host.writeText invocation.target.snapshot
          (toJson (snapshot.afterPass outcome)).pretty s' = (.ok (), s'') →
        carryOut host invocation s =
          (.printed (statusOf outcome) (printedText outcome), s'') := by
  obtain ⟨store, store', outcome, s', hload, hpass, hsnapshot, hlive, hs'⟩ :=
    performs_accepted_pass htext hnode h hJ hpaths hs
  refine ⟨outcome, s', hs', hlive, fun s'' hwrite => ?_⟩
  rw [carryOut_of_loaded hload, htask]
  exact runCollect_of_written hpass (hsnapshot ▸ hwrite)

/-- With accepted texts nothing is written unless `collect` is asked to. -/
theorem carryOut_of_unwritten (htask : invocation.task ≠ .collect true) :
    ∃ result s', carryOut host invocation s = (result, s') ∧ J s' := by
  obtain ⟨store, store', outcome, s', hload, hpass, _, _, hs'⟩ :=
    performs_accepted_pass htext hnode h hJ hpaths hs
  rw [carryOut_of_loaded hload]
  cases hplan : invocation.task with
  | plan =>
    obtain ⟨r, s', hplanned, hs'⟩ :=
      performs_plan hJ invocation.target.storage store
        (nodeId_nodeUid_eq_iff.mpr h.declared) hs
    cases r with
    | error cause => exact ⟨_, s', runPlan_of_failed hplanned, hs'⟩
    | ok found => exact ⟨_, s', runPlan_of_planned hplanned, hs'⟩
  | collect write =>
    obtain rfl : write = false := by
      cases write with
      | true => exact absurd hplan htask
      | false => rfl
    exact ⟨_, s', runCollect_of_unwritten hpass, hs'⟩

end Invocations

/-! ## Recorded calls -/

section Recorded

variable {σ : Type} (host : Host (StateM σ)) (target : Target)

omit [ScalarTexts] in
theorem records_readJson {α : Type} [JsonCodec α] (path : String) :
    Records (readJson host.recorded path : StateM _ (Except CommandError α))
      (readJson host path) := by
  refine (records_remembering (.readText path) _).bind fun r => ?_
  cases r with
  | error cause => exact records_pure _
  | ok text => exact records_pure _

theorem records_load : Records (load host.recorded target) (load host target) := by
  refine (records_readJson host target.snapshot).bind fun r => ?_
  cases r with
  | error e => exact records_pure _
  | ok snapshot =>
    refine (records_readJson host target.node).bind fun r => ?_
    cases r with
    | error e => exact records_pure _
    | ok node =>
      dsimp only
      cases Store.ofSnapshot snapshot with
      | error cause => exact records_pure _
      | ok store => exact records_pure _

theorem records_runPlan (loaded : Loaded) :
    Records (runPlan host.recorded target loaded) (runPlan host target loaded) := by
  refine (records_performLocally target.storage host _ loaded.store).bind fun r => ?_
  obtain ⟨_ | found, store⟩ := r
  · exact records_pure _
  · exact records_pure _

theorem records_runCollect (write : Bool) (loaded : Loaded) :
    Records (runCollect host.recorded target write loaded)
      (runCollect host target write loaded) := by
  refine (records_performLocally target.storage host _ loaded.store).bind fun r => ?_
  obtain ⟨_ | outcome, store⟩ := r
  · exact records_pure _
  · cases write with
    | false => exact records_pure _
    | true =>
      refine (records_remembering (.writeText target.snapshot _) _).bind fun r => ?_
      cases r with
      | error cause => exact records_pure _
      | ok _ => exact records_pure _

/-- Commands are carried out the same when the calls of the machine are recorded. -/
theorem records_carryOut (invocation : Invocation) :
    Records (carryOut host.recorded invocation) (carryOut host invocation) := by
  refine (records_load host invocation.target).bind fun r => ?_
  cases r with
  | error e => exact records_pure _
  | ok loaded =>
    dsimp only
    cases invocation.task with
    | plan => exact records_runPlan host _ loaded
    | collect write => exact records_runCollect host _ write loaded

end Recorded

/-- What is asked of a machine to read the files of a command. -/
def Target.reads (target : Target) : List HostCall :=
  [.readText target.snapshot, .readText target.node]

section Guarded

variable {σ : Type} {host : Host (StateM σ)} {invocation : Invocation} {s : σ}
  {text nodeText : String} (htext : host.Holds invocation.target.snapshot text s)
  (hnode : host.Holds invocation.target.node nodeText
    (host.readText invocation.target.snapshot s).2)
  (hguards : host.Guards invocation.target.snapshot (invocation.target.Reaches text))
include htext hnode hguards

/-- Reading the files of a command is recorded, and leaves the snapshot file as it is. -/
theorem recorded_reads : ∃ s₁ s₂,
    host.recorded.readText invocation.target.snapshot (s, []) =
      (.ok text, s₁, [.readText invocation.target.snapshot]) ∧
    host.recorded.readText invocation.target.node
      (s₁, [.readText invocation.target.snapshot]) = (.ok nodeText, s₂, invocation.target.reads) ∧
    host.Holds invocation.target.snapshot text s₁ ∧
    host.Holds invocation.target.snapshot text s₂ := by
  have htext₁ : host.Holds invocation.target.snapshot text
      (host.readText invocation.target.snapshot s).2 := hguards.readText htext
  exact ⟨_, _, Prod.ext htext rfl, Prod.ext hnode rfl, htext₁, hguards.readText htext₁⟩

/-- When the texts are not accepted, the machine is asked for nothing but them. -/
theorem recorded_of_refused
    (h : ∀ snapshot node, ¬ invocation.target.Accepts text nodeText snapshot node) :
    ∃ e after calls, carryOut host.recorded invocation (s, []) = (.stopped "" e, after, calls) ∧
      host.Holds invocation.target.snapshot text after ∧ calls <+: invocation.target.reads := by
  obtain ⟨s₁, s₂, hread, hreadNode, htext₁, htext₂⟩ := recorded_reads htext hnode hguards
  obtain ⟨e, after, hstopped, rfl | rfl⟩ := carryOut_of_refused hread hreadNode h
  · exact ⟨e, s₁, _, hstopped, htext₁, List.prefix_append [_] [_]⟩
  · exact ⟨e, s₂, _, hstopped, htext₂, List.prefix_rfl⟩

variable {snapshot : Snapshot} {node : NodeSpec}
  (h : invocation.target.Accepts text nodeText snapshot node)
include h

/-- When the texts are accepted and the snapshot is to be written, storage is used at the locations
of its artifacts only, and what is left of the snapshot is written at the end. -/
theorem recorded_of_accepted (htask : invocation.task = .collect true) :
    ∃ outcome after between,
      let written := (toJson (snapshot.afterPass outcome)).pretty
      carryOut host.recorded invocation (s, []) =
        (.printed (statusOf outcome) (printedText outcome), after, invocation.target.reads ++
          between ++ [.writeText invocation.target.snapshot written]) ∧
      host.Holds invocation.target.snapshot written after ∧
      (∀ id ∈ markedBy (.ok outcome), ∃ a ∈ snapshot.artifacts, a.id = id ∧ a.isLive = true) ∧
      ∀ call ∈ between, call.Within (invocation.target.Reaches text) := by
  obtain ⟨s₁, s₂, hread, hreadNode, _, htext₂⟩ := recorded_reads htext hnode hguards
  have hJ := (hguards.preserves text).recorded invocation.target.reads
  obtain ⟨outcome, ⟨s₃, _⟩, ⟨htext₃, between, rfl, hbetween⟩, hlive, hwrites⟩ :=
    collect_of_accepted hread hreadNode h hJ (fun _ => h.reaches) ⟨htext₂, [], by simp⟩ htask
  -- the pass has left the file as it was, so that it can be written
  let written := (toJson (snapshot.afterPass outcome)).pretty
  obtain ⟨hwritten, hholds⟩ :
      (host.writeText invocation.target.snapshot written s₃).1 = .ok () ∧
        host.Holds invocation.target.snapshot written
          (host.writeText invocation.target.snapshot written s₃).2 :=
    hguards.writeText htext₃
  exact ⟨outcome, _, between, hwrites _ (Prod.ext hwritten rfl), hholds, hlive, hbetween⟩

/-- When the texts are accepted and the snapshot is not to be written, no file is. -/
theorem recorded_of_unwritten (htask : invocation.task ≠ .collect true) :
    ∃ result after between, carryOut host.recorded invocation (s, []) =
        (result, after, invocation.target.reads ++ between) ∧
      host.Holds invocation.target.snapshot text after ∧
      ∀ call ∈ between, call.Within (invocation.target.Reaches text) := by
  obtain ⟨s₁, s₂, hread, hreadNode, _, htext₂⟩ := recorded_reads htext hnode hguards
  have hJ := (hguards.preserves text).recorded invocation.target.reads
  obtain ⟨result, ⟨after, _⟩, hended, hholds, between, rfl, hbetween⟩ :=
    carryOut_of_unwritten hread hreadNode h hJ (fun _ => h.reaches) ⟨htext₂, [], by simp⟩ htask
  exact ⟨result, after, between, hended, hholds, hbetween⟩

end Guarded

/-- Let integers, identifiers and instants read back from their texts. Let the files of a command hold
some texts, and let storage do anything at the locations of artifacts, except that it leaves the
snapshot file alone.

If the texts are accepted, `collect` that is asked to write prints an outcome and ends well unless
the pass was given up. The snapshot file then holds what is left of the snapshot. It is written at
the end, and it reads back if the doubles in it do; before that storage is used only at the
locations of its artifacts. If the texts are not accepted, the command fails, prints nothing and
does nothing but read them. A plan, and `collect` that is not asked to write, write no file. -/
theorem commands_change_what_they_report [LawfulScalarTexts] {σ : Type} (host : Host (StateM σ))
    (invocation : Invocation) (s : σ) {text nodeText : String}
    (htext : host.Holds invocation.target.snapshot text s)
    (hnode : host.Holds invocation.target.node nodeText
      (host.readText invocation.target.snapshot s).2)
    (hguards : host.Guards invocation.target.snapshot (invocation.target.Reaches text)) :
    let target := invocation.target
    let run := carryOut host invocation s
    let calls := (carryOut host.recorded invocation (s, [])).2.2
    (∀ snapshot node, target.Accepts text nodeText snapshot node →
      invocation.task = .collect true → ∃ outcome status between,
        let written := (toJson (snapshot.afterPass outcome)).pretty
        run.1 = .printed status (printedText outcome) ∧
        (status.code = 0 ↔ ¬ ∃ kind message, outcome = .aborted kind message) ∧
        readText? Outcome run.1.output = some outcome ∧
        host.Holds target.snapshot written run.2 ∧
        ((∀ d ∈ snapshot.doubles, d.IsReadBack) →
          readText? Snapshot written = some (snapshot.afterPass outcome)) ∧
        (∀ id ∈ markedBy (.ok outcome), ∃ a ∈ snapshot.artifacts, a.id = id ∧ a.isLive = true) ∧
        calls = target.reads ++ between ++ [.writeText target.snapshot written] ∧
        ∀ call ∈ between, call.Within (target.Reaches text)) ∧
    ((∀ snapshot node, ¬ target.Accepts text nodeText snapshot node) →
      run.1.status.code = 1 ∧ run.1.output = "" ∧ host.Holds target.snapshot text run.2 ∧
        calls <+: target.reads) ∧
    (invocation.task ≠ .collect true →
      host.Holds target.snapshot text run.2 ∧ ∀ path content, .writeText path content ∉ calls) := by
  intro target run calls
  have hproject {result : Result} {after : σ} {calls' : List HostCall}
      (h : carryOut host.recorded invocation (s, []) = (result, after, calls')) :
      run = (result, after) ∧ calls = calls' :=
    ⟨(records_carryOut host invocation).of_eq h, congrArg (·.2.2) h⟩
  have hnowrite (path content : String) : .writeText path content ∉ target.reads := by
    simp [Target.reads]
  refine ⟨fun snapshot node haccepts htask => ?_, fun hrefused => ?_, fun htask => ?_⟩
  · obtain ⟨outcome, after, between, hrecorded, hholds, hlive, hbetween⟩ :=
      recorded_of_accepted htext hnode hguards haccepts htask
    obtain ⟨hrun, hcalls⟩ := hproject hrecorded
    have hprinted : readText? Outcome (printedText outcome) = some outcome :=
      readText?_of_exact (by simp [textsOf])
    refine ⟨outcome, statusOf outcome, between, ?_⟩
    rw [hrun]
    exact ⟨rfl, code_statusOf outcome, hprinted, hholds,
      fun hread => readText?_afterPass haccepts.snapshot_read hread outcome, hlive, hcalls,
      hbetween⟩
  · obtain ⟨e, after, calls', hrecorded, hholds, hreads⟩ :=
      recorded_of_refused htext hnode hguards hrefused
    obtain ⟨hrun, hcalls⟩ := hproject hrecorded
    rw [hrun, hcalls]
    exact ⟨rfl, rfl, hholds, hreads⟩
  · by_cases haccepts : ∃ snapshot node, target.Accepts text nodeText snapshot node
    · obtain ⟨snapshot, node, haccepts⟩ := haccepts
      obtain ⟨result, after, between, hrecorded, hholds, hbetween⟩ :=
        recorded_of_unwritten htext hnode hguards haccepts htask
      obtain ⟨hrun, hcalls⟩ := hproject hrecorded
      rw [hrun, hcalls]
      refine ⟨hholds, fun path content hmem => ?_⟩
      rcases List.mem_append.mp hmem with hmem | hmem
      · exact hnowrite path content hmem
      · exact hbetween _ hmem
    · obtain ⟨e, after, calls', hrecorded, hholds, hreads⟩ :=
        recorded_of_refused htext hnode hguards fun snapshot node h =>
          haccepts ⟨snapshot, node, h⟩
      obtain ⟨hrun, hcalls⟩ := hproject hrecorded
      rw [hrun, hcalls]
      exact ⟨hholds, fun path content hmem => hnowrite path content (hreads.subset hmem)⟩

end Texts

/-! ## Collecting models on a file tree -/

section Standard

attribute [local instance] ScalarTexts.standard

/-- The trainer with two models. -/
def trainerStore : Store := .ofModels [model 1 "/models/1", model 2 "/models/2"]

/-- The target of the trainer with both files at the top of a file tree. -/
def trainerTarget : Target := ⟨"/snapshot.json", "/node.json", "pipeline", none, none⟩

/-- Its models are collected, and the snapshot is written back. -/
def trainerInvocation : Invocation := ⟨.collect true, trainerTarget, false⟩

/-- A file tree with the snapshot, a declaration of the trainer and the models. -/
def trainerTree : FileTree where
  entries := [(["snapshot.json"], .file (toJson trainerStore.snapshot).pretty),
    (["node.json"], .file (toJson (trainerSpec (.ofRecency 1))).pretty), (["models"], .directory),
    (["models", "1"], .file "first"), (["models", "2"], .file "second")]

/-- The snapshot in which the first model is marked deleted. -/
def collectedSnapshot : Snapshot :=
  ⟨[{ model 1 "/models/1" with state := .deleted }, model 2 "/models/2"],
    trainerStore.executions.records, trainerStore.events⟩

/-- With the standard texts, of two models the older one is collected, and the snapshot file then
holds the snapshot in which it is marked deleted. -/
theorem collected_model_is_written_back :
    (carryOut (FileTree.host []) trainerInvocation trainerTree).1 =
        .printed .success (printedText (Outcome.collected ⟨[⟨1⟩], [], []⟩)) ∧
      (FileTree.host []).Holds "/snapshot.json" (toJson collectedSnapshot).pretty
        (carryOut (FileTree.host []) trainerInvocation trainerTree).2 ∧
      readText? Snapshot (toJson collectedSnapshot).pretty = some collectedSnapshot := by
  let host := FileTree.host []
  let outcome : Outcome := .collected ⟨[⟨1⟩], [], []⟩
  let node := trainerSpec (.ofRecency 1)
  let text := (toJson trainerStore.snapshot).pretty
  let nodeText := (toJson node).pretty
  have htext : host.readText trainerInvocation.target.snapshot trainerTree =
      (.ok text, trainerTree) := rfl
  have hnode : host.readText trainerInvocation.target.node trainerTree =
      (.ok nodeText, trainerTree) := rfl
  have hdoubles : ∀ d ∈ trainerStore.snapshot.doubles, d.IsReadBack := by decide +kernel
  have hread : readText? Snapshot text = some trainerStore.snapshot :=
    Snapshot.guardedCodec.roundTrips.reads_back _ hdoubles (by decide +kernel) _
      (by simp [textsOf, text])
  have hreadNode : readText? NodeSpec nodeText = some node :=
    readText?_of_exact (by simp [textsOf, nodeText])
  have haccepts : trainerInvocation.target.Accepts text nodeText trainerStore.snapshot node :=
    ⟨hread, hreadNode, by decide +kernel, by decide +kernel⟩
  have hparsed : ParsedPath.ofText "/snapshot.json" = .ok ⟨true, ["snapshot.json"], false⟩ := by
    decide +kernel
  have hguards : host.Guards trainerInvocation.target.snapshot
      (trainerInvocation.target.Reaches text) := by
    refine (FileTree.host_guards hparsed (by decide)).mono fun path hreached => ?_
    obtain ⟨snapshot, hsnapshot, a, ha, rfl⟩ := hreached
    obtain rfl : snapshot = trainerStore.snapshot := Option.some.inj (hsnapshot.symm.trans hread)
    have hmodels : trainerStore.snapshot.artifacts =
        [model 1 "/models/1", model 2 "/models/2"] := by
      decide +kernel
    rw [hmodels] at ha
    rcases List.mem_pair.mp ha with rfl | rfl
    · have hlocation : ParsedPath.ofText "/models/1" = .ok ⟨true, ["models", "1"], false⟩ := by
        decide +kernel
      exact FileTree.avoids_of_ofText hlocation (by decide)
    · have hlocation : ParsedPath.ofText "/models/2" = .ok ⟨true, ["models", "2"], false⟩ := by
        decide +kernel
      exact FileTree.avoids_of_ofText hlocation (by decide)
  have hpass : (performLocally trainerInvocation.target.storage host
      (pass (trainerInvocation.target.nodeUid node) node) trainerStore trainerTree).1.1 =
      .ok outcome := by
    decide +kernel
  have hstore : Store.ofSnapshot trainerStore.snapshot = .ok trainerStore :=
    trainerStore.ofSnapshot_snapshot
  have houtput : (carryOut host trainerInvocation trainerTree).1.output = printedText outcome :=
    output_of_accepted htext hnode haccepts rfl hstore hpass
  obtain ⟨hwritten, _, _⟩ :=
    commands_change_what_they_report host trainerInvocation trainerTree (congrArg Prod.fst htext)
      (congrArg Prod.fst hnode) hguards
  obtain ⟨printed, status, between, hrun, hcode, hprinted, hholds, hreads, _⟩ :=
    hwritten trainerStore.snapshot node haccepts rfl
  have hdecoded : readText? Outcome (printedText outcome) = some outcome :=
    readText?_of_exact (by simp [textsOf])
  rw [houtput, hdecoded] at hprinted
  have hsame : printed = outcome := (Option.some.inj hprinted).symm
  have hafter : trainerStore.snapshot.afterPass printed = collectedSnapshot := by
    rw [hsame]
    decide +kernel
  rw [hsame] at hrun hcode
  rw [hafter] at hholds hreads
  have hsuccess : status = .success := by
    have hzero : status.code = 0 := hcode.mpr fun ⟨_, _, h⟩ => Outcome.noConfusion h
    cases status with
    | success => rfl
    | failure => cases hzero
    | usage => cases hzero
  rw [hsuccess] at hrun
  exact ⟨hrun, hholds, hreads hdoubles⟩

end Standard

end Command

end ArtifactGC
