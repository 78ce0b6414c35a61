import ArtifactGC.Proofs.Lifecycle

/-!
# Histories

A collector is called again and again: for plans, for passes and for passes of several nodes, which
take turns. From call to call the store may begin or cease to fail, and the filter may be another
one. Still nothing but the state of a record ever changes, and only a pass that reports an artifact
deletes it. An artifact is reported twice only by passes of one call that overlap, as
`model_is_reported_twice` shows; `histories_keep_lifecycle` says so of whole histories.
-/

namespace ArtifactGC

/-! ## Calls -/

/-- What a collector is called for. -/
inductive Call where
  /-- A plan of a node. -/
  | plan (uid : NodeUid) (node : NodeSpec)
  /-- A pass of a node. -/
  | pass (uid : NodeUid) (node : NodeSpec)
  /-- Passes of several nodes, and whose turn it is. -/
  | passes (nodes : List (NodeUid × NodeSpec)) (schedule : List Turn)

/-- What one run leaves behind that has some results. -/
def Passes.ofRun {σ α : Type} (results : List (NodeUid × Except Failure Outcome))
    (run : Run σ α) : Passes σ :=
  ⟨results, run.state, run.exchanges.map (0, ·), run.log⟩

/-- What a call leaves behind. -/
def Call.perform {σ : Type} (services : Services σ) (s : σ) : Call → Passes σ
  | .plan uid node => .ofRun [] ((ArtifactGC.plan uid node).run services s)
  | .pass uid node =>
    let run := (ArtifactGC.pass uid node).run services s
    .ofRun [(uid, run.ending.toResult)] run
  | .passes nodes schedule => runMany services schedule nodes s

/-- A call, and the conditions and the filter that it meets. -/
structure Step (τ : Type) where
  /-- The conditions. -/
  conditions : Conditions
  /-- The pipeline group filter. -/
  filter : FilterService τ
  /-- The call. -/
  call : Call

namespace Step

variable {τ : Type}

/-- The services that a call meets. -/
def services (step : Step τ) : Services (Memory × τ) :=
  (Memory.services step.conditions).withFilter step.filter

/-- The store answers with the live artifacts that it holds, if at all, and the filter answers
candidates as it was asked about them. -/
structure Honest (step : Step τ) : Prop where
  /-- No other live artifacts are answered than there are. -/
  live : step.conditions.liveOverride = none
  /-- Candidates are answered as they were asked about. -/
  filter : step.filter.PreservesRecords

end Step

/-! ## Episodes -/

/-- A call of a history, and the memory and the filter that it begins with. -/
structure Episode (τ : Type) where
  /-- The call, and what it meets. -/
  step : Step τ
  /-- The memory, and the state of the filter. -/
  before : Memory × τ

namespace Episode

variable {τ : Type}

/-- What the call leaves behind. -/
def passes (e : Episode τ) : Passes (Memory × τ) := e.step.call.perform e.step.services e.before

/-- The store after some of the exchanges. -/
def storeAfter (e : Episode τ) (exchanges : List (Nat × Exchange)) : Store :=
  (e.step.services.replay e.before (exchanges.map (·.2))).1.store

end Episode

section Histories

variable {τ : Type}

/-- The calls of a history, one after another. -/
def episodesOf : List (Step τ) → Memory × τ → List (Episode τ)
  | [], _ => []
  | step :: steps, s => ⟨step, s⟩ :: episodesOf steps (step.call.perform step.services s).state

/-- The state that a history leaves. -/
def runHistory (history : List (Step τ)) (s : Memory × τ) : Memory × τ :=
  history.foldl (fun s step => (step.call.perform step.services s).state) s

/-- All that is reported as deleted or external. -/
def reportedIn (episodes : List (Episode τ)) : List ArtifactId :=
  episodes.flatMap fun e => e.passes.marked

end Histories

section Calls

variable {τ : Type}

/-- A single pass is interleaved with no other one. -/
theorem interleaves_ofRun {σ : Type} (services : Services σ) (uid : NodeUid) (node : NodeSpec)
    (s : σ) :
    let run := (pass uid node).run services s
    (Passes.ofRun [(uid, run.ending.toResult)] run).Interleaves services [(uid, node)] s := by
  intro run
  obtain ⟨hanswers, hstate⟩ := services.answers_run (pass uid node) s
  have hexchanges : (run.exchanges.map ((0 : Nat), ·)).map (·.2) = run.exchanges := by
    simp [Function.comp_def]
  refine ⟨rfl, fun x hx => ?_, ?_, ?_, fun {i uid' node'} hnode => ?_⟩
  · obtain ⟨_, _, rfl⟩ := List.mem_map.mp hx
    exact Nat.one_pos
  · exact hexchanges ▸ hanswers
  · exact (congrArg _ hexchanges).trans hstate
  · cases i with
    | succ i => cases hnode
    | zero =>
      cases hnode
      refine ⟨run.ending, ?_, rfl⟩
      rw [Passes.ofRun, exchangesOf_map_self]
      exact Procedure.yields_run services _ s

/-- A plan has no results and writes nothing. -/
theorem faithful_plan {c : Conditions} {filter : FilterService τ} (uid : NodeUid)
    (node : NodeSpec) (s : Memory × τ) :
    let services := (Memory.services c).withFilter filter
    (Passes.ofRun [] ((plan uid node).run services s)).Faithful services s := by
  intro services
  obtain ⟨hanswers, hstate⟩ := services.answers_run (plan uid node) s
  have hexchanges : ((Passes.ofRun [] ((plan uid node).run services s)).exchanges).map (·.2) =
      ((plan uid node).run services s).exchanges := by
    simp [Passes.ofRun, Function.comp_def]
  have hnone {i : Nat} {batch : List Artifact} :
      (i, ⟨.put batch, some (.ok ())⟩) ∉
        (Passes.ofRun [] ((plan uid node).run services s)).exchanges := by
    intro hmem
    obtain ⟨x, hx, hput⟩ := List.mem_map.mp hmem
    have hquery := (keeps_plan_origin (c := .ofAsks Request.IsQuery)
      (Contract.allowsSearch_of_queries (fun _ h => h) uid) node).asks services s x hx
    cases hput
    cases hquery
  exact {
    writes := store_of_answer
    answers := hexchanges ▸ hanswers
    state := (congrArg _ hexchanges).trans hstate
    live := fun hsplit _ => absurd (hsplit ▸ List.mem_append_right _ List.mem_cons_self) hnone
    reported := fun hmem => absurd hmem hnone
    written := fun hresult => nomatch hresult
    nodup := fun hresult => nomatch hresult }

/-- Every call to honest services changes records only as it may. -/
theorem faithful_perform {step : Step τ} (hstep : step.Honest) (s : Memory × τ) :
    (step.call.perform step.services s).Faithful step.services s := by
  cases hcall : step.call with
  | plan uid node => exact faithful_plan uid node s
  | pass uid node =>
    exact faithful_of_interleaves hstep.live hstep.filter
      (interleaves_ofRun step.services uid node s)
  | passes nodes schedule =>
    exact faithful_of_interleaves hstep.live hstep.filter
      (interleaves_runMany step.services schedule nodes s)

end Calls

/-! ## Whole histories -/

section Whole

variable {τ : Type} {history : List (Step τ)} (hhistory : ∀ step ∈ history, step.Honest)
include hhistory

/-- Every call of a history changes records only as it may. -/
theorem faithful_of_mem {s : Memory × τ} {e : Episode τ} (he : e ∈ episodesOf history s) :
    e.passes.Faithful e.step.services e.before := by
  induction history generalizing s with
  | nil => cases he
  | cons step steps ih =>
    obtain ⟨hstep, hsteps⟩ := List.forall_mem_cons.mp hhistory
    rcases List.mem_cons.mp he with rfl | he
    · exact faithful_perform hstep s
    · exact ih hsteps he

/-- A history marks what its passes report. -/
theorem marks_history (s : Memory × τ) :
    s.1.store.Marks (reportedIn (episodesOf history s)) (runHistory history s).1.store := by
  induction history generalizing s with
  | nil => exact .refl _
  | cons step steps ih =>
    obtain ⟨hstep, hsteps⟩ := List.forall_mem_cons.mp hhistory
    exact (faithful_perform hstep s).marks.trans (ih hsteps _)

/-- What is reported in a history was live at its start. -/
theorem live_of_reported {s : Memory × τ} {e : Episode τ} (he : e ∈ episodesOf history s)
    {id : ArtifactId} (hid : id ∈ e.passes.marked) : ∃ a, s.1.store.live? id = some a := by
  induction history generalizing s with
  | nil => cases he
  | cons step steps ih =>
    obtain ⟨hstep, hsteps⟩ := List.forall_mem_cons.mp hhistory
    have hfirst := faithful_perform hstep s
    rcases List.mem_cons.mp he with rfl | he
    · exact hfirst.live_of_marked hid
    · obtain ⟨a, hlive⟩ := ih hsteps he
      exact ⟨a, (hfirst.marks.live_of_live hlive).2⟩

/-- Different calls report different artifacts. -/
theorem disjoint_reports (s : Memory × τ) :
    (episodesOf history s).Pairwise fun e e' => e.passes.marked.Disjoint e'.passes.marked := by
  induction history generalizing s with
  | nil => exact .nil
  | cons step steps ih =>
    obtain ⟨hstep, hsteps⟩ := List.forall_mem_cons.mp hhistory
    refine List.pairwise_cons.mpr ⟨fun e he id hid hid' => ?_, ih hsteps _⟩
    obtain ⟨a, hlive⟩ := live_of_reported hsteps he hid'
    exact ((faithful_perform hstep s).marks.live_of_live hlive).1 hid

/-- Where no passes overlap, no artifact is reported twice. -/
theorem nodup_reported {s : Memory × τ}
    (hnone : ∀ e ∈ episodesOf history s, ∀ i j, i ≠ j → ¬ e.passes.Overlap i j) :
    (reportedIn (episodesOf history s)).Nodup :=
  List.nodup_flatMap.mpr ⟨fun e he => (faithful_of_mem hhistory he).nodup_marked (hnone e he),
    disjoint_reports hhistory s⟩

end Whole

/-- In a history of plans and passes let stores answer with the live artifacts that they hold, if at
all, and filters answer candidates as they were asked about them. Then the records at the end are
those at the start: events, executions and the order of the artifacts stay, records keep all fields
but their state, what is reported as deleted or external is deleted, and what is deleted stays
deleted. Every single exchange marks what it writes and changes nothing else; what is live before
it and deleted after it is reported as deleted or external by the pass that makes the exchange. No
pass reports an artifact twice, and no two passes of different calls report the same one. If two
passes of one call do, each of them has asked for live artifacts before the other one wrote. So no
artifact is reported twice in the whole history where no passes overlap. -/
theorem histories_keep_lifecycle {τ : Type} (history : List (Step τ))
    (hhistory : ∀ step ∈ history, step.Honest) (m : Memory) (t : τ) :
    let episodes := episodesOf history (m, t)
    let after := (runHistory history (m, t)).1.store
    (after.events = m.store.events ∧ after.executions = m.store.executions ∧
      after.artifacts.keys = m.store.artifacts.keys ∧
      after.artifacts.records =
        m.store.artifacts.records.map (·.markedIn (reportedIn episodes))) ∧
    (∀ id, m.store.IsDeleted id → after.IsDeleted id) ∧
    (∀ e ∈ episodes,
      e.storeAfter e.passes.exchanges = e.passes.state.1.store ∧
      (∀ earlier i x later, e.passes.exchanges = earlier ++ (i, x) :: later →
        let before := e.storeAfter earlier
        let after := e.storeAfter (earlier ++ [(i, x)])
        before.Marks x.written after ∧ (∀ id, before.IsDeleted id → after.IsDeleted id) ∧
        ∀ id a, before.live? id = some a → after.IsDeleted id →
          ∃ uid report, e.passes.results[i]? = some (uid, .ok (.collected report)) ∧
            (id ∈ report.deleted ∨ id ∈ report.markedExternal)) ∧
      (∀ r ∈ e.passes.results, (markedBy r.2).Nodup) ∧
      ∀ i j r r' id, e.passes.results[i]? = some r → e.passes.results[j]? = some r' → i ≠ j →
        id ∈ markedBy r.2 → id ∈ markedBy r'.2 → e.passes.Overlap i j) ∧
    (episodes.Pairwise fun e e' => e.passes.marked.Disjoint e'.passes.marked) ∧
    ((∀ e ∈ episodes, ∀ i j, i ≠ j → ¬ e.passes.Overlap i j) → (reportedIn episodes).Nodup) := by
  intro episodes after
  have hfaithful {e : Episode τ} (he : e ∈ episodes) :
      e.passes.Faithful e.step.services e.before := faithful_of_mem hhistory he
  have hwhole : m.store.Marks (reportedIn episodes) after := marks_history hhistory (m, t)
  refine ⟨⟨hwhole.events, hwhole.executions, hwhole.keys, congrArg Table.records hwhole.artifacts⟩,
    fun id => hwhole.isDeleted, fun e he => ?_, disjoint_reports hhistory (m, t),
    nodup_reported hhistory⟩
  have he := hfaithful he
  refine ⟨congrArg (·.1.store) he.state, fun earlier i x later hsplit => ?_, fun r hr => ?_,
    fun i j r r' id hi hj hne hid hid' => he.overlap hi hj hid hid' hne⟩
  · have hmarks := he.marks_exchange hsplit
    exact ⟨hmarks, fun id => hmarks.isDeleted, fun id a => he.reported_of_isDeleted hsplit⟩
  · obtain ⟨i, hi⟩ := List.getElem?_of_mem hr
    exact he.nodup hi

/-- The store refuses the records of a first pass, which has removed a model all the same. A plan
later, of two passes in one call, one after the other, the first one reports the model as deleted,
and the other one nothing. -/
theorem refused_model_is_deleted_once :
    let m : Memory := ⟨.ofModels [model 1 "/1", model 2 "/2"], Storage.empty.addFile "/1"⟩
    let refusing : Conditions := ⟨fun operation =>
      if operation = .put then some (.refuses "down") else none, none, .passThrough⟩
    let filter : FilterService Nat := fun _ cs n => (some (.ok cs), n + 1)
    let spec := trainerSpec (.ofRecency 1)
    let history : List (Step Nat) := [⟨refusing, filter, .pass trainer spec⟩,
      ⟨.normal, filter, .plan trainer spec⟩,
      ⟨.normal, filter, .passes [(trainer, spec), (trainer, spec)] []⟩]
    let episodes := episodesOf history (m, 0)
    (∀ step ∈ history, step.Honest) ∧
      episodes.map (fun e => e.passes.results.map (·.2)) =
        [[.ok (.aborted .store "metadata store unavailable: down")], [],
          [.ok (.collected ⟨[⟨1⟩], [], []⟩), .ok (.collected .empty)]] ∧
      (runHistory history (m, 0)).1.store.IsDeleted ⟨1⟩ ∧
      reportedIn episodes = [⟨1⟩] ∧
      (runHistory history (m, 0)).1.store.artifacts.records =
        m.store.artifacts.records.map (·.markedIn [⟨1⟩]) := by
  intro m refusing filter spec history episodes
  have hfilter : filter.PreservesRecords := by
    rintro usage cs n _ ⟨⟩ a ha _
    exact ha
  have hhistory : ∀ step ∈ history, step.Honest := by
    intro step hstep
    obtain rfl | rfl | rfl : step = _ ∨ step = _ ∨ step = _ := by simpa [history] using hstep
    · exact ⟨rfl, hfilter⟩
    · exact ⟨rfl, hfilter⟩
    · exact ⟨rfl, hfilter⟩
  have hreported : reportedIn episodes = [⟨1⟩] := by decide +kernel
  obtain ⟨⟨_, _, _, hrecords⟩, _⟩ := histories_keep_lifecycle history hhistory m 0
  rw [hreported] at hrecords
  exact ⟨hhistory, by decide +kernel, by decide +kernel, hreported, hrecords⟩

/-- Two passes of one node overlap: the second one asks for live artifacts before the first one
deletes a model, and finds it gone when it comes to remove it. Both report it as deleted. -/
theorem model_is_reported_twice :
    let m : Memory := ⟨.ofModels [model 1 "/1", model 2 "/2"], Storage.empty.addFile "/1"⟩
    let filter : FilterService Unit := fun _ cs t => (some (.ok cs), t)
    let spec := trainerSpec (.ofRecency 1)
    let history : List (Step Unit) :=
      [⟨.normal, filter, .passes [(trainer, spec), (trainer, spec)] [.pass 1]⟩]
    let episodes := episodesOf history (m, ())
    (∀ step ∈ history, step.Honest) ∧
      episodes.map (fun e => e.passes.results) =
        [[(trainer, .ok (.collected ⟨[⟨1⟩], [], []⟩)),
          (trainer, .ok (.collected ⟨[⟨1⟩], [], []⟩))]] ∧
      ¬ (reportedIn episodes).Nodup := by
  intro m filter spec history episodes
  have hfilter : filter.PreservesRecords := by
    rintro usage cs t _ ⟨⟩ a ha _
    exact ha
  have hhistory : ∀ step ∈ history, step.Honest := by
    intro step hstep
    obtain rfl : step = _ := by simpa [history] using hstep
    exact ⟨rfl, hfilter⟩
  have hreported : reportedIn episodes = [⟨1⟩, ⟨1⟩] := by decide +kernel
  refine ⟨hhistory, by decide +kernel, ?_⟩
  rw [hreported]
  decide

/-! ## Passes one after another -/

/-- The passes of the call do not take turns. -/
def Call.Sequential : Call → Prop
  | .passes _ schedule => schedule = []
  | .plan .. | .pass .. => True

/-- Calls without turns exchange in the order of their passes. -/
theorem sorted_perform {σ : Type} {call : Call} (hcall : call.Sequential) (services : Services σ)
    (s : σ) : (call.perform services s).exchanges.Pairwise fun x y => x.1 ≤ y.1 := by
  have hrun {α : Type} (results : List (NodeUid × Except Failure Outcome)) (run : Run σ α) :
      (Passes.ofRun results run).exchanges.Pairwise fun x y => x.1 ≤ y.1 :=
    List.pairwise_map.mpr (List.pairwise_of_forall fun _ _ => Nat.le_refl 0)
  cases call with
  | plan uid node => exact hrun _ _
  | pass uid node => exact hrun _ _
  | passes nodes schedule =>
    obtain rfl : schedule = [] := hcall
    exact sorted_runMany_nil services nodes s

/-- Where all passes run one after another, no artifact is reported twice. -/
theorem nodup_reported_of_sequential {τ : Type} {history : List (Step τ)}
    (hhistory : ∀ step ∈ history, step.Honest) (hturns : ∀ step ∈ history, step.call.Sequential)
    (s : Memory × τ) : (reportedIn (episodesOf history s)).Nodup := by
  have hsteps : ∀ e ∈ episodesOf history s, e.step ∈ history := by
    clear hhistory hturns
    induction history generalizing s with
    | nil => nofun
    | cons step steps ih =>
      exact List.forall_mem_cons.mpr ⟨List.mem_cons_self, fun e he =>
        List.mem_cons_of_mem _ (ih _ e he)⟩
  refine nodup_reported hhistory fun e he i j hne => ?_
  exact not_overlap_of_sorted (sorted_perform (hturns _ (hsteps e he)) _ _) hne

end ArtifactGC
