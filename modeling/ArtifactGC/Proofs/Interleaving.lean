import ArtifactGC.Passes
import ArtifactGC.Proofs.Transcripts

/-!
# Passes side by side

However passes take turns, the services answer one exchange after another, and what belongs to one
pass is something that the pass may exchange by itself. So what is known of all transcripts of a
pass holds of each pass in any interleaving. `interleaves_runMany` says so, and `runMany_nil` that
without a schedule the passes run one after another.
-/

namespace ArtifactGC

/-! ## Answers in sequence -/

namespace Services

variable {σ α : Type} (services : Services σ)

/-- The state after some exchanges. -/
def replay (s : σ) (exchanges : List Exchange) : σ :=
  exchanges.foldl (fun s x => (services.answer x.request s).2) s

/-- The services give these answers, one after another. -/
def Answers : σ → List Exchange → Prop
  | _, [] => True
  | s, x :: exchanges => (services.answer x.request s).1 = x.answer ∧
      Answers (services.answer x.request s).2 exchanges

theorem replay_append (s : σ) (exchanges later : List Exchange) :
    services.replay s (exchanges ++ later) = services.replay (services.replay s exchanges) later :=
  List.foldl_append

theorem answers_append {s : σ} {exchanges later : List Exchange} :
    services.Answers s (exchanges ++ later) ↔
      services.Answers s exchanges ∧ services.Answers (services.replay s exchanges) later := by
  induction exchanges generalizing s with
  | nil => exact (iff_of_eq (true_and _)).symm
  | cons x exchanges ih => exact (and_congr_right fun _ => ih).trans (and_assoc.symm)

/-- The services answer the exchanges of a run, and end in its state. -/
theorem answers_run (p : Procedure α) (s : σ) :
    services.Answers s (p.run services s).exchanges ∧
      services.replay s (p.run services s).exchanges = (p.run services s).state := by
  induction p generalizing s with
  | returned a => exact ⟨trivial, rfl⟩
  | failed e => exact ⟨trivial, rfl⟩
  | note entry rest ih => exact ih s
  | ask request next ih =>
    rw [Procedure.run]
    rcases hanswer : services.answer request s with ⟨_ | answer, s'⟩
    · exact ⟨⟨congrArg Prod.fst hanswer, trivial⟩, congrArg Prod.snd hanswer⟩
    · obtain ⟨hanswers, hstate⟩ := ih answer s'
      have hafter : (services.answer request s).2 = s' := congrArg Prod.snd hanswer
      refine ⟨⟨congrArg Prod.fst hanswer, ?_⟩, ?_⟩
      · rw [hafter]
        exact hanswers
      · change services.replay (services.answer request s).2 _ = _
        rw [hafter]
        exact hstate

end Services

/-! ## What is left of a procedure -/

namespace Procedure

variable {σ α : Type} {p q r : Procedure α} {exchanges later : List Exchange}

/-- By some exchanges a procedure comes to what is left of it: it may go on as that does. -/
def Reaches (p : Procedure α) (exchanges : List Exchange) (rest : Procedure α) : Prop :=
  ∀ later how, rest.Yields later how →
    ∃ how', p.Yields (exchanges ++ later) how' ∧ how'.toResult = how.toResult

theorem Reaches.refl (p : Procedure α) : p.Reaches [] p := fun _ how h => ⟨how, h, rfl⟩

theorem Reaches.trans (h : p.Reaches exchanges q) (h' : q.Reaches later r) :
    p.Reaches (exchanges ++ later) r := by
  intro last how hlast
  obtain ⟨how', hyields', hresult'⟩ := h' last how hlast
  obtain ⟨how'', hyields'', hresult''⟩ := h (later ++ last) how' hyields'
  rw [← List.append_assoc] at hyields''
  exact ⟨how'', hyields'', hresult''.trans hresult'⟩

/-- What has come to its end with a result yields it. -/
theorem yields_of_result? {result : Except Failure α} (h : p.result? = some result) :
    ∃ how, p.Yields [] how ∧ how.toResult = result := by
  cases p with
  | returned a =>
    cases h
    exact ⟨.returned a, ⟨rfl, rfl⟩, rfl⟩
  | failed e =>
    cases h
    exact ⟨.failed e, ⟨rfl, rfl⟩, rfl⟩
  | ask request next => cases h
  | note entry rest => cases h

/-- A result is left of what ends with it. -/
theorem result?_ofExcept (result : Except Failure α) : (ofExcept result).result? = some result := by
  cases result <;> rfl

end Procedure

/-- A way to do a part of a procedure: the services answer its exchanges, and by them the procedure
comes to what is left of it. -/
structure Services.Does {σ α : Type} (services : Services σ)
    (part : Procedure α → σ → Part σ α) : Prop where
  /-- The services answer. -/
  answers (p : Procedure α) (s : σ) : services.Answers s (part p s).exchanges
  /-- The state is that after the answers. -/
  state (p : Procedure α) (s : σ) : services.replay s (part p s).exchanges = (part p s).state
  /-- By the answers the procedure comes to its rest. -/
  reaches (p : Procedure α) (s : σ) : p.Reaches (part p s).exchanges (part p s).rest

section Parts

variable {σ α : Type} (services : Services σ)

theorem does_step : services.Does (α := α) (Procedure.step services) where
  answers p s := by
    cases p with
    | returned a => trivial
    | failed e => trivial
    | note entry rest => trivial
    | ask request next =>
      rw [Procedure.step]
      rcases hanswer : services.answer request s with ⟨_ | answer, s'⟩
      · exact ⟨congrArg Prod.fst hanswer, trivial⟩
      · exact ⟨congrArg Prod.fst hanswer, trivial⟩
  state p s := by
    cases p with
    | returned a => rfl
    | failed e => rfl
    | note entry rest => rfl
    | ask request next =>
      rw [Procedure.step]
      rcases hanswer : services.answer request s with ⟨_ | answer, s'⟩
      · exact congrArg Prod.snd hanswer
      · exact congrArg Prod.snd hanswer
  reaches p s := by
    cases p with
    | returned a => exact .refl _
    | failed e => exact .refl _
    | note entry rest => exact fun _ how h => ⟨how, h, rfl⟩
    | ask request next =>
      rw [Procedure.step]
      rcases services.answer request s with ⟨_ | answer, s'⟩
      · rintro later how ⟨rfl, rfl⟩
        exact ⟨.crashed, .inl ⟨rfl, rfl⟩, rfl⟩
      · exact fun later how h => ⟨how, .inr ⟨answer, later, rfl, h⟩, rfl⟩

theorem does_finish : services.Does (α := α) (Procedure.finish services) where
  answers p s := (services.answers_run p s).1
  state p s := (services.answers_run p s).2
  reaches p s := by
    intro later how hrest
    have hyields := Procedure.yields_run services p s
    have hends : later = [] ∧ how.toResult = (p.run services s).ending.toResult := by
      simp only [Procedure.finish] at hrest
      generalize (p.run services s).ending.toResult = result at hrest
      cases result with
      | ok a =>
        obtain ⟨rfl, rfl⟩ := hrest
        exact ⟨rfl, rfl⟩
      | error e =>
        obtain ⟨rfl, rfl⟩ := hrest
        exact ⟨rfl, rfl⟩
    obtain ⟨rfl, hresult⟩ := hends
    rw [List.append_nil]
    exact ⟨_, hyields, hresult.symm⟩

end Parts

/-! ## The exchanges of one pass -/

/-- The exchanges of the pass at a place, in order. -/
def exchangesOf (i : Nat) (exchanges : List (Nat × Exchange)) : List Exchange :=
  (exchanges.filter (·.1 = i)).map (·.2)

section Own

variable {i j : Nat} {exchanges later : List (Nat × Exchange)}

@[simp] theorem exchangesOf_nil : exchangesOf i [] = [] := rfl

@[simp] theorem exchangesOf_append :
    exchangesOf i (exchanges ++ later) = exchangesOf i exchanges ++ exchangesOf i later := by
  simp [exchangesOf]

@[simp] theorem exchangesOf_map_self (xs : List Exchange) : exchangesOf i (xs.map (i, ·)) = xs := by
  simp [exchangesOf, List.filter_map, Function.comp_def]

theorem exchangesOf_map_of_ne (h : j ≠ i) (xs : List Exchange) :
    exchangesOf i (xs.map (j, ·)) = [] := by
  simp [exchangesOf, List.filter_map, Function.comp_def, h]

theorem exchangesOf_cons_self (x : Exchange) :
    exchangesOf i ((i, x) :: exchanges) = x :: exchangesOf i exchanges := by
  simp [exchangesOf]

theorem mem_exchangesOf {x : Exchange} : x ∈ exchangesOf i exchanges ↔ (i, x) ∈ exchanges := by
  constructor
  · intro h
    obtain ⟨⟨j, y⟩, hy, rfl⟩ := List.mem_map.mp h
    obtain ⟨hmem, hplace⟩ := List.mem_filter.mp hy
    obtain rfl : j = i := of_decide_eq_true hplace
    exact hmem
  · exact fun h => List.mem_map.mpr ⟨(i, x), List.mem_filter.mpr ⟨h, decide_eq_true rfl⟩, rfl⟩

end Own

/-! ## Progress -/

section Progress

variable {σ : Type} {services : Services σ} {nodes : List (NodeUid × NodeSpec)} {s : σ}
  {progress : Progress σ}

/-- The passes of some nodes have come this far: the services answered all their exchanges, and each
pass came by its own exchanges to what is left of it. -/
structure Progress.Follows (services : Services σ) (nodes : List (NodeUid × NodeSpec)) (s : σ)
    (progress : Progress σ) : Prop where
  /-- The passes are those of the nodes. -/
  uids : progress.tasks.map (·.1) = nodes.map (·.1)
  /-- What is exchanged is exchanged by one of them. -/
  places : ∀ x ∈ progress.exchanges, x.1 < nodes.length
  /-- The services answer. -/
  answers : services.Answers s (progress.exchanges.map (·.2))
  /-- The state is that after the answers. -/
  state : services.replay s (progress.exchanges.map (·.2)) = progress.state
  /-- Each pass has come to what is left of it. -/
  reaches {i : Nat} {uid : NodeUid} {node : NodeSpec} (h : nodes[i]? = some (uid, node)) :
    ∃ task, progress.tasks[i]? = some (uid, task) ∧
      (pass uid node).Reaches (exchangesOf i progress.exchanges) task

theorem Progress.follows_start (services : Services σ) (nodes : List (NodeUid × NodeSpec)) (s : σ) :
    (Progress.start nodes s).Follows services nodes s where
  uids := by simp [start, Function.comp_def]
  places := nofun
  answers := trivial
  state := rfl
  reaches {i uid node} h := by
    refine ⟨pass uid node, ?_, .refl _⟩
    rw [start, List.getElem?_map, h]
    rfl

/-- A part of a pass is done after the others have come this far. -/
theorem Progress.Follows.advance {part : Procedure Outcome → σ → Part σ Outcome}
    (hpart : services.Does part) (h : progress.Follows services nodes s) (i : Nat) :
    (progress.advance part i).Follows services nodes s := by
  unfold Progress.advance
  cases htask : progress.tasks[i]? with
  | none => exact h
  | some entry =>
    obtain ⟨uid, task⟩ := entry
    obtain ⟨hi, htask'⟩ := List.getElem?_eq_some_iff.mp htask
    have hexchanges : ((part task progress.state).exchanges.map (i, ·)).map (·.2) =
        (part task progress.state).exchanges := by
      simp [Function.comp_def]
    refine ⟨?_, ?_, ?_, ?_, fun {j uid' node'} hnode => ?_⟩
    · have hsame : (progress.tasks.map (·.1)).set i uid = progress.tasks.map (·.1) := by
        have hi' : i < (progress.tasks.map (·.1)).length := by simpa using hi
        have huid : (progress.tasks.map (·.1))[i] = uid := by simp [htask']
        rw [← huid]
        exact List.set_getElem_self hi'
      rw [← h.uids, List.map_set, hsame]
    · have hlength : progress.tasks.length = nodes.length := by
        simpa using congrArg List.length h.uids
      refine List.forall_mem_append.mpr ⟨h.places, fun x hx => ?_⟩
      obtain ⟨_, _, rfl⟩ := List.mem_map.mp hx
      exact hlength ▸ hi
    · rw [List.map_append, hexchanges, Services.answers_append, h.state]
      exact ⟨h.answers, hpart.answers _ _⟩
    · rw [List.map_append, hexchanges, Services.replay_append, h.state]
      exact hpart.state _ _
    · obtain ⟨task', htask', hreaches⟩ := h.reaches hnode
      by_cases hij : i = j
      · subst hij
        rw [htask] at htask'
        cases htask'
        refine ⟨(part task progress.state).rest, ?_, ?_⟩
        · rw [List.getElem?_set_self hi]
        · rw [exchangesOf_append, exchangesOf_map_self]
          exact hreaches.trans (hpart.reaches _ _)
      · refine ⟨task', ?_, ?_⟩
        · rw [List.getElem?_set_ne hij]
          exact htask'
        · rw [exchangesOf_append, exchangesOf_map_of_ne hij, List.append_nil]
          exact hreaches

/-- What the caller does leaves the passes alone. -/
theorem Progress.await_eq (progress : Progress σ) :
    ∃ awaited log, progress.await = { progress with awaited, log } := by
  unfold Progress.await
  split
  · exact ⟨_, _, rfl⟩
  · split
    · exact ⟨_, _, rfl⟩
    · exact ⟨_, _, rfl⟩

theorem Progress.Follows.turn (h : progress.Follows services nodes s) (turn : Turn) :
    (progress.turn services turn).Follows services nodes s := by
  cases turn with
  | pass i => exact h.advance (does_step services) i
  | caller =>
    obtain ⟨awaited, log, hawait⟩ := progress.await_eq
    rw [Progress.turn, hawait]
    exact ⟨h.uids, h.places, h.answers, h.state, h.reaches⟩

theorem Progress.Follows.turns (h : progress.Follows services nodes s) (schedule : List Turn) :
    (schedule.foldl (Progress.turn services) progress).Follows services nodes s := by
  induction schedule generalizing progress with
  | nil => exact h
  | cons turn schedule ih => exact ih (h.turn turn)

theorem Progress.Follows.finish (h : progress.Follows services nodes s) :
    (progress.finish services).Follows services nodes s := by
  have hfold (places : List Nat) {progress : Progress σ}
      (h : progress.Follows services nodes s) :
      (places.foldl (Progress.advance (Procedure.finish services)) progress).Follows services
        nodes s := by
    induction places generalizing progress with
    | nil => exact h
    | cons i places ih => exact ih (h.advance (does_finish services) i)
  exact hfold _ h

/-! ## Passes that have come to their end -/

/-- The pass at a place has come to its end, if there is one. -/
def Progress.HasEnded (progress : Progress σ) (i : Nat) : Prop :=
  ∀ uid task, progress.tasks[i]? = some (uid, task) → ∃ result, task.result? = some result

/-- To finish a pass ends it, and reopens no other one. -/
theorem Progress.hasEnded_advance_finish {i j : Nat} (h : j = i ∨ progress.HasEnded j) :
    (progress.advance (Procedure.finish services) i).HasEnded j := by
  intro uid task hentry
  unfold Progress.advance at hentry
  cases htask : progress.tasks[i]? with
  | none =>
    rw [htask] at hentry
    rcases h with rfl | h
    · rw [htask] at hentry
      cases hentry
    · exact h uid task hentry
  | some entry =>
    rw [htask] at hentry
    obtain ⟨hi, _⟩ := List.getElem?_eq_some_iff.mp htask
    by_cases hij : i = j
    · subst hij
      dsimp only at hentry
      rw [List.getElem?_set_self hi] at hentry
      cases hentry
      exact ⟨_, Procedure.result?_ofExcept _⟩
    · dsimp only at hentry
      rw [List.getElem?_set_ne hij] at hentry
      exact (h.resolve_left (Ne.symm hij)) uid task hentry

/-- In the end all passes have come to their end. -/
theorem Progress.hasEnded_finish (services : Services σ) (progress : Progress σ) (i : Nat) :
    (progress.finish services).HasEnded i := by
  have hfold (places : List Nat) (progress : Progress σ) (h : i ∈ places ∨ progress.HasEnded i) :
      (places.foldl (Progress.advance (Procedure.finish services)) progress).HasEnded i := by
    induction places generalizing progress with
    | nil => exact h.resolve_left List.not_mem_nil
    | cons j places ih =>
      rw [List.foldl_cons]
      apply ih
      rcases h with h | h
      · rcases List.mem_cons.mp h with rfl | h
        · exact .inr (hasEnded_advance_finish (.inl rfl))
        · exact .inl h
      · exact .inr (hasEnded_advance_finish (.inr h))
  apply hfold
  rw [List.mem_range]
  by_cases hi : i < progress.tasks.length
  · exact .inl hi
  · right
    intro uid task hentry
    rw [List.getElem?_eq_none (Nat.le_of_not_lt hi)] at hentry
    cases hentry

/-- When all passes have come to their end, each has its result. -/
theorem Progress.results_eq (h : ∀ i, progress.HasEnded i) :
    progress.results.map (·.1) = progress.tasks.map (·.1) ∧
      ∀ (i : Nat) (uid : NodeUid) (task : Procedure Outcome) (result : Except Failure Outcome),
        progress.tasks[i]? = some (uid, task) → task.result? = some result →
          progress.results[i]? = some (uid, result) := by
  have htasks : ∀ entry ∈ progress.tasks, ∃ result, entry.2.result? = some result := by
    intro entry hentry
    obtain ⟨i, hi⟩ := List.getElem?_of_mem hentry
    exact h i entry.1 entry.2 hi
  unfold Progress.results
  generalize progress.tasks = tasks at htasks ⊢
  induction tasks with
  | nil => exact ⟨rfl, fun i uid task result h => by cases h⟩
  | cons entry tasks ih =>
    obtain ⟨⟨result, hresult⟩, hothers⟩ := List.forall_mem_cons.mp htasks
    obtain ⟨huids, hresults⟩ := ih hothers
    rw [List.filterMap_cons, hresult, Option.map_some]
    refine ⟨congrArg (entry.1 :: ·) huids, fun i uid task result' hentry hresult' => ?_⟩
    cases i with
    | zero =>
      cases hentry
      rw [hresult] at hresult'
      cases hresult'
      rfl
    | succ i => exact hresults i uid task result' hentry hresult'

end Progress

/-! ## Interleavings -/

/-- Some passes of nodes leave this behind that were run side by side: the services answered all
exchanges in their order, and the exchanges of each pass are such that it may make them by itself
and end so. -/
structure Passes.Interleaves {σ : Type} (services : Services σ)
    (nodes : List (NodeUid × NodeSpec)) (s : σ) (all : Passes σ) : Prop where
  /-- Each node has one result, in the order of the nodes. -/
  uids : all.results.map (·.1) = nodes.map (·.1)
  /-- What is exchanged is exchanged by the pass of a node. -/
  places : ∀ x ∈ all.exchanges, x.1 < nodes.length
  /-- The services answer. -/
  answers : services.Answers s (all.exchanges.map (·.2))
  /-- The state is that after the answers. -/
  state : services.replay s (all.exchanges.map (·.2)) = all.state
  /-- Each pass yields its own exchanges and ends with its result. -/
  yields {i : Nat} {uid : NodeUid} {node : NodeSpec} (h : nodes[i]? = some (uid, node)) :
    ∃ how, (pass uid node).Yields (exchangesOf i all.exchanges) how ∧
      all.results[i]? = some (uid, how.toResult)

/-- Where a pass has a result, it is that of the pass of a node. -/
theorem Passes.Interleaves.of_result {σ : Type} {services : Services σ}
    {nodes : List (NodeUid × NodeSpec)} {s : σ} {all : Passes σ}
    (h : all.Interleaves services nodes s) {i : Nat} {uid : NodeUid}
    {result : Except Failure Outcome}
    (hresult : all.results[i]? = some (uid, result)) :
    ∃ node how, (pass uid node).Yields (exchangesOf i all.exchanges) how ∧
      how.toResult = result := by
  have huid : (nodes.map (·.1))[i]? = some uid := by
    rw [← h.uids, List.getElem?_map, hresult]
    rfl
  rw [List.getElem?_map, Option.map_eq_some_iff] at huid
  obtain ⟨⟨_, node⟩, hnode, rfl⟩ := huid
  obtain ⟨how, hyields, hhow⟩ := h.yields hnode
  rw [hresult] at hhow
  cases hhow
  exact ⟨node, how, hyields, rfl⟩

/-- Where something is exchanged, it is by the pass of a node. -/
theorem Passes.Interleaves.of_exchange {σ : Type} {services : Services σ}
    {nodes : List (NodeUid × NodeSpec)} {s : σ} {all : Passes σ}
    (h : all.Interleaves services nodes s) {i : Nat} {x : Exchange}
    (hx : (i, x) ∈ all.exchanges) :
    ∃ uid node how, (pass uid node).Yields (exchangesOf i all.exchanges) how ∧
      all.results[i]? = some (uid, how.toResult) := by
  have hnode := List.getElem?_eq_getElem (h.places _ hx)
  obtain ⟨how, hyields, hresult⟩ := h.yields hnode
  exact ⟨_, _, how, hyields, hresult⟩

/-- Whatever the schedule, passes are interleaved. -/
theorem interleaves_runMany {σ : Type} (services : Services σ) (schedule : List Turn)
    (nodes : List (NodeUid × NodeSpec)) (s : σ) :
    (runMany services schedule nodes s).Interleaves services nodes s := by
  have hfollows := ((Progress.follows_start services nodes s).turns schedule).finish
  have hended := Progress.hasEnded_finish services
    (schedule.foldl (Progress.turn services) (.start nodes s))
  obtain ⟨huids, hresults⟩ := Progress.results_eq hended
  refine ⟨huids.trans hfollows.uids, hfollows.places, hfollows.answers, hfollows.state,
    fun {i uid node} hnode => ?_⟩
  obtain ⟨task, htask, hreaches⟩ := hfollows.reaches hnode
  obtain ⟨result, hresult⟩ := hended i uid task htask
  obtain ⟨how, hrest, hhow⟩ := Procedure.yields_of_result? hresult
  obtain ⟨how', hyields, hhow'⟩ := hreaches [] how hrest
  rw [List.append_nil] at hyields
  refine ⟨how', hyields, ?_⟩
  rw [hhow', hhow]
  exact hresults i uid task result htask hresult

/-! ## One pass after another -/

section InTurn

variable {σ : Type} (services : Services σ)

/-- The results of the passes of some nodes, one after another, and the state that they leave. -/
def oneByOne : List (NodeUid × NodeSpec) → σ → List (NodeUid × Except Failure Outcome) × σ
  | [], s => ([], s)
  | (uid, node) :: nodes, s =>
    let run := (pass uid node).run services s
    let rest := oneByOne nodes run.state
    ((uid, run.ending.toResult) :: rest.1, rest.2)

/-- Passes that have not begun are finished one after another, whatever is left of those in front of
them. -/
theorem Progress.finish_from (nodes : List (NodeUid × NodeSpec))
    {before : List (NodeUid × Procedure Outcome)} {progress : Progress σ}
    (htasks : progress.tasks = before ++ nodes.map fun n => (n.1, pass n.1 n.2)) :
    let finished := (List.range' before.length nodes.length).foldl
      (Progress.advance (Procedure.finish services)) progress
    finished.tasks = before ++ (oneByOne services nodes progress.state).1.map
        (fun r => (r.1, Procedure.ofExcept r.2)) ∧
      finished.state = (oneByOne services nodes progress.state).2 := by
  induction nodes generalizing before progress with
  | nil => exact ⟨htasks, rfl⟩
  | cons n nodes ih =>
    obtain ⟨uid, node⟩ := n
    let run := (pass uid node).run services progress.state
    have hfirst : progress.tasks[before.length]? = some (uid, pass uid node) := by
      rw [htasks, List.getElem?_append_right (Nat.le_refl _), Nat.sub_self]
      rfl
    have hrest : (progress.advance (Procedure.finish services) before.length).tasks =
        (before ++ [(uid, Procedure.ofExcept run.ending.toResult)]) ++
          nodes.map fun n => (n.1, pass n.1 n.2) := by
      rw [Progress.advance, hfirst]
      dsimp only
      rw [htasks, List.set_append_right _ _ (Nat.le_refl _), Nat.sub_self, List.append_assoc]
      rfl
    have hstate : (progress.advance (Procedure.finish services) before.length).state =
        run.state := by
      rw [Progress.advance, hfirst]
      rfl
    have hfinished := ih hrest
    rw [hstate, List.length_append] at hfinished
    obtain ⟨htasks', hstate'⟩ := hfinished
    refine ⟨htasks'.trans ?_, hstate'⟩
    rw [List.append_assoc]
    rfl

/-- Without a schedule the passes run one after another. -/
theorem runMany_nil (nodes : List (NodeUid × NodeSpec)) (s : σ) :
    (runMany services [] nodes s).results = (oneByOne services nodes s).1 ∧
      (runMany services [] nodes s).state = (oneByOne services nodes s).2 := by
  have hstart : (Progress.start nodes s).tasks =
      [] ++ nodes.map fun n => (n.1, pass n.1 n.2) := rfl
  obtain ⟨htasks, hstate⟩ := Progress.finish_from services nodes hstart
  have hlength : (Progress.start nodes s).tasks.length = nodes.length := List.length_map _
  rw [List.length_nil, ← hlength, ← List.range_eq_range'] at htasks hstate
  refine ⟨?_, hstate⟩
  change Progress.results _ = _
  rw [Progress.results, List.foldl_nil, Progress.finish, htasks, List.nil_append,
    List.filterMap_map]
  have hresults (results : List (NodeUid × Except Failure Outcome)) :
      results.filterMap ((fun entry => entry.2.result?.map (entry.1, ·)) ∘
        fun r => (r.1, Procedure.ofExcept r.2)) = results := by
    induction results with
    | nil => rfl
    | cons r results ih =>
      rw [List.filterMap_cons, ih]
      simp [Procedure.result?_ofExcept]
  exact hresults _

/-- Passes that are finished one after another exchange one after another. -/
theorem Progress.sorted_foldl_finish {places : List Nat} {progress : Progress σ}
    (hplaces : places.Pairwise (· ≤ ·)) (hsorted : progress.exchanges.Pairwise fun x y => x.1 ≤ y.1)
    (hfirst : ∀ x ∈ progress.exchanges, ∀ i ∈ places, x.1 ≤ i) :
    (places.foldl (Progress.advance (Procedure.finish services)) progress).exchanges.Pairwise
      fun x y => x.1 ≤ y.1 := by
  induction places generalizing progress with
  | nil => exact hsorted
  | cons i places ih =>
    obtain ⟨hi, hothers⟩ := List.pairwise_cons.mp hplaces
    have hadvance : ∃ own : List Exchange,
        (progress.advance (Procedure.finish services) i).exchanges =
          progress.exchanges ++ own.map (i, ·) := by
      unfold Progress.advance
      split
      · exact ⟨[], (List.append_nil _).symm⟩
      · exact ⟨_, rfl⟩
    obtain ⟨own, hown⟩ := hadvance
    have hplace : ∀ x ∈ own.map (i, ·), x.1 = i := by
      intro x hx
      obtain ⟨_, _, rfl⟩ := List.mem_map.mp hx
      rfl
    apply ih hothers
    · rw [hown]
      refine List.pairwise_append.mpr ⟨hsorted, ?_, fun x hx y hy => ?_⟩
      · exact List.pairwise_map.mpr (List.pairwise_of_forall fun _ _ => Nat.le_refl i)
      · rw [hplace y hy]
        exact hfirst x hx i List.mem_cons_self
    · intro x hx j hj
      rw [hown] at hx
      rcases List.mem_append.mp hx with hx | hx
      · exact hfirst x hx j (List.mem_cons_of_mem _ hj)
      · rw [hplace x hx]
        exact hi j hj

/-- Without a schedule the passes exchange one after another. -/
theorem sorted_runMany_nil (nodes : List (NodeUid × NodeSpec)) (s : σ) :
    (runMany services [] nodes s).exchanges.Pairwise fun x y => x.1 ≤ y.1 :=
  Progress.sorted_foldl_finish services List.pairwise_le_range .nil nofun

end InTurn

end ArtifactGC
