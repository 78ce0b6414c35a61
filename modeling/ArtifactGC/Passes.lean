import ArtifactGC.Pass

/-!
# Passes of several nodes

The passes of several nodes are tasks that run at the same time and share their services. Each
request is answered at once, but between two requests of a pass the others may make any number of
theirs. A schedule says whose turn it is; what is left after it is done pass by pass, so that
without a schedule the passes run one after another. The caller waits for the passes in the order of
the nodes. Each has its own result, even if the services broke down in another one.
-/

namespace ArtifactGC

/-! ## Procedures in parts -/

/-- What is left of a procedure after a part of it, and what the part leaves behind. -/
structure Part (σ α : Type) where
  /-- What is left to do. -/
  rest : Procedure α
  /-- The state of the services afterwards. -/
  state : σ
  /-- The exchanges with the services, in order. -/
  exchanges : List Exchange
  /-- The log entries, in order. -/
  log : List LogEntry

namespace Procedure

variable {σ α : Type}

/-- The result of a procedure that has come to its end. -/
def result? : Procedure α → Option (Except Failure α)
  | .returned a => some (.ok a)
  | .failed e => some (.error e)
  | .ask .. | .note .. => none

/-- One request or one log entry. A procedure is lost when the services break down. -/
def step (services : Services σ) : Procedure α → σ → Part σ α
  | .ask request next, s =>
    match services.answer request s with
    | (none, s) => ⟨.failed .taskFailed, s, [⟨request, none⟩], []⟩
    | (some answer, s) => ⟨next answer, s, [⟨request, some answer⟩], []⟩
  | .note entry rest, s => ⟨rest, s, [], [entry]⟩
  | ended, s => ⟨ended, s, [], []⟩

/-- All that is left of a procedure. -/
def finish (services : Services σ) (p : Procedure α) (s : σ) : Part σ α :=
  let run := p.run services s
  ⟨ofExcept run.ending.toResult, run.state, run.exchanges, run.log⟩

end Procedure

/-! ## Passes side by side -/

/-- Whose turn it is. -/
inductive Turn where
  /-- A pass, given by its place among the nodes. -/
  | pass (i : Nat)
  /-- The caller that waits for the passes. -/
  | caller
deriving DecidableEq, Repr

/-- How far the passes of several nodes have come. -/
structure Progress (σ : Type) where
  /-- What is left of each pass, beside its node. -/
  tasks : List (NodeUid × Procedure Outcome)
  /-- How many passes the caller has waited for. -/
  awaited : Nat
  /-- The state of the services. -/
  state : σ
  /-- The exchanges with the services so far, each with the place of its pass. -/
  exchanges : List (Nat × Exchange)
  /-- The log entries so far. -/
  log : List LogEntry

/-- The log entries on passes that ended without a result. -/
def lostPasses (results : List (NodeUid × Except Failure Outcome)) : List LogEntry :=
  results.filterMap fun
    | (uid, .error .taskFailed) => some (.taskFailed uid)
    | _ => none

namespace Progress

variable {σ : Type}

/-- Passes of which nothing is done yet. -/
def start (nodes : List (NodeUid × NodeSpec)) (s : σ) : Progress σ :=
  ⟨nodes.map fun (uid, node) => (uid, pass uid node), 0, s, [], []⟩

/-- A part of what is left of a pass is done. -/
def advance (part : Procedure Outcome → σ → Part σ Outcome) (progress : Progress σ) (i : Nat) :
    Progress σ :=
  match progress.tasks[i]? with
  | none => progress
  | some (uid, task) =>
    let done := part task progress.state
    { progress with
      tasks := progress.tasks.set i (uid, done.rest)
      state := done.state
      exchanges := progress.exchanges ++ done.exchanges.map (i, ·)
      log := progress.log ++ done.log }

/-- The results of the passes that have come to their end, in the order of the nodes. -/
def results (progress : Progress σ) : List (NodeUid × Except Failure Outcome) :=
  progress.tasks.filterMap fun entry => entry.2.result?.map (entry.1, ·)

/-- The caller takes the result that it waits for, if there is one, and notes a lost pass. -/
def await (progress : Progress σ) : Progress σ :=
  match progress.tasks[progress.awaited]? with
  | none => progress
  | some (uid, task) =>
    match task.result? with
    | none => progress
    | some result =>
      { progress with
        awaited := progress.awaited + 1
        log := progress.log ++ lostPasses [(uid, result)] }

/-- A pass makes one request or notes one log entry, or the caller looks for a result. -/
def turn (services : Services σ) (progress : Progress σ) : Turn → Progress σ
  | .pass i => progress.advance (Procedure.step services) i
  | .caller => progress.await

/-- All that is left of the passes, one after another. -/
def finish (services : Services σ) (progress : Progress σ) : Progress σ :=
  (List.range progress.tasks.length).foldl (advance (Procedure.finish services)) progress

end Progress

/-- What the passes of several nodes leave behind. -/
structure Passes (σ : Type) where
  /-- The result of each pass, in the order of the nodes. -/
  results : List (NodeUid × Except Failure Outcome)
  /-- The state of the services afterwards. -/
  state : σ
  /-- The exchanges with the services, in order, each with the place of its pass. -/
  exchanges : List (Nat × Exchange)
  /-- The log entries, in order. -/
  log : List LogEntry

/-- Runs the passes of several nodes side by side. In the end the caller has waited for all of
them. -/
def runMany {σ : Type} (services : Services σ) (schedule : List Turn)
    (nodes : List (NodeUid × NodeSpec)) (s : σ) : Passes σ :=
  let progress := (schedule.foldl (Progress.turn services) (.start nodes s)).finish services
  let results := progress.results
  ⟨results, progress.state, progress.exchanges,
    progress.log ++ lostPasses (results.drop progress.awaited)⟩

end ArtifactGC
