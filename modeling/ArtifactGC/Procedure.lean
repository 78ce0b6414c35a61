import ArtifactGC.LogEntry
import ArtifactGC.Request

/-!
# Procedures

A procedure is a computation that asks requests one after another, may note log entries, and
ends with a result or a failure. It says nothing about who answers: `Procedure.run` lets services
with a state of any type answer, and records every exchange. Services may also break down
instead of answering, which ends the procedure without a result. The main statement is
`run_bind`, which says that running two procedures in sequence is running the first and going on
from where it stopped.
-/

namespace ArtifactGC

/-- A computation that asks requests and ends with a result or a failure. -/
inductive Procedure (α : Type) where
  /-- The end, with a result. -/
  | returned (a : α)
  /-- The end, with a failure. -/
  | failed (e : Failure)
  /-- A request, and how to go on with its answer. -/
  | ask (request : Request) (next : request.Answer → Procedure α)
  /-- A log entry, and how to go on. -/
  | note (entry : LogEntry) (rest : Procedure α)

namespace Procedure

variable {α β γ : Type}

/-- The first procedure, and after its result the second. -/
protected def bind : Procedure α → (α → Procedure β) → Procedure β
  | .returned a, f => f a
  | .failed e, _ => .failed e
  | .ask request next, f => .ask request fun answer => (next answer).bind f
  | .note entry rest, f => .note entry (rest.bind f)

instance : Monad Procedure where
  pure := .returned
  bind := Procedure.bind

@[simp] theorem returned_bind (a : α) (f : α → Procedure β) : (returned a >>= f) = f a := rfl

@[simp] theorem failed_bind (e : Failure) (f : α → Procedure β) :
    (failed e >>= f) = failed e := rfl

@[simp] theorem ask_bind (request : Request) (next : request.Answer → Procedure α)
    (f : α → Procedure β) :
    (ask request next >>= f) = ask request fun answer => next answer >>= f := rfl

@[simp] theorem note_bind (entry : LogEntry) (rest : Procedure α) (f : α → Procedure β) :
    (note entry rest >>= f) = note entry (rest >>= f) := rfl

@[simp] theorem pure_eq (a : α) : (pure a : Procedure α) = returned a := rfl

private theorem bind_returned (p : Procedure α) : p.bind returned = p := by
  induction p with
  | returned a => rfl
  | failed e => rfl
  | ask request next ih => exact congrArg (ask request) (funext ih)
  | note entry rest ih => exact congrArg (note entry) ih

private theorem bind_bind (p : Procedure α) (f : α → Procedure β) (g : β → Procedure γ) :
    (p.bind f).bind g = p.bind fun a => (f a).bind g := by
  induction p with
  | returned a => rfl
  | failed e => rfl
  | ask request next ih => exact congrArg (ask request) (funext ih)
  | note entry rest ih => exact congrArg (note entry) ih

instance : LawfulMonad Procedure :=
  LawfulMonad.mk' Procedure bind_returned (fun _ _ => rfl) bind_bind

/-- The procedure that goes on with the failure of another one. -/
def attempt : Procedure α → Procedure (Except Failure α)
  | .returned a => .returned (.ok a)
  | .failed e => .returned (.error e)
  | .ask request next => .ask request fun answer => (next answer).attempt
  | .note entry rest => .note entry rest.attempt

/-- The procedure with its failure replaced. -/
def mapFailure (f : Failure → Failure) : Procedure α → Procedure α
  | .returned a => .returned a
  | .failed e => .failed (f e)
  | .ask request next => .ask request fun answer => (next answer).mapFailure f
  | .note entry rest => .note entry (rest.mapFailure f)

/-- The end that a result or a failure is. -/
def ofExcept : Except Failure α → Procedure α
  | .ok a => .returned a
  | .error e => .failed e

/-- Notes log entries one after another. -/
def noteAll : List LogEntry → Procedure Unit
  | [] => .returned ()
  | entry :: entries => .note entry (noteAll entries)

/-- Asks a store; its refusal is a failure. -/
def ofStore (answer : Except StoreError α) : Procedure α := ofExcept (answer.mapError .store)

/-- The live output artifacts of a node. -/
def liveOutputs (node : NodeUid) : Procedure LiveOutputs := .ask (.liveOutputs node) ofStore

/-- The events on any of some artifacts. -/
def events (artifacts : List ArtifactId) : Procedure (List Event) :=
  .ask (.events artifacts) ofStore

/-- The records of some executions. -/
def executions (ids : List ExecutionId) : Procedure (List Execution) :=
  .ask (.executions ids) ofStore

/-- Writes artifact records in one batch. -/
def put (artifacts : List Artifact) : Procedure Unit := .ask (.put artifacts) ofStore

/-- The candidates that the configured pipeline groups do not use. -/
def unusedInGroups (usage : Option PipelineGroupUsage) (candidates : List Artifact) :
    Procedure (List Artifact) :=
  .ask (.unusedInGroups usage candidates) ofExcept

end Procedure

/-! ## Services and runs -/

/-- Services with a state: each request is answered, or the services break down at it. -/
structure Services (σ : Type) where
  /-- The answer to a request, none when the services break down, and the state after it. -/
  answer : (request : Request) → σ → Option request.Answer × σ

/-- A request and the answer it was given. -/
structure Exchange where
  /-- The request. -/
  request : Request
  /-- The answer, none when the services broke down. -/
  answer : Option request.Answer

/-- How a run ends. -/
inductive Ending (α : Type) where
  /-- With a result. -/
  | returned (a : α)
  /-- With a failure. -/
  | failed (e : Failure)
  /-- With neither, because the services broke down. -/
  | crashed
deriving DecidableEq, Repr

/-- What a run of a procedure leaves behind. -/
structure Run (σ α : Type) where
  /-- How it ended. -/
  ending : Ending α
  /-- The state of the services afterwards. -/
  state : σ
  /-- The exchanges with the services, in order. -/
  exchanges : List Exchange
  /-- The log entries, in order. -/
  log : List LogEntry

namespace Run

variable {σ α β : Type}

/-- The run with exchanges and log entries put in front. -/
def after (run : Run σ α) (exchanges : List Exchange) (log : List LogEntry) : Run σ α :=
  { run with exchanges := exchanges ++ run.exchanges, log := log ++ run.log }

/-- The run that goes on after the result of another one. -/
def andThen (run : Run σ α) (next : α → σ → Run σ β) : Run σ β :=
  match run.ending with
  | .returned a => (next a run.state).after run.exchanges run.log
  | .failed e => { run with ending := .failed e }
  | .crashed => { run with ending := .crashed }

end Run

/-- The run of a procedure with services that start in a state. -/
def Procedure.run {σ α : Type} (services : Services σ) : Procedure α → σ → Run σ α
  | .returned a, s => ⟨.returned a, s, [], []⟩
  | .failed e, s => ⟨.failed e, s, [], []⟩
  | .ask request next, s =>
    match services.answer request s with
    | (none, s) => ⟨.crashed, s, [⟨request, none⟩], []⟩
    | (some answer, s) => ((next answer).run services s).after [⟨request, some answer⟩] []
  | .note entry rest, s => (rest.run services s).after [] [entry]

namespace Procedure

variable {σ α β : Type}

private theorem after_andThen (run : Run σ α) (exchanges : List Exchange) (log : List LogEntry)
    (next : α → σ → Run σ β) :
    (run.after exchanges log).andThen next = (run.andThen next).after exchanges log := by
  obtain ⟨ending, state, es, ls⟩ := run
  cases ending <;> simp [Run.after, Run.andThen]

/-- Running two procedures in sequence is running the first and going on from there. -/
theorem run_bind (services : Services σ) (p : Procedure α) (f : α → Procedure β) (s : σ) :
    (p >>= f).run services s =
      (p.run services s).andThen fun a s => (f a).run services s := by
  induction p generalizing s with
  | returned a => simp [run, Run.andThen, Run.after]
  | failed e => simp [run, Run.andThen]
  | ask request next ih =>
    rw [ask_bind]
    simp only [run]
    rcases services.answer request s with ⟨_ | answer, s'⟩
    · simp [Run.andThen]
    · simp [ih, after_andThen]
  | note entry rest ih =>
    rw [note_bind]
    simp only [run]
    rw [ih, after_andThen]

end Procedure

end ArtifactGC
