import ArtifactGC.Memory
import ArtifactGC.Proofs.Contract

/-!
# Services around those in memory

Services in memory answer with a function as their pipeline group filter and never stop to
answer. Two variations cover what else can happen to a pass: a filter with a state of its own,
which may answer differently every time or break down, and services that break down for good
after a number of answers.
-/

namespace ArtifactGC

/-- A pipeline group filter that may remember what it was asked, and may break down. -/
abbrev FilterService (τ : Type) :=
  Option PipelineGroupUsage → List Artifact → τ → Option (Except Failure (List Artifact)) × τ

namespace Services

variable {σ τ : Type}

/-- The services with another pipeline group filter beside them. -/
def withFilter (services : Services σ) (filter : FilterService τ) : Services (σ × τ) where
  answer
    | .unusedInGroups usage candidates, s => (filter usage candidates s.2).map id (s.1, ·)
    | request, s => (services.answer request s.1).map id (·, s.2)

/-- The services that break down for good once they have given a number of answers. -/
def untilBreakdown (services : Services σ) : Services (σ × Nat) where
  answer
    | _, (s, 0) => (none, s, 0)
    | request, (s, n + 1) => (services.answer request s).map id (·, n)

end Services

namespace Memory

variable {c : Conditions} {m : Memory}

/-- An operation that may go wrong leaves the state after it or the state before it. -/
theorem underFault_state {α : Type} (fault : Option StoreFault) (answer : α)
    (before after : Memory) :
    (underFault fault answer before after).2 = after ∨
      (underFault fault answer before after).2 = before := by
  rcases fault with _ | _ | _
  · exact .inl rfl
  · exact .inr rfl
  · exact .inr rfl

/-- An operation that changes nothing, wrong or not, leaves the state as it is. -/
theorem underFault_unchanged {α : Type} (fault : Option StoreFault) (answer : α) (m : Memory) :
    (underFault fault answer m m).2 = m :=
  (underFault_state fault answer m m).elim id id

/-- A change that may go wrong is made exactly if it is acknowledged. -/
theorem underFault_change (fault : Option StoreFault) (before after : Memory) :
    ((underFault fault () before after).1 = some (.ok ()) ∧
        (underFault fault () before after).2 = after) ∨
      ((underFault fault () before after).1 ≠ some (.ok ()) ∧
        (underFault fault () before after).2 = before) := by
  rcases fault with _ | _ | _
  · exact .inl ⟨rfl, rfl⟩
  · exact .inr ⟨nofun, rfl⟩
  · exact .inr ⟨nofun, rfl⟩

/-- An operation that may go wrong answers, if at all, as it should or with a refusal. -/
theorem eq_of_underFault {α : Type} {fault : Option StoreFault} {answer answer' : α}
    {before after : Memory}
    (h : (underFault fault answer before after).1 = some (.ok answer')) : answer' = answer := by
  rcases fault with _ | _ | _
  · exact (Except.ok.inj (Option.some.inj h)).symm
  · cases h
  · cases h

/-- Events and the records of executions are never changed by an answer. -/
theorem answer_keeps_records (request : Request) (m : Memory) :
    ((services c).answer request m).2.store.events = m.store.events ∧
      ((services c).answer request m).2.store.executions = m.store.executions := by
  have hstore {α : Type} (fault : Option StoreFault) (answer : α) (after : Memory)
      (hafter : after.store.events = m.store.events ∧
        after.store.executions = m.store.executions) :
      (underFault fault answer m after).2.store.events = m.store.events ∧
        (underFault fault answer m after).2.store.executions = m.store.executions := by
    rcases underFault_state fault answer m after with h | h
    · rw [h]
      exact hafter
    · rw [h]
      exact ⟨rfl, rfl⟩
  cases request with
  | liveOutputs node => exact hstore _ _ _ ⟨rfl, rfl⟩
  | events ids => exact hstore _ _ _ ⟨rfl, rfl⟩
  | executions ids => exact hstore _ _ _ ⟨rfl, rfl⟩
  | put artifacts => exact hstore _ _ _ ⟨rfl, rfl⟩
  | _ => exact ⟨rfl, rfl⟩

end Memory

/-! ## Services that always answer -/

/-- The store may refuse, but it never breaks down. -/
def Conditions.AlwaysAnswer (c : Conditions) : Prop :=
  ∀ operation, c.fault operation ≠ some .breaksDown

/-- The filter may fail, but it never breaks down. -/
def FilterService.AlwaysAnswers {τ : Type} (filter : FilterService τ) : Prop :=
  ∀ usage candidates t, (filter usage candidates t).1 ≠ none

/-- Then services in memory answer all requests. -/
theorem Memory.answer_ne_none {c : Conditions} (hc : c.AlwaysAnswer) (request : Request)
    (m : Memory) : ((Memory.services c).answer request m).1 ≠ none := by
  have hstore {α : Type} (operation : StoreOperation) (answer : α) (before after : Memory) :
      (Memory.underFault (c.fault operation) answer before after).1 ≠ none := by
    cases hfault : c.fault operation with
    | none => nofun
    | some fault =>
      cases fault with
      | refuses reason => nofun
      | breaksDown => exact absurd hfault (hc operation)
  cases request with
  | liveOutputs node => exact hstore .liveOutputs _ _ _
  | events ids => exact hstore .events _ _ _
  | executions ids => exact hstore .executions _ _ _
  | put batch => exact hstore .put _ _ _
  | _ => exact Option.some_ne_none _

/-- So do they with a filter beside them. -/
theorem answer_ne_none {τ : Type} {c : Conditions} {filter : FilterService τ}
    (hc : c.AlwaysAnswer) (hfilter : filter.AlwaysAnswers) (request : Request) (s : Memory × τ) :
    (((Memory.services c).withFilter filter).answer request s).1 ≠ none := by
  cases request with
  | unusedInGroups usage cs => exact hfilter usage cs s.2
  | liveOutputs node => exact Memory.answer_ne_none hc (.liveOutputs node) s.1
  | events ids => exact Memory.answer_ne_none hc (.events ids) s.1
  | executions ids => exact Memory.answer_ne_none hc (.executions ids) s.1
  | put batch => exact Memory.answer_ne_none hc (.put batch) s.1
  | isDirectory uri => exact Memory.answer_ne_none hc (.isDirectory uri) s.1
  | isPresent uri => exact Memory.answer_ne_none hc (.isPresent uri) s.1
  | remove uri => exact Memory.answer_ne_none hc (.remove uri) s.1
  | removeRecursive uri => exact Memory.answer_ne_none hc (.removeRecursive uri) s.1

/-! ## A small pipeline

Statements are tried on a pipeline with one node that trains models. -/

/-- The node that trains models. -/
def trainer : NodeUid := ⟨"pipeline", "trainer"⟩

/-- The declaration of the trainer, with a policy for its models. -/
def trainerSpec (policy : Policy) : NodeSpec :=
  (NodeSpec.new "trainer").withOutput "model" (some policy)

/-- The model with a number, published in the second of that number. -/
def model (number : Nat) (uri : String) : Artifact where
  id := ⟨number⟩
  uri := uri
  createTime := ⟨0, ⟨number % 86400, Nat.mod_lt _ (by decide)⟩, ⟨0, by decide⟩, by decide, .inl (by decide)⟩
  properties := .empty
  customProperties := .empty
  state := .live

/-- The model with a number that may have a span and a version. -/
def spanModel (number : Nat) (span : Option Int64) (version : Option PropertyValue) : Artifact :=
  { model number "/models" with
    properties := .ofList ((span.map fun n => ("span", .int n)).toList ++
      (version.map fun v => ("version", v)).toList) }

/-- A store with some models, all published by the first execution, which has ended. -/
def Store.ofModels (models : List Artifact) : Store where
  artifacts := .ofList models
  executions := .ofList [⟨⟨1⟩, trainer, .complete⟩]
  events := models.map fun a => .published a.id ⟨1⟩ "model"
  batches := 0

/-- The store in which the first execution has published one more artifact under an output key. -/
def Store.publishing (s : Store) (a : Artifact) (key : String) : Store :=
  (s.insertArtifact a).insertEvent (.published a.id ⟨1⟩ key)

/-- The store in which another execution, in some state, consumes a model. -/
def Store.withReader (s : Store) (number : Nat) (state : ExecutionState) : Store :=
  (s.insertExecution ⟨⟨2⟩, ⟨"pipeline", "reader"⟩, state⟩).insertEvent (.consumed ⟨number⟩ ⟨2⟩)

end ArtifactGC
