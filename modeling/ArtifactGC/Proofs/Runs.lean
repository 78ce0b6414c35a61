import ArtifactGC.Procedure

/-!
# Runs step by step

How a run ends and in which state it leaves the services can be followed along the text of a
procedure: `Run.Ends` says both at once, and has one rule for every way to build a procedure.
-/

namespace ArtifactGC

/-- A run ends in some way and leaves the services in some state. -/
structure Run.Ends {σ α : Type} (run : Run σ α) (how : Ending α) (s : σ) : Prop where
  /-- The way it ends. -/
  ending : run.ending = how
  /-- The state that it leaves. -/
  state : run.state = s

/-- How a procedure ends that goes on with the failure of one that ends in some way. -/
def Ending.attempt {α : Type} : Ending α → Ending (Except Failure α)
  | .returned a => .returned (.ok a)
  | .failed e => .returned (.error e)
  | .crashed => .crashed

namespace Procedure

variable {σ α β : Type} {services : Services σ} {s s' s'' : σ} {p : Procedure α}
  {f : α → Procedure β}

@[simp] theorem ends_returned {a : α} : ((returned a).run services s).Ends (.returned a) s :=
  ⟨rfl, rfl⟩

@[simp] theorem ends_failed {e : Failure} :
    ((failed e : Procedure α).run services s).Ends (.failed e) s := ⟨rfl, rfl⟩

/-- A run goes on with the answer to its first request. -/
theorem ends_ask {request : Request} {next : request.Answer → Procedure α}
    {answer : request.Answer} {how : Ending α}
    (hanswer : services.answer request s = (some answer, s'))
    (h : ((next answer).run services s').Ends how s'') :
    ((ask request next).run services s).Ends how s'' := by
  rw [run, hanswer]
  exact ⟨h.ending, h.state⟩

/-- A request at which the services break down is the end. -/
theorem ends_ask_of_none {request : Request} {next : request.Answer → Procedure α}
    (hanswer : services.answer request s = (none, s')) :
    ((ask request next).run services s).Ends .crashed s' := by
  rw [run, hanswer]
  exact ⟨rfl, rfl⟩

/-- A log entry changes nothing. -/
theorem ends_note {entry : LogEntry} {how : Ending α} (h : (p.run services s).Ends how s') :
    ((note entry p).run services s).Ends how s' := ⟨h.ending, h.state⟩

/-- After a result the second procedure goes on. -/
theorem ends_bind {a : α} {how : Ending β} (h : (p.run services s).Ends (.returned a) s')
    (hrest : ((f a).run services s').Ends how s'') :
    ((p >>= f).run services s).Ends how s'' := by
  rw [run_bind, Run.andThen, h.ending, h.state]
  exact ⟨hrest.ending, hrest.state⟩

/-- After a failure nothing else happens. -/
theorem ends_bind_of_failed {e : Failure} (h : (p.run services s).Ends (.failed e) s') :
    ((p >>= f).run services s).Ends (.failed e) s' := by
  rw [run_bind, Run.andThen, h.ending]
  exact ⟨rfl, h.state⟩

/-- After a breakdown nothing else happens. -/
theorem ends_bind_of_crashed (h : (p.run services s).Ends .crashed s') :
    ((p >>= f).run services s).Ends .crashed s' := by
  rw [run_bind, Run.andThen, h.ending]
  exact ⟨rfl, h.state⟩

/-- After a result the run goes on with the second procedure. -/
theorem run_bind_of_returned {a : α} (h : (p.run services s).ending = .returned a) :
    (p >>= f).run services s =
      ((f a).run services (p.run services s).state).after (p.run services s).exchanges
        (p.run services s).log := by
  rw [run_bind, Run.andThen, h]

/-- After a failure the run has ended. -/
theorem run_bind_of_failed {e : Failure} (h : (p.run services s).ending = .failed e) :
    (p >>= f).run services s = { p.run services s with ending := .failed e } := by
  rw [run_bind, Run.andThen, h]

/-- What fails in sequence fails in one of its parts. -/
theorem failed_of_bind {e : Failure} (h : ((p >>= f).run services s).ending = .failed e) :
    (p.run services s).ending = .failed e ∨
      ∃ a, (p.run services s).ending = .returned a ∧
        ((f a).run services (p.run services s).state).ending = .failed e := by
  cases hp : (p.run services s).ending with
  | returned a =>
    rw [run_bind_of_returned hp] at h
    exact .inr ⟨a, rfl, h⟩
  | failed e' =>
    rw [run_bind_of_failed hp] at h
    cases h
    exact .inl rfl
  | crashed =>
    rw [run_bind, Run.andThen, hp] at h
    cases h

/-- Whatever is exchanged in sequence is exchanged in one of the parts. -/
theorem mem_exchanges_bind {x : Exchange} (hx : x ∈ ((p >>= f).run services s).exchanges) :
    x ∈ (p.run services s).exchanges ∨
      ∃ a, (p.run services s).ending = .returned a ∧
        x ∈ ((f a).run services (p.run services s).state).exchanges := by
  cases hp : (p.run services s).ending with
  | returned a =>
    rw [run_bind_of_returned hp] at hx
    exact (List.mem_append.mp hx).imp_right fun hrest => ⟨a, rfl, hrest⟩
  | failed e =>
    rw [run_bind_of_failed hp] at hx
    exact .inl hx
  | crashed =>
    rw [run_bind, Run.andThen, hp] at hx
    exact .inl hx

/-- What ends with a result did so in both parts, and noted what both parts noted. -/
theorem returned_of_bind {b : β} (h : ((p >>= f).run services s).ending = .returned b) :
    ∃ a, (p.run services s).ending = .returned a ∧
      ((f a).run services (p.run services s).state).ending = .returned b ∧
      ((p >>= f).run services s).log =
        (p.run services s).log ++ ((f a).run services (p.run services s).state).log := by
  cases hp : (p.run services s).ending with
  | returned a =>
    rw [run_bind_of_returned hp] at h ⊢
    exact ⟨a, rfl, h, rfl⟩
  | failed e =>
    rw [run_bind_of_failed hp] at h
    cases h
  | crashed =>
    rw [run_bind, Run.andThen, hp] at h
    cases h

/-- What ends with a result did so in both parts, one after the other. -/
theorem Ends.of_bind {b : β} (h : ((p >>= f).run services s).Ends (.returned b) s'') :
    ∃ a s', (p.run services s).Ends (.returned a) s' ∧
      ((f a).run services s').Ends (.returned b) s'' := by
  obtain ⟨hending, hstate⟩ := h
  obtain ⟨a, hp, hrest, _⟩ := returned_of_bind hending
  rw [run_bind_of_returned hp] at hstate
  exact ⟨a, _, ⟨hp, rfl⟩, hrest, hstate⟩

/-- Going on with a failure leaves the same state and log. -/
theorem run_attempt (p : Procedure α) (s : σ) :
    p.attempt.run services s =
      { p.run services s with ending := (p.run services s).ending.attempt } := by
  induction p generalizing s with
  | returned a => rfl
  | failed e => rfl
  | note entry rest ih => simp [attempt, run, Run.after, ih]
  | ask request next ih =>
    rw [attempt, run, run]
    rcases services.answer request s with ⟨_ | answer, s'⟩
    · rfl
    · simp [Run.after, ih]

/-- Going on with a failure makes it the result. -/
theorem ends_attempt {how : Ending α} (h : (p.run services s).Ends how s') :
    (p.attempt.run services s).Ends how.attempt s' := by
  rw [run_attempt]
  exact ⟨congrArg Ending.attempt h.ending, h.state⟩

end Procedure

end ArtifactGC
