import ArtifactGC.Procedure

/-!
# Procedures under a contract

A contract says which requests may be made and which answers may be given to them. A procedure
keeps a contract with some result when, as long as every answer is as agreed, it makes only
requests that it may make and its result, or its failure, is one of the allowed ones. Keeping a
contract is proved along the text of a procedure, with `keeps_bind` for steps in sequence, and
holds of every run with services that honour the contract: `Keeps.run` is the main statement.
-/

namespace ArtifactGC

/-- What may be asked of services and what they may answer. -/
structure Contract where
  /-- The requests that may be made. -/
  asks : Request → Prop
  /-- The answers that may be given to a request. -/
  answers : (request : Request) → request.Answer → Prop

namespace Procedure

variable {α β : Type} {c : Contract} {post post' : Except Failure α → Prop}

/-- While all answers are as agreed, the procedure asks only what it may, and it ends in an
allowed way. -/
def Keeps (c : Contract) (post : Except Failure α → Prop) : Procedure α → Prop
  | .returned a => post (.ok a)
  | .failed e => post (.error e)
  | .ask request next =>
    c.asks request ∧ ∀ answer, c.answers request answer → (next answer).Keeps c post
  | .note _ rest => rest.Keeps c post

@[simp] theorem keeps_returned {a : α} : (returned a).Keeps c post ↔ post (.ok a) := Iff.rfl

@[simp] theorem keeps_failed {e : Failure} : (failed e).Keeps c post ↔ post (.error e) := Iff.rfl

@[simp] theorem keeps_ask {request : Request} {next : request.Answer → Procedure α} :
    (ask request next).Keeps c post ↔
      c.asks request ∧ ∀ answer, c.answers request answer → (next answer).Keeps c post := Iff.rfl

@[simp] theorem keeps_note {entry : LogEntry} {rest : Procedure α} :
    (note entry rest).Keeps c post ↔ rest.Keeps c post := Iff.rfl

/-- More ways to end are easier to keep to. -/
theorem Keeps.imp {p : Procedure α} (h : p.Keeps c post) (himp : ∀ r, post r → post' r) :
    p.Keeps c post' := by
  induction p with
  | returned a => exact himp _ h
  | failed e => exact himp _ h
  | ask request next ih =>
    obtain ⟨hask, hnext⟩ := h
    exact ⟨hask, fun answer ha => ih answer (hnext answer ha)⟩
  | note entry rest ih => exact ih h

/-- Two steps in sequence keep a contract when the first keeps it and ends, if with a result, so
that the second keeps it from there. -/
theorem keeps_bind {p : Procedure β} {f : β → Procedure α} :
    (p >>= f).Keeps c post ↔
      p.Keeps c fun r => match r with
        | .ok b => (f b).Keeps c post
        | .error e => post (.error e) := by
  induction p with
  | returned b => rw [returned_bind, keeps_returned]
  | failed e => rw [failed_bind, keeps_failed, keeps_failed]
  | ask request next ih =>
    rw [ask_bind, keeps_ask, keeps_ask]
    exact and_congr_right fun _ => forall_congr' fun answer => imp_congr_right fun _ => ih answer
  | note entry rest ih => rw [note_bind, keeps_note, keeps_note, ih]

/-- The rule for two steps in sequence, read from the first step on. -/
theorem Keeps.bind {p : Procedure β} {f : β → Procedure α} {mid : Except Failure β → Prop}
    (h : p.Keeps c mid) (hok : ∀ b, mid (.ok b) → (f b).Keeps c post)
    (herror : ∀ e, mid (.error e) → post (.error e)) : (p >>= f).Keeps c post := by
  rw [keeps_bind]
  refine h.imp fun r hr => ?_
  cases r with
  | ok b => exact hok b hr
  | error e => exact herror e hr

/-- A replaced failure is judged as its replacement. -/
theorem keeps_mapFailure {p : Procedure α} {f : Failure → Failure} :
    (p.mapFailure f).Keeps c post ↔ p.Keeps c fun r => post (r.mapError f) := by
  induction p with
  | returned a => exact Iff.rfl
  | failed e => exact Iff.rfl
  | ask request next ih =>
    exact and_congr_right fun _ => forall_congr' fun answer => imp_congr_right fun _ => ih answer
  | note entry rest ih => exact ih

/-- A procedure that goes on with a failure ends with it as a result. -/
theorem keeps_attempt {p : Procedure α} {post : Except Failure (Except Failure α) → Prop} :
    p.attempt.Keeps c post ↔ p.Keeps c fun r => post (.ok r) := by
  induction p with
  | returned a => exact Iff.rfl
  | failed e => exact Iff.rfl
  | ask request next ih =>
    exact and_congr_right fun _ => forall_congr' fun answer => imp_congr_right fun _ => ih answer
  | note entry rest ih => exact ih

/-- Notes ask nothing and do not fail. -/
@[simp] theorem keeps_noteAll {entries : List LogEntry} {post : Except Failure Unit → Prop} :
    (noteAll entries).Keeps c post ↔ post (.ok ()) := by
  induction entries with
  | nil => exact Iff.rfl
  | cons entry entries ih => exact ih

/-- Where everything is allowed, every procedure keeps the contract. -/
theorem keeps_of_allowed (hasks : ∀ request, c.asks request) (p : Procedure α) :
    p.Keeps c fun _ => True := by
  induction p with
  | returned a => trivial
  | failed e => trivial
  | ask request next ih => exact ⟨hasks request, fun answer _ => ih answer⟩
  | note entry rest ih => exact ih

end Procedure

/-! ## Runs with services that honour a contract -/

/-- In the states of an invariant, which they keep, services answer permitted requests as
agreed. -/
structure Services.Honours {σ : Type} (services : Services σ) (c : Contract) (inv : σ → Prop) :
    Prop where
  /-- What is answered is as agreed. -/
  answers : ∀ {request s answer}, inv s → c.asks request →
    (services.answer request s).1 = some answer → c.answers request answer
  /-- The invariant survives. -/
  keeps : ∀ {request s}, inv s → c.asks request → inv (services.answer request s).2

/-- The contract that allows some requests and any answers to them. -/
def Contract.ofAsks (asks : Request → Prop) : Contract where
  asks := asks
  answers _ _ := True

/-- Where any answer is allowed, services cannot but honour the contract. -/
theorem Services.honours_ofAsks {σ : Type} (services : Services σ) (asks : Request → Prop) :
    services.Honours (.ofAsks asks) fun _ => True where
  answers _ _ _ := trivial
  keeps _ _ := trivial

/-- How a run ends that ends with a result or a failure. -/
def Ending.ofExcept {α : Type} : Except Failure α → Ending α
  | .ok a => .returned a
  | .error e => .failed e

namespace Procedure

variable {α σ : Type} {c : Contract} {post : Except Failure α → Prop} {services : Services σ}
  {inv : σ → Prop}

/-- A run of a procedure that keeps a contract, with services that honour it, stays inside the
invariant, makes only permitted requests, and ends in an allowed way unless it crashes. -/
theorem Keeps.run {p : Procedure α} (h : p.Keeps c post) (hs : services.Honours c inv) {s : σ}
    (hi : inv s) :
    inv (p.run services s).state ∧
      (∀ x ∈ (p.run services s).exchanges, c.asks x.request) ∧
      ∀ r, (p.run services s).ending = .ofExcept r → post r := by
  induction p generalizing s with
  | returned a =>
    refine ⟨hi, by simp [Procedure.run], fun r hr => ?_⟩
    cases r <;> simp_all [Procedure.run, Ending.ofExcept]
  | failed e =>
    refine ⟨hi, by simp [Procedure.run], fun r hr => ?_⟩
    cases r <;> simp_all [Procedure.run, Ending.ofExcept]
  | note entry rest ih => simpa [Procedure.run, Run.after] using ih h hi
  | ask request next ih =>
    obtain ⟨hask, hnext⟩ := h
    have hkept := hs.keeps hi hask
    rw [Procedure.run]
    rcases hanswer : services.answer request s with ⟨_ | answer, s'⟩
    · rw [hanswer] at hkept
      refine ⟨hkept, by simpa using hask, fun r hr => ?_⟩
      cases r <;> simp [Ending.ofExcept] at hr
    · rw [hanswer] at hkept
      have hagreed : c.answers request answer := hs.answers hi hask (by rw [hanswer])
      obtain ⟨hinv, hasks, hpost⟩ := ih answer (hnext answer hagreed) hkept
      refine ⟨hinv, fun x hx => ?_, hpost⟩
      rcases List.mem_cons.mp hx with rfl | hx
      · exact hask
      · exact hasks x hx

/-- With any services a procedure asks what it asks under a contract that allows any answer. -/
theorem Keeps.asks {asks : Request → Prop} {p : Procedure α} (h : p.Keeps (.ofAsks asks) post)
    (services : Services σ) (s : σ) : ∀ x ∈ (p.run services s).exchanges, asks x.request :=
  (h.run (services.honours_ofAsks asks) trivial).2.1

/-- Two services that give permitted requests the same answers in corresponding states, and go on to
corresponding states, let a procedure end in the same way and in corresponding states. -/
theorem Keeps.simulates {σ' : Type} {services' : Services σ'} {asks : Request → Prop}
    {R : σ → σ' → Prop} {p : Procedure α} (h : p.Keeps (.ofAsks asks) post)
    (hstep : ∀ {request s s'}, asks request → R s s' →
      (services.answer request s).1 = (services'.answer request s').1 ∧
        R (services.answer request s).2 (services'.answer request s').2)
    {s : σ} {s' : σ'} (hR : R s s') :
    (p.run services s).ending = (p.run services' s').ending ∧
      R (p.run services s).state (p.run services' s').state := by
  induction p generalizing s s' with
  | returned a => exact ⟨rfl, hR⟩
  | failed e => exact ⟨rfl, hR⟩
  | note entry rest ih => exact ih h hR
  | ask request next ih =>
    obtain ⟨hask, hnext⟩ := h
    have hsame := hstep hask hR
    rw [Procedure.run, Procedure.run]
    rcases hanswer : services.answer request s with ⟨_ | answer, t⟩ <;>
      rcases hanswer' : services'.answer request s' with ⟨_ | answer', t'⟩ <;>
      rw [hanswer, hanswer'] at hsame
    · exact ⟨rfl, hsame.2⟩
    · cases hsame.1
    · cases hsame.1
    · obtain ⟨heq, hR'⟩ := hsame
      cases heq
      exact ih answer (hnext answer trivial) hR'

/-- Services that always answer permitted requests do not let a run crash. -/
theorem Keeps.not_crashed {p : Procedure α} (h : p.Keeps c post) (hs : services.Honours c inv)
    (htotal : ∀ {request s}, inv s → c.asks request → (services.answer request s).1 ≠ none)
    {s : σ} (hi : inv s) : (p.run services s).ending ≠ .crashed := by
  induction p generalizing s with
  | returned a => simp [Procedure.run]
  | failed e => simp [Procedure.run]
  | note entry rest ih => simpa [Procedure.run, Run.after] using ih h hi
  | ask request next ih =>
    obtain ⟨hask, hnext⟩ := h
    have hkept := hs.keeps hi hask
    have hsome := htotal hi hask
    rw [Procedure.run]
    rcases hanswer : services.answer request s with ⟨_ | answer, s'⟩
    · exact absurd (by rw [hanswer]) hsome
    · rw [hanswer] at hkept
      have hagreed : c.answers request answer := hs.answers hi hask (by rw [hanswer])
      exact ih answer (hnext answer hagreed) hkept

end Procedure

end ArtifactGC
