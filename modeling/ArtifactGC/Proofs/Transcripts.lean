import ArtifactGC.Proofs.Contract
import ArtifactGC.Proofs.Runs

/-!
# What procedures exchange

A procedure yields a transcript, the exchanges in their order together with the way it ends, when
some services may answer so. Whatever the services are, a run yields its own transcript, so that
what is said of all transcripts of a procedure holds of every sequence of answers. `yields_run` and
`Yields.bind` are the main statements.
-/

namespace ArtifactGC

namespace Procedure

variable {σ α β : Type} {p : Procedure α} {f : α → Procedure β} {exchanges : List Exchange}

/-- The procedure may exchange this with services and then end so. Services may break down at every
request. -/
def Yields : Procedure α → List Exchange → Ending α → Prop
  | .returned a, exchanges, how => exchanges = [] ∧ how = .returned a
  | .failed e, exchanges, how => exchanges = [] ∧ how = .failed e
  | .ask request next, exchanges, how =>
    (exchanges = [⟨request, none⟩] ∧ how = .crashed) ∨
      ∃ answer rest, exchanges = ⟨request, some answer⟩ :: rest ∧ (next answer).Yields rest how
  | .note _ rest, exchanges, how => rest.Yields exchanges how

/-- Every run yields what it exchanges and how it ends. -/
theorem yields_run (services : Services σ) (p : Procedure α) (s : σ) :
    p.Yields (p.run services s).exchanges (p.run services s).ending := by
  induction p generalizing s with
  | returned a => exact ⟨rfl, rfl⟩
  | failed e => exact ⟨rfl, rfl⟩
  | note entry rest ih => exact ih s
  | ask request next ih =>
    rw [run]
    rcases services.answer request s with ⟨_ | answer, s'⟩
    · exact .inl ⟨rfl, rfl⟩
    · exact .inr ⟨answer, _, rfl, ih answer s'⟩

/-- Two steps in sequence yield what the first one yields, if it ends without a result, and else
what both yield one after the other. -/
theorem Yields.bind {how : Ending β} (h : (p >>= f).Yields exchanges how) :
    (∃ a first rest, exchanges = first ++ rest ∧ p.Yields first (.returned a) ∧
        (f a).Yields rest how) ∨
      (∃ e, p.Yields exchanges (.failed e) ∧ how = .failed e) ∨
      (p.Yields exchanges .crashed ∧ how = .crashed) := by
  induction p generalizing exchanges with
  | returned a => exact .inl ⟨a, [], exchanges, rfl, ⟨rfl, rfl⟩, h⟩
  | failed e => exact .inr (.inl ⟨e, ⟨h.1, rfl⟩, h.2⟩)
  | note entry rest ih => exact ih h
  | ask request next ih =>
    rcases h with ⟨rfl, rfl⟩ | ⟨answer, rest, rfl, hrest⟩
    · exact .inr (.inr ⟨.inl ⟨rfl, rfl⟩, rfl⟩)
    · rcases ih answer hrest with ⟨a, first, last, rfl, hfirst, hlast⟩ | ⟨e, hfailed, rfl⟩ |
        ⟨hcrashed, rfl⟩
      · exact .inl ⟨a, _ :: first, last, rfl, .inr ⟨answer, first, rfl, hfirst⟩, hlast⟩
      · exact .inr (.inl ⟨e, .inr ⟨answer, rest, rfl, hfailed⟩, rfl⟩)
      · exact .inr (.inr ⟨.inr ⟨answer, rest, rfl, hcrashed⟩, rfl⟩)

/-- Two steps in sequence yield what both yield one after the other, or else what the first one
yields without a result. -/
theorem Yields.bind_cases {how : Ending β} (h : (p >>= f).Yields exchanges how) :
    (∃ a first rest, exchanges = first ++ rest ∧ p.Yields first (.returned a) ∧
        (f a).Yields rest how) ∨
      ((∀ b, how ≠ .returned b) ∧ ∃ how', (∀ a, how' ≠ .returned a) ∧ p.Yields exchanges how') := by
  rcases h.bind with hboth | ⟨e, hfailed, rfl⟩ | ⟨hcrashed, rfl⟩
  · exact .inl hboth
  · exact .inr ⟨nofun, .failed e, nofun, hfailed⟩
  · exact .inr ⟨nofun, .crashed, nofun, hcrashed⟩

/-- With another failure the same is exchanged, and with the same result if there is one. -/
theorem Yields.mapFailure {g : Failure → Failure} {how : Ending α}
    (h : (p.mapFailure g).Yields exchanges how) :
    ∃ how', p.Yields exchanges how' ∧ ∀ a, how = .returned a ↔ how' = .returned a := by
  induction p generalizing exchanges with
  | returned a => exact ⟨how, h, fun _ => Iff.rfl⟩
  | failed e =>
    obtain ⟨rfl, rfl⟩ := h
    exact ⟨.failed e, ⟨rfl, rfl⟩, fun _ => iff_of_false nofun nofun⟩
  | note entry rest ih => exact ih h
  | ask request next ih =>
    rcases h with ⟨rfl, rfl⟩ | ⟨answer, rest, rfl, hrest⟩
    · exact ⟨.crashed, .inl ⟨rfl, rfl⟩, fun _ => Iff.rfl⟩
    · obtain ⟨how', hyields, hsame⟩ := ih answer hrest
      exact ⟨how', .inr ⟨answer, rest, rfl, hyields⟩, hsame⟩

/-- A procedure that goes on with its failure exchanges the same. -/
theorem Yields.attempt {how : Ending (Except Failure α)} (h : p.attempt.Yields exchanges how) :
    ∃ how', p.Yields exchanges how' ∧ how = how'.attempt := by
  induction p generalizing exchanges with
  | returned a => exact ⟨.returned a, ⟨h.1, rfl⟩, h.2⟩
  | failed e => exact ⟨.failed e, ⟨h.1, rfl⟩, h.2⟩
  | note entry rest ih => exact ih h
  | ask request next ih =>
    rcases h with ⟨rfl, rfl⟩ | ⟨answer, rest, rfl, hrest⟩
    · exact ⟨.crashed, .inl ⟨rfl, rfl⟩, rfl⟩
    · obtain ⟨how', hyields, hhow⟩ := ih answer hrest
      exact ⟨how', .inr ⟨answer, rest, rfl, hyields⟩, hhow⟩

/-- To note log entries is to exchange nothing. -/
theorem yields_noteAll {entries : List LogEntry} {how : Ending Unit} :
    (noteAll entries).Yields exchanges how ↔ exchanges = [] ∧ how = .returned () := by
  induction entries with
  | nil => exact Iff.rfl
  | cons entry entries ih => exact ih

/-- Log entries before a procedure change nothing in what it yields. -/
theorem Yields.of_noteAll {entries : List LogEntry} {how : Ending α}
    (h : (noteAll entries >>= fun _ => p).Yields exchanges how) : p.Yields exchanges how := by
  rcases h.bind_cases with ⟨_, first, rest, rfl, hfirst, hrest⟩ | ⟨_, how', hnot, hnotes⟩
  · obtain ⟨rfl, _⟩ := yields_noteAll.mp hfirst
    exact hrest
  · exact absurd (yields_noteAll.mp hnotes).2 (hnot ())

/-- What a procedure exchanges that keeps a contract, and how it ends, is as agreed when the answers
are. -/
theorem Keeps.of_yields {c : Contract} {post : Except Failure α → Prop} {how : Ending α}
    (h : p.Keeps c post) (hyields : p.Yields exchanges how)
    (hanswers : ∀ x ∈ exchanges, ∀ answer, x.answer = some answer → c.answers x.request answer) :
    (∀ x ∈ exchanges, c.asks x.request) ∧ ∀ r, how = .ofExcept r → post r := by
  induction p generalizing exchanges with
  | returned a =>
    obtain ⟨rfl, rfl⟩ := hyields
    refine ⟨nofun, fun r hr => ?_⟩
    cases r with
    | ok a => cases hr; exact h
    | error e => cases hr
  | failed e =>
    obtain ⟨rfl, rfl⟩ := hyields
    refine ⟨nofun, fun r hr => ?_⟩
    cases r with
    | ok a => cases hr
    | error e => cases hr; exact h
  | note entry rest ih => exact ih h hyields hanswers
  | ask request next ih =>
    obtain ⟨hask, hnext⟩ := h
    rcases hyields with ⟨rfl, rfl⟩ | ⟨answer, rest, rfl, hrest⟩
    · refine ⟨fun x hx => List.mem_singleton.mp hx ▸ hask, fun r hr => ?_⟩
      cases r <;> cases hr
    · obtain ⟨hagreed, hothers⟩ := List.forall_mem_cons.mp hanswers
      obtain ⟨hasks, hpost⟩ := ih answer (hnext answer (hagreed answer rfl)) hrest hothers
      exact ⟨List.forall_mem_cons.mpr ⟨hask, hasks⟩, hpost⟩

/-- What a procedure exchanges it may ask under a contract that allows any answer. -/
theorem Keeps.asks_of_yields {asks : Request → Prop} {post : Except Failure α → Prop}
    {how : Ending α} (h : p.Keeps (.ofAsks asks) post) (hyields : p.Yields exchanges how) :
    ∀ x ∈ exchanges, asks x.request :=
  (h.of_yields hyields fun _ _ _ _ => trivial).1

/-- Services that answer every request let no run crash. -/
theorem ending_ne_crashed {services : Services σ}
    (hanswers : ∀ request s, (services.answer request s).1 ≠ none) (p : Procedure α) (s : σ) :
    (p.run services s).ending ≠ .crashed :=
  (keeps_of_allowed (c := .ofAsks fun _ => True) (fun _ => trivial) p).not_crashed
    (services.honours_ofAsks _) (fun _ _ => hanswers _ _) trivial

end Procedure

end ArtifactGC
