import ArtifactGC.Proofs.Origin
import ArtifactGC.Proofs.Transcripts

/-!
# The last word of the store and the filter

A pass asks nothing more once the store or the filter refuses or breaks down. A procedure heeds
refusals when it gives up at each of them, which is a property of its text that is kept by sequences
and holds of searches and purges. `Heeds.not_fails` turns it into one of what is exchanged, and
`not_fails_of_pass` says so of passes. Where storage refuses, a purge goes on.
-/

namespace ArtifactGC

/-- The answer to a request is an error. -/
def Request.Refused : (request : Request) → request.Answer → Prop
  | .liveOutputs _, answer | .events _, answer | .executions _, answer | .put _, answer
  | .unusedInGroups .., answer | .isDirectory _, answer | .isPresent _, answer
  | .remove _, answer | .removeRecursive _, answer => ∃ e, answer = .error e

/-- The services break down at the request, or answer with an error. -/
def Exchange.Fails (x : Exchange) : Prop :=
  ∀ answer, x.answer = some answer → x.request.Refused answer

theorem Exchange.fails_none (request : Request) : Exchange.Fails ⟨request, none⟩ := by
  rintro answer ⟨⟩

theorem Exchange.fails_of_refused {request : Request} {answer : request.Answer}
    (h : request.Refused answer) : Exchange.Fails ⟨request, some answer⟩ := by
  rintro _ ⟨⟩
  exact h

namespace Procedure

variable {α β : Type} {p : Procedure α} {f : α → Procedure β}

/-- The procedure fails and asks nothing. -/
def GivesUp : Procedure α → Prop
  | .failed _ => True
  | .note _ rest => rest.GivesUp
  | _ => False

/-- Where the store or the filter refuses, the procedure gives up. -/
def Heeds : Procedure α → Prop
  | .returned _ | .failed _ => True
  | .ask request next => (∀ answer, (next answer).Heeds) ∧
      (request.location? = none → ∀ answer, request.Refused answer → (next answer).GivesUp)
  | .note _ rest => rest.Heeds

theorem GivesUp.bind (h : p.GivesUp) : (p >>= f).GivesUp := by
  induction p with
  | returned a => cases h
  | failed e => trivial
  | ask request next ih => cases h
  | note entry rest ih => exact ih h

theorem GivesUp.mapFailure {g : Failure → Failure} (h : p.GivesUp) :
    (p.mapFailure g).GivesUp := by
  induction p with
  | returned a => cases h
  | failed e => trivial
  | ask request next ih => cases h
  | note entry rest ih => exact ih h

theorem GivesUp.exchanges_eq_nil {exchanges : List Exchange} {how : Ending α} (h : p.GivesUp)
    (hyields : p.Yields exchanges how) : exchanges = [] := by
  induction p with
  | returned a => cases h
  | failed e => exact hyields.1
  | ask request next ih => cases h
  | note entry rest ih => exact ih h hyields

/-- Two steps in sequence heed refusals when both of them do. -/
theorem Heeds.bind (h : p.Heeds) (hf : ∀ a, (f a).Heeds) : (p >>= f).Heeds := by
  induction p with
  | returned a => exact hf a
  | failed e => trivial
  | ask request next ih =>
    exact ⟨fun answer => ih answer (h.1 answer),
      fun hlocation answer hrefused => (h.2 hlocation answer hrefused).bind⟩
  | note entry rest ih => exact ih h

theorem Heeds.mapFailure {g : Failure → Failure} (h : p.Heeds) : (p.mapFailure g).Heeds := by
  induction p with
  | returned a => trivial
  | failed e => trivial
  | ask request next ih =>
    exact ⟨fun answer => ih answer (h.1 answer),
      fun hlocation answer hrefused => (h.2 hlocation answer hrefused).mapFailure⟩
  | note entry rest ih => exact ih h

theorem heeds_ofExcept (answer : Except Failure α) : (ofExcept answer).Heeds := by
  cases answer <;> trivial

theorem givesUp_ofExcept {answer : Except Failure α} (h : ∃ e, answer = .error e) :
    (ofExcept answer).GivesUp := by
  obtain ⟨e, rfl⟩ := h
  trivial

theorem givesUp_ofStore {answer : Except StoreError α} (h : ∃ e, answer = .error e) :
    (ofStore answer).GivesUp := by
  obtain ⟨e, rfl⟩ := h
  trivial

theorem heeds_noteAll (entries : List LogEntry) : (noteAll entries).Heeds := by
  induction entries with
  | nil => trivial
  | cons entry entries ih => exact ih

/-- What the store or the filter refuses ends what a procedure that heeds refusals exchanges. -/
theorem Heeds.not_fails {exchanges : List Exchange} {how : Ending α} (h : p.Heeds)
    (hyields : p.Yields exchanges how) :
    ∀ x ∈ exchanges.dropLast, x.request.location? = none → ¬ x.Fails := by
  induction p generalizing exchanges with
  | returned a =>
    obtain ⟨rfl, _⟩ := hyields
    nofun
  | failed e =>
    obtain ⟨rfl, _⟩ := hyields
    nofun
  | note entry rest ih => exact ih h hyields
  | ask request next ih =>
    rcases hyields with ⟨rfl, _⟩ | ⟨answer, rest, rfl, hrest⟩
    · nofun
    · intro x hx hlocation hfails
      cases rest with
      | nil => cases hx
      | cons y rest =>
        rw [List.dropLast_cons_cons] at hx
        rcases List.mem_cons.mp hx with rfl | hx
        · -- something follows, although the procedure gives up here
          have hgives := h.2 hlocation answer (hfails answer rfl)
          cases hgives.exchanges_eq_nil hrest
        · exact ih answer (h.1 answer) hrest x hx hlocation hfails

end Procedure

/-! ## Searches -/

theorem heeds_retainUnused (cs : List Artifact) (events : List Event) :
    (retainUnused cs events).Heeds := by
  have hasks (ids : List ExecutionId) : (Procedure.executions ids).Heeds :=
    ⟨fun _ => Procedure.heeds_ofExcept _, fun _ _ => Procedure.givesUp_ofStore⟩
  unfold retainUnused
  dsimp only
  split
  · trivial
  · refine (hasks _).bind fun executions => ?_
    split
    · exact (Procedure.heeds_noteAll _).bind fun _ => trivial
    · trivial

theorem heeds_unneeded (policy : Policy) (events : List Event) (notKept : List Artifact) :
    (unneeded policy events notKept).Heeds := by
  have hasks : (Procedure.unusedInGroups policy.usage notKept).Heeds :=
    ⟨fun _ => Procedure.heeds_ofExcept _, fun _ _ => Procedure.givesUp_ofExcept⟩
  unfold unneeded
  split
  · trivial
  · refine hasks.bind fun returned => ?_
    exact (Procedure.heeds_noteAll _).bind fun _ => heeds_retainUnused _ events

theorem heeds_candidatesUnder (live : LiveOutputs) (events : List Event) (key : String)
    (policy : Policy) : (candidatesUnder live events key policy).Heeds := by
  unfold candidatesUnder
  split
  · trivial
  · split
    · exact (Procedure.heeds_noteAll _).bind fun _ => trivial
    · exact (heeds_unneeded policy events _).mapFailure

theorem heeds_candidatesUnderAll (live : LiveOutputs) (events : List Event)
    (entries : List (String × Policy)) : (candidatesUnderAll live events entries).Heeds := by
  induction entries with
  | nil => trivial
  | cons entry entries ih =>
    exact (heeds_candidatesUnder live events entry.1 entry.2).bind fun _ => ih.bind fun _ => trivial

/-- A search heeds refusals. -/
theorem heeds_candidates (uid : NodeUid) (policies : KeyMap Policy) :
    (candidates uid policies).Heeds := by
  have hlive : (Procedure.liveOutputs uid).Heeds :=
    ⟨fun _ => Procedure.heeds_ofExcept _, fun _ _ => Procedure.givesUp_ofStore⟩
  have hevents (ids : List ArtifactId) : (Procedure.events ids).Heeds :=
    ⟨fun _ => Procedure.heeds_ofExcept _, fun _ _ => Procedure.givesUp_ofStore⟩
  refine hlive.bind fun live => ?_
  split
  · trivial
  · exact (hevents _).bind fun events =>
      (heeds_candidatesUnderAll live events policies.entries).bind fun _ => trivial

/-! ## Purges -/

theorem heeds_settle (a : Artifact) : (settle a).Heeds := by
  have hremoves (uri : String) : (removeFromStorage uri).Heeds := by
    refine ⟨fun checked => ?_, nofun⟩
    rcases checked with e | _ | _
    · trivial
    · exact ⟨fun _ => trivial, nofun⟩
    · exact ⟨fun _ => trivial, nofun⟩
  unfold settle
  split
  · trivial
  · refine (hremoves a.uri).bind fun answer => ?_
    cases answer with
    | ok _ => trivial
    | error e =>
      refine ⟨fun present => ?_, nofun⟩
      rcases present with e' | _ | _ <;> trivial

theorem heeds_settleAll (as : List Artifact) : (settleAll as).Heeds := by
  induction as with
  | nil => trivial
  | cons a as ih => exact (heeds_settle a).bind fun _ => ih.bind fun _ => trivial

/-- A purge heeds refusals. -/
theorem heeds_purge (as : List Artifact) : (purge as).Heeds := by
  have hput (batch : List Artifact) : (Procedure.put batch).Heeds :=
    ⟨fun _ => Procedure.heeds_ofExcept _, fun _ _ => Procedure.givesUp_ofStore⟩
  refine (heeds_settleAll _).bind fun settled => ?_
  dsimp only
  split
  · trivial
  · exact (hput _).bind fun _ => trivial

/-! ## Passes -/

/-- Where the store or the filter fails, a pass exchanges nothing any more. -/
theorem not_fails_of_pass {σ : Type} (services : Services σ) (s : σ) (uid : NodeUid)
    (node : NodeSpec) :
    ∀ x ∈ ((pass uid node).run services s).exchanges.dropLast,
      x.request.location? = none → ¬ x.Fails := by
  rcases pass_cases uid node with ⟨_, hpass⟩ | ⟨_, _, hpass⟩ | ⟨hid, hpolicies⟩
  · rw [hpass]
    nofun
  · rw [hpass]
    nofun
  · rw [(run_pass services s hid hpolicies).2.2]
    exact ((heeds_candidates uid node.policies).bind heeds_purge).not_fails
      (Procedure.yields_run services _ s)

end ArtifactGC
