import ArtifactGC.Proofs.Origin

/-!
# Passes that are given up

A pass fails only when it is asked for another node than the declared one. Everything else that goes
wrong gives the pass up, and what has been changed by then depends on where it goes wrong. A search
only asks, so that a failure of it leaves the store and the storage as they were, also when some
output keys have been gone through before. A purge fails only when the store refuses its records,
which is after all removals and before any record is changed. `given_up_pass_leaves_records` puts
this together for services in memory with any faults and beside any filter.
-/

namespace ArtifactGC

/-! ## Purges that fail -/

section Purge

variable {σ : Type} {services : Services σ} {s : σ}

/-- To settle fates is to use storage. -/
theorem keeps_settleAll_storage (as : List Artifact) :
    (settleAll as).Keeps (.ofAsks fun request => request.location?.isSome) fun r =>
      ∃ settled, r = .ok settled :=
  (keeps_settleAll fun _ _ _ => ⟨rfl, rfl, rfl, rfl⟩).imp fun _ ⟨settled, hr, _⟩ => ⟨settled, hr⟩

/-- A batch is not written when the store refuses it. -/
theorem run_put_of_failed {α : Type} {batch : List Artifact} {a : α} {e : Failure}
    (h : ((Procedure.put batch >>= fun _ => .returned a).run services s).ending = .failed e) :
    ∃ cause s', services.answer (.put batch) s = (some (.error cause), s') ∧ e = .store cause ∧
      (Procedure.put batch >>= fun _ => Procedure.returned a).run services s =
        ⟨.failed e, s', [⟨.put batch, some (.error cause)⟩], []⟩ := by
  rw [Procedure.put, Procedure.ask_bind, Procedure.run] at h ⊢
  rcases hanswer : services.answer (.put batch) s with ⟨_ | cause | _, s'⟩ <;> rw [hanswer] at h
  · cases h
  · cases h
    exact ⟨cause, s', rfl, rfl, rfl⟩
  · cases h

/-- A purge fails after it has settled all fates, when the store refuses the records. -/
theorem run_purge_of_failed {artifacts : List Artifact} {e : Failure}
    (h : ((purge artifacts).run services s).ending = .failed e) :
    let settling := (settleAll (artifacts.filter (·.isLive))).run services s
    ∃ batch cause s', services.answer (.put batch) settling.state = (some (.error cause), s') ∧
      e = .store cause ∧ ((purge artifacts).run services s).state = s' ∧
      ((purge artifacts).run services s).exchanges =
        settling.exchanges ++ [⟨.put batch, some (.error cause)⟩] := by
  intro settling
  have hsettles := ((keeps_settleAll_storage (artifacts.filter (·.isLive))).run
    (services.honours_ofAsks _) (s := s) trivial).2.2
  unfold purge at h ⊢
  rcases Procedure.failed_of_bind h with hfailed | ⟨settled, hsettled, hrest⟩
  · -- settling fates never fails
    obtain ⟨settled, hr⟩ := hsettles (.error e) hfailed
    cases hr
  · rw [Procedure.run_bind_of_returned hsettled]
    by_cases hnil : changedRecords settled = []
    · rw [if_pos hnil] at hrest
      cases hrest
    · rw [if_neg hnil] at hrest ⊢
      obtain ⟨cause, s', hanswer, he, hrun⟩ := run_put_of_failed hrest
      rw [Procedure.pure_eq, hrun]
      exact ⟨_, cause, s', hanswer, he, rfl, rfl⟩

end Purge

/-! ## Searches that fail -/

/-- A search as far as it goes through some output keys: the live artifacts, the events on them, and
what has been found. -/
def searchThrough (uid : NodeUid) (entries : List (String × Policy)) :
    Procedure (LiveOutputs × List Event × List Artifact) := do
  let live ← Procedure.liveOutputs uid
  let events ← Procedure.events (liveIds live)
  return (live, events, ← candidatesUnderAll live events entries)

section Search

variable {σ : Type} {services : Services σ} {s s' s'' : σ} {live : LiveOutputs}
  {events : List Event} {found : List Artifact} {key : String} {policy : Policy} {e : Failure}

/-- Nothing fails under an output key without live artifacts. -/
theorem liveUnder_ne_nil_of_failed
    (h : ((candidatesUnder live events key policy).run services s).ending = .failed e) :
    liveUnder live key ≠ [] := by
  intro hnil
  rw [candidatesUnder, if_pos hnil] at h
  cases h

/-- A failure under one output key ends the walk through all of them, whatever was found under the
ones before. -/
theorem ends_candidatesUnderAll_of_failed {before after : List (String × Policy)}
    (hbefore : ((candidatesUnderAll live events before).run services s).Ends (.returned found) s')
    (hkey : ((candidatesUnder live events key policy).run services s').Ends (.failed e) s'') :
    ((candidatesUnderAll live events (before ++ (key, policy) :: after)).run services s).Ends
      (.failed e) s'' := by
  induction before generalizing s found with
  | nil =>
    obtain rfl : s = s' := hbefore.state
    exact Procedure.ends_bind_of_failed hkey
  | cons entry before ih =>
    obtain ⟨key', policy'⟩ := entry
    obtain ⟨first, s₁, hfirst, hrest⟩ := Procedure.Ends.of_bind hbefore
    obtain ⟨rest, s₂, hall, hends⟩ := Procedure.Ends.of_bind hrest
    obtain rfl : s₂ = s' := hends.state
    exact Procedure.ends_bind hfirst (Procedure.ends_bind_of_failed (ih hall))

/-- A failure under one output key is that of the whole search. -/
theorem ends_candidates_of_failed {uid : NodeUid} {policies : KeyMap Policy}
    {before after : List (String × Policy)}
    (hentries : policies.entries = before ++ (key, policy) :: after)
    (hbefore : ((searchThrough uid before).run services s).Ends
      (.returned (live, events, found)) s')
    (hkey : ((candidatesUnder live events key policy).run services s').Ends (.failed e) s'') :
    ((candidates uid policies).run services s).Ends (.failed e) s'' := by
  obtain ⟨live', s₁, hlive, hrest⟩ := Procedure.Ends.of_bind hbefore
  obtain ⟨events', s₂, hevents, hrest⟩ := Procedure.Ends.of_bind hrest
  obtain ⟨found', s₃, hfound, hends⟩ := Procedure.Ends.of_bind hrest
  obtain rfl : s₃ = s' := hends.state
  cases hends.ending
  refine Procedure.ends_bind hlive ?_
  -- the key that fails has live artifacts, so the search does not stop before it asks for events
  have hsome : ¬ policies.keys.all (fun key => liveUnder live key = []) = true := by
    have hmem : key ∈ policies.keys := by simp [KeyMap.keys, hentries]
    simp only [List.all_eq_true, decide_eq_true_eq]
    exact fun hall => liveUnder_ne_nil_of_failed hkey.ending (hall key hmem)
  rw [if_neg hsome]
  refine Procedure.ends_bind hevents (Procedure.ends_bind_of_failed ?_)
  rw [hentries]
  exact ends_candidatesUnderAll_of_failed hfound hkey

end Search

/-! ## Services in memory -/

section Memory

variable {τ : Type} (c : Conditions) (filter : FilterService τ)

/-- A batch that is refused changes nothing. -/
theorem state_of_refused {batch : List Artifact} {m : Memory} {t : τ} {e : StoreError}
    {s : Memory × τ}
    (h : ((Memory.services c).withFilter filter).answer (.put batch) (m, t) =
      (some (.error e), s)) : s = (m, t) := by
  change ((Memory.underFault (c.fault .put) () m _).map id (·, t)) = _ at h
  rcases hfault : c.fault .put with _ | _ | _ <;> rw [hfault] at h <;> cases h
  rfl

/-- A purge in memory that fails has only used storage before its records are refused. -/
theorem failed_purge_keeps_store {artifacts : List Artifact} {s : Memory × τ} {e : Failure}
    (h : ((purge artifacts).run ((Memory.services c).withFilter filter) s).ending = .failed e) :
    let run := (purge artifacts).run ((Memory.services c).withFilter filter) s
    run.state.1.store = s.1.store ∧ ∃ earlier batch cause, e = .store cause ∧
      run.exchanges = earlier ++ [⟨.put batch, some (.error cause)⟩] ∧
      ∀ x ∈ earlier, x.request.location?.isSome := by
  intro run
  obtain ⟨hstore, hasks, _⟩ := (keeps_settleAll_storage (artifacts.filter (·.isLive))).run
    (services_keep_store c filter s.1.store) (s := s) rfl
  obtain ⟨batch, cause, s', hanswer, he, hstate, hexchanges⟩ := run_purge_of_failed h
  have hsame := state_of_refused c filter hanswer
  exact ⟨by rw [hstate, hsame]; exact hstore, _, batch, cause, he, hexchanges, hasks⟩

end Memory

/-! ## Passes -/

section Passes

variable {uid : NodeUid} {node : NodeSpec}

/-- Only a pass of another node than the declared one fails. -/
theorem failed_pass_iff {σ : Type} {services : Services σ} {s : σ} :
    (∃ e, ((pass uid node).run services s).ending = .failed e) ↔ uid.nodeId ≠ node.id := by
  rcases pass_cases uid node with ⟨hid, hpass⟩ | ⟨hid, _, hpass⟩ | ⟨hid, hpolicies⟩
  · rw [hpass]
    exact iff_of_true ⟨_, rfl⟩ hid
  · rw [hpass]
    exact iff_of_false (by rintro ⟨e, ⟨⟩⟩) (not_not.mpr hid)
  · refine iff_of_false ?_ (not_not.mpr hid)
    rw [(run_pass services s hid hpolicies).1]
    cases ((candidates uid node.policies >>= purge).run services s).ending <;> rintro ⟨e, ⟨⟩⟩

/-- A pass is given up when its search and purge fail, and leaves the services as these do. -/
theorem failed_of_aborted {σ : Type} {services : Services σ} {s : σ} {kind : FailureKind}
    {message : String}
    (h : ((pass uid node).run services s).ending = .returned (.aborted kind message)) :
    let purged := (candidates uid node.policies >>= purge).run services s
    ∃ e, purged.ending = .failed e ∧ e.kind = kind ∧ e.message = message ∧
      ((pass uid node).run services s).state = purged.state ∧
      ((pass uid node).run services s).exchanges = purged.exchanges := by
  intro purged
  rcases pass_cases uid node with ⟨_, hpass⟩ | ⟨_, _, hpass⟩ | ⟨hid, hpolicies⟩
  · rw [hpass] at h
    cases h
  · rw [hpass] at h
    cases h
  · obtain ⟨hending, hstate, hexchanges⟩ := run_pass services s hid hpolicies
    have houtcome : purged.ending.toOutcome = .returned (.aborted kind message) :=
      hending.symm.trans h
    cases hpurged : purged.ending with
    | failed e =>
      rw [hpurged] at houtcome
      cases houtcome
      exact ⟨e, rfl, rfl, rfl, hstate, hexchanges⟩
    | returned | crashed =>
      rw [hpurged] at houtcome
      cases houtcome

variable {τ : Type} (c : Conditions) (filter : FilterService τ) (m : Memory) (t : τ)

/-- A search and purge in memory that fail have only asked, or end with a refusal of records after
they have used storage. -/
theorem failed_search_and_purge {e : Failure}
    (h : ((candidates uid node.policies >>= purge).run ((Memory.services c).withFilter filter)
      (m, t)).ending = .failed e) :
    let run := (candidates uid node.policies >>= purge).run ((Memory.services c).withFilter filter)
      (m, t)
    run.state.1.store = m.store ∧
      ((run.state.1 = m ∧ ∀ x ∈ run.exchanges, x.request.IsQuery) ∨
        ∃ earlier batch cause, e = .store cause ∧
          run.exchanges = earlier ++ [⟨.put batch, some (.error cause)⟩] ∧
          ∀ x ∈ earlier, x.request.IsQuery ∨ x.request.location?.isSome) := by
  obtain ⟨hmemory, hqueries⟩ := search_keeps_memory c filter uid node.policies m t
  rcases Procedure.failed_of_bind h with hfailed | ⟨found, hfound, hpurge⟩
  · rw [Procedure.run_bind_of_failed hfailed]
    exact ⟨congrArg Memory.store hmemory, .inl ⟨hmemory, hqueries⟩⟩
  · rw [Procedure.run_bind_of_returned hfound]
    generalize (candidates uid node.policies).run _ (m, t) = search at hmemory hqueries hpurge ⊢
    obtain ⟨hstore, earlier, batch, cause, he, hexchanges, hstorage⟩ :=
      failed_purge_keeps_store c filter hpurge
    refine ⟨hstore.trans (congrArg Memory.store hmemory),
      .inr ⟨search.exchanges ++ earlier, batch, cause, he, ?_, ?_⟩⟩
    · rw [Run.after, hexchanges, ← List.append_assoc]
    · intro x hx
      exact (List.mem_append.mp hx).imp (hqueries x) (hstorage x)

/-- With services that always answer a pass of the declared node has an outcome. -/
theorem exists_outcome (hid : uid.nodeId = node.id) (hc : c.AlwaysAnswer)
    (hfilter : filter.AlwaysAnswers) :
    ∃ outcome, ((pass uid node).run ((Memory.services c).withFilter filter) (m, t)).ending =
      .returned outcome := by
  have hkeeps : (pass uid node).Keeps (.ofAsks fun _ => True) fun _ => True :=
    Procedure.keeps_of_allowed (fun _ => trivial) _
  have hcrash := hkeeps.not_crashed (Services.honours_ofAsks _ _)
    (fun {request s} _ _ => answer_ne_none hc hfilter request s) (s := (m, t)) trivial
  cases hending : ((pass uid node).run ((Memory.services c).withFilter filter) (m, t)).ending with
  | returned outcome => exact ⟨outcome, rfl⟩
  | failed e => exact absurd hid (failed_pass_iff.mp ⟨e, hending⟩)
  | crashed => exact absurd hending hcrash

/-- A failure under an output key gives the pass up, whatever was found under the ones before. -/
theorem ends_pass_of_failed_key (hid : uid.nodeId = node.id)
    {before after : List (String × Policy)} {key : String} {policy : Policy} {live : LiveOutputs}
    {events : List Event} {found : List Artifact} {e : Failure} {s s' : Memory × τ}
    (hentries : node.policies.entries = before ++ (key, policy) :: after)
    (hbefore : ((searchThrough uid before).run ((Memory.services c).withFilter filter) (m, t)).Ends
      (.returned (live, events, found)) s)
    (hkey : ((candidatesUnder live events key policy).run ((Memory.services c).withFilter filter)
      s).Ends (.failed e) s') :
    let run := (pass uid node).run ((Memory.services c).withFilter filter) (m, t)
    run.ending = .returned (.aborted e.kind e.message) ∧ run.state.1 = m ∧
      ∀ x ∈ run.exchanges, x.request.IsQuery := by
  have hpolicies : node.policies.isEmpty = false := by simp [KeyMap.isEmpty, hentries]
  have hsearch := ends_candidates_of_failed hentries hbefore hkey
  obtain ⟨hmemory, hqueries⟩ := search_keeps_memory c filter uid node.policies m t
  obtain ⟨hending, hstate, hexchanges⟩ :=
    run_pass ((Memory.services c).withFilter filter) (m, t) hid hpolicies
  rw [Procedure.run_bind_of_failed hsearch.ending] at hending hstate hexchanges
  exact ⟨hending, (congrArg Prod.fst hstate).trans hmemory, hexchanges ▸ hqueries⟩

end Passes

/-- A pass fails exactly when it is asked for another node than the declared one, and has then asked
nothing; in all other cases it has an outcome, unless the services break down. A pass that is given
up leaves all records as they were. It has used no storage, unless what gives it up is the refusal
of the records that it writes last. In particular a failure under one output key gives the pass up
before anything changes, whatever was found under the output keys before. -/
theorem given_up_pass_leaves_records {τ : Type} (c : Conditions) (filter : FilterService τ)
    (uid : NodeUid) (node : NodeSpec) (m : Memory) (t : τ) :
    let services := (Memory.services c).withFilter filter
    let run := (pass uid node).run services (m, t)
    ((∃ e, run.ending = .failed e) ↔ uid.nodeId ≠ node.id) ∧
    (uid.nodeId ≠ node.id → run.exchanges = [] ∧ run.state = (m, t)) ∧
    (uid.nodeId = node.id → c.AlwaysAnswer → filter.AlwaysAnswers →
      ∃ outcome, run.ending = .returned outcome) ∧
    (∀ kind message, run.ending = .returned (.aborted kind message) →
      run.state.1.store = m.store ∧
      ((run.state.1 = m ∧ ∀ x ∈ run.exchanges, x.request.IsQuery) ∨
        ∃ earlier batch cause, kind = .store ∧ message = cause.message ∧
          run.exchanges = earlier ++ [⟨.put batch, some (.error cause)⟩] ∧
          ∀ x ∈ earlier, x.request.IsQuery ∨ x.request.location?.isSome)) ∧
    ∀ before key policy after live events found s e s', uid.nodeId = node.id →
      node.policies.entries = before ++ (key, policy) :: after →
      ((searchThrough uid before).run services (m, t)).Ends (.returned (live, events, found)) s →
      ((candidatesUnder live events key policy).run services s).Ends (.failed e) s' →
      run.ending = .returned (.aborted e.kind e.message) ∧ run.state.1 = m ∧
        ∀ x ∈ run.exchanges, x.request.IsQuery := by
  intro services run
  refine ⟨failed_pass_iff, fun hne => ?_, fun hid => exists_outcome c filter m t hid, ?_, ?_⟩
  · have hrun : run = (Procedure.failed _).run services (m, t) :=
      congrArg (fun p => p.run services (m, t)) (pass_of_mismatch hne)
    rw [hrun]
    exact ⟨rfl, rfl⟩
  · intro kind message h
    obtain ⟨e, hfailed, rfl, rfl, hstate, hexchanges⟩ := failed_of_aborted h
    obtain ⟨hstore, hcases⟩ := failed_search_and_purge c filter m t hfailed
    have hstate : run.state = _ := hstate
    have hexchanges : run.exchanges = _ := hexchanges
    rw [hstate, hexchanges]
    refine ⟨hstore, hcases.imp_right ?_⟩
    rintro ⟨earlier, batch, cause, rfl, hlast, hearlier⟩
    exact ⟨earlier, batch, cause, rfl, rfl, hlast, hearlier⟩
  · intro before key policy after live events found s e s' hid hentries hbefore hkey
    exact ends_pass_of_failed_key c filter m t hid hentries hbefore hkey

/-- Under its first output key a pass finds a model. Under the second one an event dangles, and the
pass is given up with nothing changed. Without that event it removes the model, and is given up only
when the store refuses the records. -/
theorem failure_under_second_key_gives_up :
    let models := Store.ofModels [model 1 "/1", model 2 "/2"]
    let store := (models.publishing (model 3 "/3") "summary").publishing (model 4 "/4") "summary"
    let m : Memory := ⟨store.insertEvent (.consumed ⟨3⟩ ⟨9⟩), Storage.empty.addFile "/1"⟩
    let whole : Memory := ⟨store, Storage.empty.addFile "/1"⟩
    let filter : FilterService Nat := fun _ cs n => (some (.ok cs), n + 1)
    let refusing : Conditions := ⟨fun operation =>
      if operation = .put then some (.refuses "down") else none, none, .passThrough⟩
    let spec := (trainerSpec (.ofRecency 1)).withOutput "summary" (some (.ofRecency 1))
    ((searchThrough trainer [("model", .ofRecency 1)]).run
      ((Memory.services .normal).withFilter filter) (m, 0)).ending =
        .returned (m.store.liveOutputs trainer, m.store.events, [model 1 "/1"]) ∧
    ((pass trainer spec).run ((Memory.services .normal).withFilter filter) (m, 0)).ending =
      .returned (.aborted .consistency ("output key 'summary': event references missing " ++
        "execution execution-00000000000000000000000009")) ∧
    ((pass trainer spec).run ((Memory.services .normal).withFilter filter) (m, 0)).state.1 = m ∧
    ((pass trainer spec).run ((Memory.services refusing).withFilter filter) (whole, 0)).ending =
      .returned (.aborted .store "metadata store unavailable: down") ∧
    ((pass trainer spec).run ((Memory.services refusing).withFilter filter)
      (whole, 0)).state.1.storage.files = [] ∧
    ((pass trainer spec).run ((Memory.services refusing).withFilter filter)
      (whole, 0)).state.1.store = store := by
  intro models store m whole filter refusing spec
  have hentries : spec.policies.entries =
      [("model", .ofRecency 1)] ++ [("summary", .ofRecency 1)] := by decide +kernel
  have hbefore : ((searchThrough trainer [("model", .ofRecency 1)]).run
      ((Memory.services .normal).withFilter filter) (m, 0)).Ends
      (.returned (m.store.liveOutputs trainer, m.store.events, [model 1 "/1"])) (m, 1) :=
    ⟨by decide +kernel, by decide +kernel⟩
  have hkey : ((candidatesUnder (m.store.liveOutputs trainer) m.store.events "summary"
      (.ofRecency 1)).run ((Memory.services .normal).withFilter filter) (m, 1)).Ends
      (.failed (.outputKey "summary" (.missingExecution ⟨9⟩))) (m, 2) :=
    ⟨by decide +kernel, by decide +kernel⟩
  obtain ⟨_, _, _, _, hfailed⟩ := given_up_pass_leaves_records .normal filter trainer spec m 0
  obtain ⟨_, _, _, hgiven, _⟩ := given_up_pass_leaves_records refusing filter trainer spec whole 0
  have hrefused : ((pass trainer spec).run ((Memory.services refusing).withFilter filter)
      (whole, 0)).ending = .returned (.aborted .store "metadata store unavailable: down") := by
    decide +kernel
  obtain ⟨_, hkept, _⟩ := hfailed _ _ _ _ _ _ _ _ _ _ rfl hentries hbefore hkey
  obtain ⟨hstore, _⟩ := hgiven _ _ hrefused
  exact ⟨hbefore.ending, by decide +kernel, hkept, hrefused, by decide +kernel, hstore⟩

end ArtifactGC
