import ArtifactGC.Proofs.Consumption
import ArtifactGC.Proofs.Effects
import ArtifactGC.Proofs.Heeding

/-!
# The order in which a pass asks

A pass first searches its node and then purges what it found. `SearchesNode` and `PurgesLive` list
what may be exchanged in either part. `pass_follows_protocol` says that every pass proceeds like
this, whatever its services answer and wherever they break down, and that a plan stops where the
purge begins.
-/

namespace ArtifactGC

/-! ## Searches -/

/-- The identifiers ascend and are those of the artifacts that are live under any output key. -/
structure AllLive (live : LiveOutputs) (ids : List ArtifactId) : Prop where
  /-- They ascend strictly. -/
  ascending : ids.Pairwise (compare · · = .lt)
  /-- They are the identifiers of the artifacts that are listed. -/
  mem : ∀ id, id ∈ ids ↔ ∃ key as, live.find? key = some as ∧ id ∈ as.map (·.id)

/-- What is exchanged to evaluate one output key. -/
inductive EvaluatesKey (live : LiveOutputs) (events : List Event) (key : String)
    (policy : Policy) : List Exchange → Prop where
  /-- The policy collects nothing, or it cannot be evaluated. -/
  | kept (hkept : ∀ notKept, artifactsToCollect policy (liveUnder live key) = .ok notKept →
      notKept = []) : EvaluatesKey live events key policy []
  /-- The filter is asked about what the policy does not keep. If it answers, nothing that it leaves
  is consumed. -/
  | filtered {notKept : List Artifact}
      {answer : Option (Request.Answer (.unusedInGroups policy.usage notKept))}
      (hcollect : artifactsToCollect policy (liveUnder live key) = .ok notKept)
      (hne : notKept ≠ [])
      (hunused : ∀ returned, answer = some (.ok returned) →
        consumptions (admitted notKept returned) events = []) :
      EvaluatesKey live events key policy [⟨.unusedInGroups policy.usage notKept, answer⟩]
  /-- After the filter has answered, the executions are asked for that consume what it leaves. -/
  | checked {notKept returned : List Artifact} {ids : List ExecutionId}
      {answer : Option (Request.Answer (.executions ids))}
      (hcollect : artifactsToCollect policy (liveUnder live key) = .ok notKept)
      (hne : notKept ≠ [])
      (hids : ids = ascending ((consumptions (admitted notKept returned) events).map
        (·.executionId)))
      (hused : ids ≠ []) :
      EvaluatesKey live events key policy
        [⟨.unusedInGroups policy.usage notKept, some (.ok returned)⟩, ⟨.executions ids, answer⟩]

/-- What is exchanged to search a node, and whether the search comes to its end. -/
inductive SearchesNode (uid : NodeUid) (policies : KeyMap Policy) :
    List Exchange → Bool → Prop where
  /-- The store does not say what is live. -/
  | unlisted {answer : Option (Request.Answer (.liveOutputs uid))}
      (hfails : Exchange.Fails ⟨.liveOutputs uid, answer⟩) :
      SearchesNode uid policies [⟨.liveOutputs uid, answer⟩] false
  /-- Nothing is live under the output keys with policies. -/
  | idle {live : LiveOutputs} (hidle : ∀ key ∈ policies.keys, liveUnder live key = []) :
      SearchesNode uid policies [⟨.liveOutputs uid, some (.ok live)⟩] true
  /-- The store does not say which events there are. -/
  | uninformed {live : LiveOutputs} {ids : List ArtifactId}
      {answer : Option (Request.Answer (.events ids))}
      (hlive : ∃ key ∈ policies.keys, liveUnder live key ≠ []) (hids : AllLive live ids)
      (hfails : Exchange.Fails ⟨.events ids, answer⟩) :
      SearchesNode uid policies [⟨.liveOutputs uid, some (.ok live)⟩, ⟨.events ids, answer⟩] false
  /-- The search stops at an output key. -/
  | stopped {live : LiveOutputs} {ids : List ArtifactId} {events : List Event}
      {before after : List (String × Policy)} {entry : String × Policy}
      {dialogues : List (List Exchange)} {last : List Exchange}
      (hlive : ∃ key ∈ policies.keys, liveUnder live key ≠ []) (hids : AllLive live ids)
      (hentries : policies.entries = before ++ entry :: after)
      (hbefore : List.Forall₂ (fun e => EvaluatesKey live events e.1 e.2) before dialogues)
      (hlast : EvaluatesKey live events entry.1 entry.2 last) :
      SearchesNode uid policies (⟨.liveOutputs uid, some (.ok live)⟩ ::
        ⟨.events ids, some (.ok events)⟩ :: (dialogues.flatten ++ last)) false
  /-- All output keys with policies are evaluated, one after another. -/
  | finished {live : LiveOutputs} {ids : List ArtifactId} {events : List Event}
      {dialogues : List (List Exchange)}
      (hlive : ∃ key ∈ policies.keys, liveUnder live key ≠ []) (hids : AllLive live ids)
      (hall : List.Forall₂ (fun e => EvaluatesKey live events e.1 e.2) policies.entries
        dialogues) :
      SearchesNode uid policies (⟨.liveOutputs uid, some (.ok live)⟩ ::
        ⟨.events ids, some (.ok events)⟩ :: dialogues.flatten) true

section Search

variable {live : LiveOutputs} {events : List Event} {key : String} {policy : Policy}
  {uid : NodeUid} {policies : KeyMap Policy} {exchanges : List Exchange}

theorem allLive_liveIds (live : LiveOutputs) : AllLive live (liveIds live) where
  ascending := pairwise_ascending _
  mem id := by
    rw [liveIds, mem_ascending, List.map_flatten, List.mem_flatten]
    constructor
    · rintro ⟨_, hids, hid⟩
      obtain ⟨as, has, rfl⟩ := List.mem_map.mp hids
      obtain ⟨⟨key, _⟩, hentry, rfl⟩ := List.mem_map.mp has
      exact ⟨key, _, KeyMap.find?_eq_some.mpr hentry, hid⟩
    · rintro ⟨key, as, hfind, hid⟩
      have has : as ∈ live.values := List.mem_map_of_mem (KeyMap.find?_eq_some.mp hfind)
      exact ⟨as.map (·.id), List.mem_map_of_mem has, hid⟩

/-- An output key is evaluated in one of the listed ways. -/
theorem evaluatesKey_of_yields {how : Ending (List Artifact)}
    (h : (candidatesUnder live events key policy).Yields exchanges how) :
    EvaluatesKey live events key policy exchanges := by
  unfold candidatesUnder at h
  split at h
  · rename_i hnil
    obtain ⟨rfl, _⟩ := h
    refine .kept fun notKept hcollect => ?_
    rw [hnil] at hcollect
    exact List.sublist_nil.mp (artifactsToCollect_sublist hcollect)
  · split at h
    · rename_i cause hcollect
      obtain ⟨rfl, _⟩ := h.of_noteAll
      exact .kept fun notKept hok => nomatch hcollect.symm.trans hok
    · rename_i notKept hcollect
      obtain ⟨_, h, _⟩ := h.mapFailure
      unfold unneeded at h
      split at h
      · rename_i hnil
        obtain ⟨rfl, _⟩ := h
        exact .kept fun notKept' hok => by rwa [← Except.ok.inj (hcollect.symm.trans hok)]
      · rename_i hne
        rcases h with ⟨rfl, _⟩ | ⟨answer, rest, rfl, hrest⟩
        · exact .filtered hcollect hne nofun
        · cases answer with
          | error e =>
            obtain ⟨rfl, _⟩ := hrest
            exact .filtered hcollect hne nofun
          | ok returned =>
            have hunused := asked_of_yields_retainUnused hrest.of_noteAll
            rcases hunused with ⟨hnil, rfl⟩ | ⟨hsome, answer, rfl⟩
            · exact .filtered hcollect hne fun _ hreturned => by cases hreturned; exact hnil
            · refine .checked hcollect hne rfl fun hnone => hsome ?_
              rw [List.eq_nil_iff_forall_not_mem] at hnone ⊢
              exact fun e he => hnone e.executionId (mem_ascending.mpr (List.mem_map_of_mem he))

/-- Output keys are evaluated one after another, up to the one at which the search stops. -/
theorem evaluatesKeys_of_yields {entries : List (String × Policy)} {how : Ending (List Artifact)}
    (h : (candidatesUnderAll live events entries).Yields exchanges how) :
    (∃ found dialogues, how = .returned found ∧ exchanges = dialogues.flatten ∧
        List.Forall₂ (fun e => EvaluatesKey live events e.1 e.2) entries dialogues) ∨
      ((∀ found, how ≠ .returned found) ∧ ∃ before entry after dialogues last,
        entries = before ++ entry :: after ∧ exchanges = dialogues.flatten ++ last ∧
        List.Forall₂ (fun e => EvaluatesKey live events e.1 e.2) before dialogues ∧
        EvaluatesKey live events entry.1 entry.2 last) := by
  induction entries generalizing exchanges how with
  | nil =>
    obtain ⟨rfl, rfl⟩ := h
    exact .inl ⟨[], [], rfl, rfl, .nil⟩
  | cons entry entries ih =>
    obtain ⟨key, policy⟩ := entry
    rcases h.bind_cases with ⟨_, first, rest, rfl, hfirst, hrest⟩ | ⟨hnot, how', _, hfirst⟩
    · have hfirst := evaluatesKey_of_yields hfirst
      rcases hrest.bind_cases with ⟨found, others, _, rfl, hothers, rfl, rfl⟩ |
        ⟨hnot, how', hnot', hothers⟩
      · obtain ⟨_, dialogues, _, rfl, hall⟩ | ⟨hnot, _⟩ := ih hothers
        · refine .inl ⟨_, first :: dialogues, rfl, ?_, .cons hfirst hall⟩
          rw [List.append_nil, List.flatten_cons]
        · exact absurd rfl (hnot found)
      · obtain ⟨found, _, hfound, _⟩ |
          ⟨_, before, entry, after, dialogues, last, rfl, rfl, hbefore, hlast⟩ := ih hothers
        · exact absurd hfound (hnot' found)
        · exact .inr ⟨hnot, _ :: before, entry, after, first :: dialogues, last, rfl,
            (List.append_assoc _ _ _).symm, .cons hfirst hbefore, hlast⟩
    · exact .inr ⟨hnot, [], _, entries, [], exchanges, rfl, rfl, .nil,
        evaluatesKey_of_yields hfirst⟩

/-- A node is searched in one of the listed ways, and the search comes to its end if and only if it
has a result. -/
theorem searchesNode_of_yields {how : Ending (List Artifact)}
    (h : (candidates uid policies).Yields exchanges how) :
    (∃ found, how = .returned found ∧ SearchesNode uid policies exchanges true) ∨
      ((∀ found, how ≠ .returned found) ∧ SearchesNode uid policies exchanges false) := by
  rcases h with ⟨rfl, rfl⟩ | ⟨answer, rest, rfl, hrest⟩
  · exact .inr ⟨by simp, .unlisted (Exchange.fails_none _)⟩
  · cases answer with
    | error e =>
      obtain ⟨rfl, rfl⟩ := hrest
      exact .inr ⟨by simp, .unlisted (Exchange.fails_of_refused ⟨e, rfl⟩)⟩
    | ok live =>
      change Procedure.Yields (if _ then _ else _) rest how at hrest
      split at hrest
      · rename_i hidle
        obtain ⟨rfl, rfl⟩ := hrest
        exact .inl ⟨[], rfl, .idle (by simpa using hidle)⟩
      · rename_i hsome
        have hlive : ∃ key ∈ policies.keys, liveUnder live key ≠ [] := by simpa using hsome
        have hids := allLive_liveIds live
        rcases hrest with ⟨rfl, rfl⟩ | ⟨answer, rest, rfl, hrest⟩
        · exact .inr ⟨by simp, .uninformed hlive hids (Exchange.fails_none _)⟩
        · cases answer with
          | error e =>
            obtain ⟨rfl, rfl⟩ := hrest
            exact .inr ⟨by simp, .uninformed hlive hids (Exchange.fails_of_refused ⟨e, rfl⟩)⟩
          | ok events =>
            -- what is returned drops repetitions, which exchanges nothing
            change Procedure.Yields (candidatesUnderAll live events policies.entries >>=
              fun all => pure (distinctOn (·.id) all)) rest how at hrest
            rcases hrest.bind_cases with ⟨found, first, _, rfl, hfirst, rfl, rfl⟩ |
              ⟨hnot, how', hnot', hfirst⟩
            · obtain ⟨_, dialogues, _, rfl, hall⟩ | ⟨hnot, _⟩ := evaluatesKeys_of_yields hfirst
              · rw [List.append_nil]
                exact .inl ⟨_, rfl, .finished hlive hids hall⟩
              · exact absurd rfl (hnot found)
            · obtain ⟨found, _, hfound, _⟩ | ⟨_, before, entry, after, dialogues, last, hentries,
                rfl, hbefore, hlast⟩ := evaluatesKeys_of_yields hfirst
              · exact absurd hfound (hnot' found)
              · exact .inr ⟨hnot, .stopped hlive hids hentries hbefore hlast⟩

end Search

/-! ## Purges -/

/-- Of storage no more is asked about an artifact than this, in this order. -/
def AsksStorage (a : Artifact) (exchanges : List Exchange) : Prop :=
  (exchanges.map (·.request)).Sublist
    [.isDirectory a.uri, .remove a.uri, .removeRecursive a.uri, .isPresent a.uri]

/-- What is exchanged to purge the live ones of some artifacts. -/
inductive PurgesLive (as : List Artifact) : List Exchange → Prop where
  /-- Storage is asked about one artifact after another, and no record is written. -/
  | unwritten {purged : List Artifact} {dialogues : List (List Exchange)}
      (hpurged : purged <+: as.filter (·.isLive))
      (hstorage : List.Forall₂ AsksStorage purged dialogues) : PurgesLive as dialogues.flatten
  /-- After storage was asked about all of them, records of them are written, all in one batch. -/
  | written {dialogues : List (List Exchange)} {batch : List Artifact}
      {answer : Option (Request.Answer (.put batch))}
      (hstorage : List.Forall₂ AsksStorage (as.filter (·.isLive)) dialogues)
      (hbatch : (batch.map (·.id)).Sublist ((as.filter (·.isLive)).map (·.id))) :
      PurgesLive as (dialogues.flatten ++ [⟨.put batch, answer⟩])

section Purge

variable {exchanges : List Exchange} {as : List Artifact}

/-- To remove what is at a location is at most to check for a directory and to remove it. -/
theorem requests_of_yields_removeFromStorage {uri : String}
    {how : Ending (Except StorageError Unit)}
    (h : (removeFromStorage uri).Yields exchanges how) :
    (exchanges.map (·.request)).Sublist [.isDirectory uri, .remove uri, .removeRecursive uri] := by
  rcases h with ⟨rfl, _⟩ | ⟨checked, rest, rfl, hrest⟩
  · simp
  · rcases checked with e | _ | _
    · obtain ⟨rfl, _⟩ := hrest
      simp
    · rcases hrest with ⟨rfl, _⟩ | ⟨answer, _, rfl, rfl, _⟩ <;> simp
    · rcases hrest with ⟨rfl, _⟩ | ⟨answer, _, rfl, rfl, _⟩ <;> simp

/-- To settle the fate of an artifact is to ask storage about it. -/
theorem asksStorage_of_yields {a : Artifact} {how : Ending Fate}
    (h : (settle a).Yields exchanges how) : AsksStorage a exchanges := by
  have happend {first rest : List Exchange} (hfirst : (first.map (·.request)).Sublist
      [.isDirectory a.uri, .remove a.uri, .removeRecursive a.uri])
      (hrest : (rest.map (·.request)).Sublist [.isPresent a.uri]) :
      AsksStorage a (first ++ rest) := by
    rw [AsksStorage, List.map_append]
    exact hfirst.append hrest
  unfold settle at h
  split at h
  · obtain ⟨rfl, _⟩ := h
    exact List.nil_sublist _
  · rcases h.bind_cases with ⟨answer, first, rest, rfl, hfirst, hrest⟩ | ⟨_, _, _, hfirst⟩
    · refine happend (requests_of_yields_removeFromStorage hfirst) ?_
      cases answer with
      | ok _ =>
        obtain ⟨rfl, _⟩ := hrest
        simp
      | error e =>
        rcases hrest with ⟨rfl, _⟩ | ⟨present, _, rfl, hrest⟩
        · simp
        · rcases present with e' | _ | _ <;> obtain ⟨rfl, _⟩ := hrest <;> simp
    · rw [← List.append_nil exchanges]
      exact happend (requests_of_yields_removeFromStorage hfirst) (by simp)

/-- Storage is asked about one artifact after another, and about all if there is a result. -/
theorem asksStorage_of_yields_settleAll {how : Ending (List (Artifact × Fate))}
    (h : (settleAll as).Yields exchanges how) :
    ∃ purged dialogues, purged <+: as ∧ exchanges = dialogues.flatten ∧
      List.Forall₂ AsksStorage purged dialogues ∧
      ∀ settled, how = .returned settled → purged = as ∧ settled.map (·.1) = as := by
  induction as generalizing exchanges how with
  | nil =>
    obtain ⟨rfl, rfl⟩ := h
    refine ⟨[], [], List.prefix_rfl, rfl, .nil, ?_⟩
    rintro _ ⟨⟩
    exact ⟨rfl, rfl⟩
  | cons a as ih =>
    rcases h.bind_cases with ⟨fate, first, rest, rfl, hfirst, hrest⟩ | ⟨hnot, _, _, hfirst⟩
    · have hfirst := asksStorage_of_yields hfirst
      rcases hrest.bind_cases with ⟨settled, others, _, rfl, hothers, rfl, rfl⟩ |
        ⟨hnot, how', hnot', hothers⟩
      · obtain ⟨purged, dialogues, _, rfl, hall, hreturned⟩ := ih hothers
        obtain ⟨rfl, hsettled⟩ := hreturned settled rfl
        refine ⟨a :: purged, first :: dialogues, List.prefix_rfl, ?_, .cons hfirst hall, ?_⟩
        · rw [List.append_nil, List.flatten_cons]
        · rintro _ ⟨⟩
          exact ⟨rfl, congrArg (a :: ·) hsettled⟩
      · obtain ⟨purged, dialogues, hpurged, rfl, hall, _⟩ := ih hothers
        exact ⟨a :: purged, first :: dialogues, List.cons_prefix_cons.mpr ⟨rfl, hpurged⟩, rfl,
          .cons hfirst hall, fun settled hhow => absurd hhow (hnot settled)⟩
    · exact ⟨[a], [exchanges], by simp, by simp, .cons (asksStorage_of_yields hfirst) .nil,
        fun settled hhow => absurd hhow (hnot settled)⟩

/-- Artifacts are purged in one of the listed ways. -/
theorem purgesLive_of_yields {how : Ending PurgeReport} (h : (purge as).Yields exchanges how) :
    PurgesLive as exchanges := by
  rcases h.bind_cases with ⟨settled, first, rest, rfl, hfirst, hrest⟩ | ⟨_, _, _, hfirst⟩
  · obtain ⟨purged, dialogues, hpurged, rfl, hall, hreturned⟩ :=
      asksStorage_of_yields_settleAll hfirst
    obtain ⟨rfl, hsettled⟩ := hreturned settled rfl
    dsimp only at hrest
    split at hrest
    · obtain ⟨rfl, _⟩ := hrest
      rw [List.append_nil]
      exact .unwritten hpurged hall
    · have hbatch : ((changedRecords settled).map (·.id)).Sublist
          ((as.filter (·.isLive)).map (·.id)) := by
        rw [← hsettled, changedRecords, List.map_map, List.map_map]
        exact List.filter_sublist.map _
      rcases hrest with ⟨rfl, _⟩ | ⟨answer, _, rfl, hrest⟩
      · exact .written hall hbatch
      · cases answer with
        | ok _ =>
          obtain ⟨rfl, _⟩ := hrest
          exact .written hall hbatch
        | error e =>
          obtain ⟨rfl, _⟩ := hrest
          exact .written hall hbatch
  · obtain ⟨purged, dialogues, hpurged, rfl, hall, _⟩ := asksStorage_of_yields_settleAll hfirst
    exact .unwritten hpurged hall

/-- What serves to purge artifacts is no query. -/
theorem Request.Purges.not_isQuery {request : Request} (h : request.Purges as) :
    ¬ request.IsQuery := by
  intro hquery
  cases request with
  | put | isDirectory | isPresent | remove | removeRecursive => cases hquery
  | liveOutputs | events | executions | unusedInGroups =>
    obtain ⟨_, _, _, _, hlocation⟩ := h
    cases hlocation

end Purge

/-! ## Passes -/

instance (request : Request) : Decidable request.IsQuery :=
  match request with
  | .liveOutputs _ | .events _ | .executions _ | .unusedInGroups .. => isTrue trivial
  | .put _ | .isDirectory _ | .isPresent _ | .remove _ | .removeRecursive _ => isFalse id

section Pass

variable {σ : Type} (services : Services σ) (s : σ) {uid : NodeUid} {node : NodeSpec}

/-- A pass exchanges what a plan exchanges, and after that what the purge of the planned artifacts
exchanges, if there is a plan. -/
theorem exchanges_of_plan_and_purge (hid : uid.nodeId = node.id)
    (hpolicies : node.policies.isEmpty = false) :
    let planned := (plan uid node).run services s
    let run := (pass uid node).run services s
    (∃ found, planned.ending = .returned found ∧
        run.exchanges = planned.exchanges ++ ((purge found).run services planned.state).exchanges) ∨
      ((∀ found, planned.ending ≠ .returned found) ∧ run.exchanges = planned.exchanges) := by
  intro planned run
  have hplanned : planned = (candidates uid node.policies).run services s :=
    congrArg (·.run services s) (plan_eq hid hpolicies)
  have hrun : run.exchanges =
      (planned.andThen fun found s => (purge found).run services s).exchanges := by
    rw [hplanned, ← Procedure.run_bind]
    exact (run_pass services s hid hpolicies).2.2
  rw [hrun, Run.andThen]
  cases planned.ending with
  | returned found => exact .inl ⟨found, rfl, rfl⟩
  | failed e => exact .inr ⟨by simp, rfl⟩
  | crashed => exact .inr ⟨by simp, rfl⟩

/-- A plan exchanges the queries of the pass. -/
theorem exchanges_of_plan (uid : NodeUid) (node : NodeSpec) :
    ((plan uid node).run services s).exchanges =
      ((pass uid node).run services s).exchanges.filter (·.request.IsQuery) := by
  rcases pass_cases uid node with ⟨hid, hpass⟩ | ⟨hid, hempty, hpass⟩ | ⟨hid, hpolicies⟩
  · rw [hpass, plan_of_mismatch hid]
    rfl
  · rw [hpass, plan_of_isEmpty hid hempty]
    rfl
  · have hqueries : ((plan uid node).run services s).exchanges.filter (·.request.IsQuery) =
        ((plan uid node).run services s).exchanges := by
      rw [plan_eq hid hpolicies]
      exact List.filter_eq_self.mpr fun x hx =>
        decide_eq_true (exchanges_of_search services s uid node.policies x hx)
    obtain ⟨found, _, hrun⟩ | ⟨_, hrun⟩ := exchanges_of_plan_and_purge services s hid hpolicies
    · have hpurging : ((purge found).run services
          ((plan uid node).run services s).state).exchanges.filter (·.request.IsQuery) = [] := by
        refine List.filter_eq_nil_iff.mpr fun x hx hquery => ?_
        exact ((keeps_purge_purges found).asks services _ x hx).not_isQuery
          (of_decide_eq_true hquery)
      rw [hrun, List.filter_append, hqueries, hpurging, List.append_nil]
    · rw [hrun, hqueries]

end Pass

/-- Whatever services answer, and wherever they break down, a pass of another node than the declared
one exchanges nothing with them, nor does a pass without policies. Every other pass first asks once
for what is live; then, only if something is live under an output key with a policy, once for the
events on all that is live under any key; then for each output key with a policy, in the order of
their bytes, at most once the filter, only if the policy collects something, and after that at most
once for executions. Only when all output keys are evaluated does it use storage, for one after
another of the live artifacts that it found, each once, and after that it may write records, once.
Where the store or the filter refuses or breaks down, nothing is exchanged any more. A plan
exchanges the queries of the pass. -/
theorem pass_follows_protocol {σ : Type} (services : Services σ) (uid : NodeUid) (node : NodeSpec)
    (s : σ) :
    let planned := (plan uid node).run services s
    let run := (pass uid node).run services s
    (uid.nodeId ≠ node.id ∨ node.policies.isEmpty = true → run.exchanges = []) ∧
    (uid.nodeId = node.id → node.policies.isEmpty = false →
      (SearchesNode uid node.policies planned.exchanges false ∧
        (∀ found, planned.ending ≠ .returned found) ∧ run.exchanges = planned.exchanges) ∨
      (SearchesNode uid node.policies planned.exchanges true ∧ ∃ found purging,
        planned.ending = .returned found ∧ (found.map (·.id)).Nodup ∧ PurgesLive found purging ∧
        run.exchanges = planned.exchanges ++ purging)) ∧
    (node.policies.keys.Pairwise fun key key' => Text.bytes key < Text.bytes key') ∧
    (∀ x ∈ run.exchanges.dropLast, x.request.location? = none → ¬ x.Fails) ∧
    planned.exchanges = run.exchanges.filter (·.request.IsQuery) := by
  intro planned run
  have hsorted : node.policies.keys.Pairwise fun key key' => Text.bytes key < Text.bytes key' :=
    List.pairwise_map.mpr (node.policies.sorted.imp (Text.compare_eq_lt_iff_bytes _ _).mp)
  refine ⟨fun hneither => ?_, fun hid hpolicies => ?_, hsorted,
    not_fails_of_pass services s uid node, exchanges_of_plan services s uid node⟩
  · rcases pass_cases uid node with ⟨_, hpass⟩ | ⟨_, _, hpass⟩ | ⟨hid, hpolicies⟩
    · exact congrArg (fun p => (p.run services s).exchanges) hpass
    · exact congrArg (fun p => (p.run services s).exchanges) hpass
    · rcases hneither with hne | hempty
      · exact absurd hid hne
      · cases hempty.symm.trans hpolicies
  · have hplanned : planned = (candidates uid node.policies).run services s :=
      congrArg (·.run services s) (plan_eq hid hpolicies)
    have hsearches := searchesNode_of_yields
      (Procedure.yields_run services (candidates uid node.policies) s)
    rw [← hplanned] at hsearches
    obtain ⟨found, hfound, hrun⟩ | ⟨hnot, hrun⟩ :=
      exchanges_of_plan_and_purge services s hid hpolicies
    · refine .inr ⟨?_, found, _, hfound, ?_, purgesLive_of_yields
        (Procedure.yields_run services (purge found) planned.state), hrun⟩
      · obtain ⟨_, _, hfinished⟩ | ⟨hnot, _⟩ := hsearches
        · exact hfinished
        · exact absurd hfound (hnot found)
      · have hsearched := (congrArg (·.ending) hplanned).symm.trans hfound
        exact ((keeps_candidates_distinct uid node.policies).run (services.honours_ofAsks _)
          trivial).2.2 (.ok found) hsearched found rfl
    · obtain ⟨found, hfound, _⟩ | ⟨_, hstopped⟩ := hsearches
      · exact absurd hfound (hnot found)
      · exact .inl ⟨hstopped, hnot, hrun⟩

/-- Two output keys have two artifacts each, and the oldest model was read by an execution that has
ended. The evaluations are gone through first, and all removals come after the last query. -/
theorem pass_of_two_output_keys :
    let store := ((((Store.ofModels [model 1 "/1", model 2 "/2"]).withReader 1 .complete).publishing
      (model 3 "/3") "evaluation").publishing (model 4 "/4") "evaluation")
    let storage := (Storage.empty.addFile "/1").addDirectory "/3"
    let spec := (trainerSpec (.ofRecency 1)).withOutput "evaluation" (some (.ofRecency 1))
    let services := Memory.services .normal
    let planned := (plan trainer spec).run services ⟨store, storage⟩
    let run := (pass trainer spec).run services ⟨store, storage⟩
    trainer.nodeId = spec.id ∧ spec.policies.isEmpty = false ∧
      run.exchanges.map (·.request) =
        [.liveOutputs trainer, .events [⟨1⟩, ⟨2⟩, ⟨3⟩, ⟨4⟩],
          .unusedInGroups none [model 3 "/3"],
          .unusedInGroups none [model 1 "/1"], .executions [⟨2⟩],
          .isDirectory "/3", .removeRecursive "/3", .isDirectory "/1", .remove "/1",
          .put [(model 3 "/3").markDeleted, (model 1 "/1").markDeleted]] ∧
      SearchesNode trainer spec.policies planned.exchanges true ∧
      (∃ purging, PurgesLive [model 3 "/3", model 1 "/1"] purging ∧
        run.exchanges = planned.exchanges ++ purging) ∧
      planned.exchanges = run.exchanges.filter (·.request.IsQuery) := by
  intro store storage spec services planned run
  have hid : trainer.nodeId = spec.id := by decide +kernel
  have hpolicies : spec.policies.isEmpty = false := by decide +kernel
  have hplanned : planned.ending = .returned [model 3 "/3", model 1 "/1"] := by decide +kernel
  obtain ⟨_, hprotocol, _, _, hqueries⟩ :=
    pass_follows_protocol services trainer spec ⟨store, storage⟩
  obtain ⟨_, hnot, _⟩ | ⟨hsearches, found, purging, hfound, _, hpurges, hrun⟩ :=
    hprotocol hid hpolicies
  · exact absurd hplanned (hnot _)
  · obtain rfl := Ending.returned.inj (hplanned.symm.trans hfound)
    exact ⟨hid, hpolicies, by decide +kernel, hsearches, ⟨purging, hpurges, hrun⟩, hqueries⟩

end ArtifactGC
