import ArtifactGC.Assembly
import ArtifactGC.Candidates
import ArtifactGC.Proofs.Retention
import ArtifactGC.Proofs.Usage

/-!
# What the search for candidates finds

The search asks a store for live artifacts, events and executions and consults a pipeline group
filter. Two contracts are of interest. Under a truthful one the filter, and even the answer to
the question for live artifacts, may be anything: whatever is found is then among the artifacts
that the answer lists, and is not in flight. Under the contract `queries` every answer is fixed
and the filter is a function; the search then ends as `Store.selected` says, which goes through
the output keys without asking anything.
-/

namespace ArtifactGC

/-! ## Truthful stores and arbitrary filters -/

/-- Everything that the search asks may be asked. Events and executions are those that a store
holds, if they are answered at all; nothing is known about the other answers. -/
structure Contract.Truthful (c : Contract) (s : Store) : Prop extends c.KnowsExecutions s where
  /-- Live artifacts may be asked for. -/
  asksLive : ∀ node, c.asks (.liveOutputs node)
  /-- Events may be asked for. -/
  asksEvents : ∀ ids, c.asks (.events ids)
  /-- The filter may be consulted. -/
  asksGroups : ∀ usage cs, c.asks (.unusedInGroups usage cs)
  /-- The events are those of the store. -/
  events : ∀ {ids events}, c.answers (.events ids) (.ok events) → events = s.eventsOn ids

/-- If anything is found, it is artifacts with some property. -/
def OnlyFinds (P : Artifact → Prop) (r : Except Failure (List Artifact)) : Prop :=
  ∀ found, r = .ok found → ∀ a ∈ found, P a

section OnlyFinds

variable {P Q : Artifact → Prop}

theorem OnlyFinds.mono {r : Except Failure (List Artifact)} (h : OnlyFinds P r)
    (hPQ : ∀ a, P a → Q a) : OnlyFinds Q r := fun found hr a ha => hPQ a (h found hr a ha)

@[simp] theorem onlyFinds_error {e : Failure} : OnlyFinds P (.error e) := nofun

@[simp] theorem onlyFinds_ok {found : List Artifact} :
    OnlyFinds P (.ok found) ↔ ∀ a ∈ found, P a := by
  refine ⟨fun h => h found rfl, ?_⟩
  rintro h _ ⟨⟩
  exact h

@[simp] theorem onlyFinds_nil : OnlyFinds P (.ok []) := onlyFinds_ok.mpr (List.forall_mem_nil P)

/-- What is found in two parts is found in one of them. -/
theorem OnlyFinds.append {xs ys : List Artifact} (hx : OnlyFinds P (.ok xs))
    (hy : OnlyFinds P (.ok ys)) : OnlyFinds P (.ok (xs ++ ys)) := by
  rw [onlyFinds_ok] at hx hy ⊢
  intro a ha
  exact (List.mem_append.mp ha).elim (hx a) (hy a)

end OnlyFinds

/-- Whatever is found is among some artifacts and not in flight. -/
def Store.Spares (s : Store) (ids : List ArtifactId) (r : Except Failure (List Artifact)) : Prop :=
  ∀ found, r = .ok found → ∀ a ∈ found, a.id ∈ ids ∧ ¬ s.InFlight a.id

namespace Store

variable {s : Store} {ids ids' : List ArtifactId}

theorem Spares.mono {r : Except Failure (List Artifact)} (h : s.Spares ids r) (hsub : ids ⊆ ids') :
    s.Spares ids' r := OnlyFinds.mono h fun _ ha => ⟨hsub ha.1, ha.2⟩

@[simp] theorem spares_error {e : Failure} : s.Spares ids (.error e) := onlyFinds_error

@[simp] theorem spares_nil : s.Spares ids (.ok []) := onlyFinds_nil

theorem Spares.append {xs ys : List Artifact} (hx : s.Spares ids (.ok xs))
    (hy : s.Spares ids (.ok ys)) : s.Spares ids (.ok (xs ++ ys)) := OnlyFinds.append hx hy

/-- Only candidates that are not in flight are kept. -/
theorem spares_verdict (cs : List Artifact) : s.Spares (cs.map (·.id)) (s.verdict cs) := by
  intro found hfound a ha
  unfold verdict at hfound
  split at hfound
  · cases hfound
  · cases hfound
    obtain ⟨hmem, hidle⟩ := mem_idle.mp ha
    exact ⟨List.mem_map_of_mem hmem, hidle⟩

end Store

/-- Only what the filter was asked about is admitted. -/
theorem map_admitted_subset (candidates returned : List Artifact) :
    (admitted candidates returned).map (·.id) ⊆ candidates.map (·.id) := by
  intro id hid
  obtain ⟨a, ha, rfl⟩ := List.mem_map.mp hid
  simpa using (List.mem_filter.mp (mem_of_mem_distinctOn ha)).2

/-- The artifacts under a key are among those whose events matter. -/
theorem liveUnder_subset (live : LiveOutputs) (key : String) :
    (liveUnder live key).map (·.id) ⊆ liveIds live := by
  intro id hid
  unfold liveUnder at hid
  cases hf : live.find? key with
  | none => simp [hf] at hid
  | some artifacts =>
    rw [hf] at hid
    obtain ⟨a, ha, rfl⟩ := List.mem_map.mp hid
    refine mem_ascending.mpr (List.mem_map_of_mem (List.mem_flatten.mpr ⟨artifacts, ?_, ha⟩))
    exact List.mem_map_of_mem (KeyMap.find?_eq_some.mp hf)

section Truthful

variable {c : Contract} {s : Store} (hc : c.Truthful s)
include hc

/-- Whatever the filter answers, what is left of the candidates is spared. -/
theorem keeps_unneeded_spares (policy : Policy) {notKept : List Artifact} {ids : List ArtifactId}
    (hcover : notKept.map (·.id) ⊆ ids) :
    (unneeded policy (s.eventsOn ids) notKept).Keeps c (s.Spares (notKept.map (·.id))) := by
  unfold unneeded
  split
  · exact Store.spares_nil
  · refine ⟨hc.asksGroups _ _, fun answer _ => ?_⟩
    cases answer with
    | error e => exact Store.spares_error
    | ok returned =>
      have hsub := map_admitted_subset notKept returned
      change Procedure.Keeps c _ (Procedure.noteAll _ >>= fun _ => retainUnused _ _)
      rw [Procedure.keeps_bind, Procedure.keeps_noteAll]
      exact keeps_retainUnused hc.toKnowsExecutions (List.Subset.trans hsub hcover)
        ((Store.spares_verdict _).mono hsub) fun _ _ _ => Store.spares_error

/-- Candidates under one key are live under it and not in flight. -/
theorem keeps_candidatesUnder_spares (live : LiveOutputs) (key : String) (policy : Policy) :
    (candidatesUnder live (s.eventsOn (liveIds live)) key policy).Keeps c
      (s.Spares ((liveUnder live key).map (·.id))) := by
  unfold candidatesUnder
  split
  · exact Store.spares_nil
  · split
    · simp [Procedure.keeps_bind]
    · rename_i notKept hcollect
      have hsub := List.map_subset (·.id) (artifactsToCollect_sublist hcollect).subset
      have hkeeps := keeps_unneeded_spares hc policy
        (List.Subset.trans hsub (liveUnder_subset live key))
      refine Procedure.keeps_mapFailure.mpr (hkeeps.imp fun r hr => ?_)
      cases r with
      | error e => exact Store.spares_error
      | ok found => exact hr.mono hsub

/-- Candidates under several keys are live and not in flight. -/
theorem keeps_candidatesUnderAll_spares (live : LiveOutputs) (entries : List (String × Policy)) :
    (candidatesUnderAll live (s.eventsOn (liveIds live)) entries).Keeps c
      (s.Spares (liveIds live)) := by
  induction entries with
  | nil => exact Store.spares_nil
  | cons entry entries ih =>
    obtain ⟨key, policy⟩ := entry
    refine (keeps_candidatesUnder_spares hc live key policy).bind (fun first hfirst => ?_)
      fun _ _ => Store.spares_error
    refine ih.bind (fun rest hrest => ?_) fun _ _ => Store.spares_error
    exact (hfirst.mono (liveUnder_subset live key)).append hrest

/-- Candidates of a node are not in flight, whatever is answered about live artifacts and by the
filter. -/
theorem keeps_candidates_spares (node : NodeUid) (policies : KeyMap Policy) :
    (candidates node policies).Keeps c
      fun r => ∀ found, r = .ok found → ∀ a ∈ found, ¬ s.InFlight a.id := by
  refine ⟨hc.asksLive _, fun answer _ => ?_⟩
  cases answer with
  | error e => rintro found ⟨⟩
  | ok live =>
    change Procedure.Keeps c _ (if _ then _ else _)
    split
    · simp
    · refine ⟨hc.asksEvents _, fun answer hanswer => ?_⟩
      cases answer with
      | error e => rintro found ⟨⟩
      | ok events =>
        obtain rfl := hc.events hanswer
        refine (keeps_candidatesUnderAll_spares hc live _).bind (fun all hall => ?_) fun e _ => ?_
        · rintro found ⟨⟩ a ha
          exact (hall all rfl a (mem_of_mem_distinctOn ha)).2
        · rintro found ⟨⟩

end Truthful

/-! ## Fixed answers -/

/-- A request that asks and changes nothing. -/
def Request.IsQuery : Request → Prop
  | .liveOutputs _ | .events _ | .executions _ | .unusedInGroups .. => True
  | _ => False

/-- Only queries are made. Live artifacts and the filter are answered by functions, events and
executions as a store holds them. -/
def Contract.queries (s : Store) (live : NodeUid → LiveOutputs) (groups : GroupFilter) :
    Contract where
  asks := Request.IsQuery
  answers
    | .liveOutputs node, answer => answer = .ok (live node)
    | .events ids, answer => answer = .ok (s.eventsOn ids)
    | .executions ids, answer => answer = .ok (s.executionsOf ids)
    | .unusedInGroups usage cs, answer => answer = groups usage cs
    | _, _ => True

/-- Fixed answers are truthful. -/
theorem Contract.queries_truthful (s : Store) (live : NodeUid → LiveOutputs)
    (groups : GroupFilter) : (Contract.queries s live groups).Truthful s where
  asks _ := trivial
  answers h := Except.ok.inj h
  asksLive _ := trivial
  asksEvents _ := trivial
  asksGroups _ _ := trivial
  events h := Except.ok.inj h

namespace Store

/-- What remains of artifacts that a policy does not keep: what the filter lets pass, judged by
the records of the store. -/
def remaining (s : Store) (groups : GroupFilter) (policy : Policy) (notKept : List Artifact) :
    Except Failure (List Artifact) :=
  if notKept = [] then .ok []
  else (groups policy.usage notKept).bind fun returned => s.verdict (admitted notKept returned)

/-- What is selected of the live artifacts under an output key; nothing when its policy cannot be
evaluated. -/
def selectedUnder (s : Store) (groups : GroupFilter) (key : String) (policy : Policy)
    (live : List Artifact) : Except Failure (List Artifact) :=
  match artifactsToCollect policy live with
  | .error _ => .ok []
  | .ok notKept => (s.remaining groups policy notKept).mapError (.outputKey key)

/-- What is selected under some output keys, list by list. -/
def selectedLists (s : Store) (groups : GroupFilter) (live : LiveOutputs)
    (entries : List (String × Policy)) : Except Failure (List (List Artifact)) :=
  entries.mapM fun entry => s.selectedUnder groups entry.1 entry.2 (liveUnder live entry.1)

/-- What is selected of a node, each artifact once, key by key. -/
def selected (s : Store) (groups : GroupFilter) (live : LiveOutputs) (policies : KeyMap Policy) :
    Except Failure (List Artifact) :=
  (s.selectedLists groups live policies.entries).map fun lists => distinctOn (·.id) lists.flatten

variable {s : Store} {groups : GroupFilter} {live : LiveOutputs}

/-- The keys are gone through one after another. -/
theorem selectedLists_cons_of_ok {key : String} {policy : Policy}
    {entries : List (String × Policy)} {first : List Artifact}
    (h : s.selectedUnder groups key policy (liveUnder live key) = .ok first) :
    s.selectedLists groups live ((key, policy) :: entries) =
      (s.selectedLists groups live entries).map (first :: ·) := mapM_cons_of_ok h

/-- The first failure ends the walk through the keys. -/
theorem selectedLists_cons_of_error {key : String} {policy : Policy}
    {entries : List (String × Policy)} {e : Failure}
    (h : s.selectedUnder groups key policy (liveUnder live key) = .error e) :
    s.selectedLists groups live ((key, policy) :: entries) = .error e := mapM_cons_of_error h

/-- Of no artifacts none is selected. -/
@[simp] theorem selectedUnder_nil (key : String) (policy : Policy) :
    s.selectedUnder groups key policy [] = .ok [] := by
  unfold selectedUnder
  cases h : artifactsToCollect policy [] with
  | error e => rfl
  | ok notKept =>
    obtain rfl := List.sublist_nil.mp (artifactsToCollect_sublist h)
    rfl

/-- Without live artifacts under any key, nothing is selected. -/
theorem selected_of_no_live {policies : KeyMap Policy}
    (h : ∀ key ∈ policies.keys, liveUnder live key = []) :
    s.selected groups live policies = .ok [] := by
  have hlists : s.selectedLists groups live policies.entries =
      .ok (policies.entries.map fun _ => []) := by
    rw [selectedLists, mapM_eq_ok, List.forall₂_map_right_iff, List.forall₂_same]
    intro entry hentry
    rw [h entry.1 (List.mem_map_of_mem hentry), selectedUnder_nil]
  have hflat : (policies.entries.map fun _ => ([] : List Artifact)).flatten = [] := by
    simp
  rw [selected, hlists, Except.map, hflat, distinctOn_nil]

variable {policies : KeyMap Policy}

/-- Something is selected of a node when nothing fails under any of its output keys. -/
theorem exists_selected_eq_ok :
    (∃ found, s.selected groups live policies = .ok found) ↔
      ∀ key policy, policies.find? key = some policy →
        ∃ part, s.selectedUnder groups key policy (liveUnder live key) = .ok part := by
  have hentries : (∃ found, s.selected groups live policies = .ok found) ↔
      ∃ lists, s.selectedLists groups live policies.entries = .ok lists := by
    simp only [selected, exceptMap_eq_ok]
    constructor
    · rintro ⟨_, lists, h, _⟩
      exact ⟨lists, h⟩
    · rintro ⟨lists, h⟩
      exact ⟨_, lists, h, rfl⟩
  rw [hentries, selectedLists, exists_mapM_eq_ok]
  constructor
  · intro h key policy hpolicy
    exact h (key, policy) (KeyMap.find?_eq_some.mp hpolicy)
  · rintro h ⟨key, policy⟩ hmem
    exact h key policy (KeyMap.find?_eq_some.mpr hmem)

/-- No artifact is selected twice, and what is selected of a node is selected under some key. -/
theorem ids_of_selected {found : List Artifact} (h : s.selected groups live policies = .ok found) :
    (found.map (·.id)).Nodup ∧ ∀ id, id ∈ found.map (·.id) ↔
      ∃ key policy part, policies.find? key = some policy ∧
        s.selectedUnder groups key policy (liveUnder live key) = .ok part ∧
        id ∈ part.map (·.id) := by
  obtain ⟨lists, hlists, rfl⟩ := exceptMap_eq_ok.mp h
  refine ⟨nodup_map_distinctOn _ _, fun id => ?_⟩
  rw [mem_map_distinctOn, List.map_flatten, List.mem_flatten]
  constructor
  · rintro ⟨_, hids, hid⟩
    obtain ⟨part, hpart, rfl⟩ := List.mem_map.mp hids
    obtain ⟨⟨key, policy⟩, hmem, hunder⟩ := (mem_of_mapM_eq_ok hlists).mp hpart
    exact ⟨key, policy, part, KeyMap.find?_eq_some.mpr hmem, hunder, hid⟩
  · rintro ⟨key, policy, part, hpolicy, hunder, hid⟩
    have hpart : part ∈ lists :=
      (mem_of_mapM_eq_ok hlists).mpr ⟨(key, policy), KeyMap.find?_eq_some.mp hpolicy, hunder⟩
    exact ⟨part.map (·.id), List.mem_map_of_mem hpart, hid⟩

/-- The failure is that of a key with no smaller one that fails. -/
theorem key_of_selected_eq_error {e : Failure} (h : s.selected groups live policies = .error e) :
    ∃ key policy, policies.find? key = some policy ∧
      s.selectedUnder groups key policy (liveUnder live key) = .error e ∧
      ∀ key' policy', policies.find? key' = some policy' → compare key' key = .lt →
        ∃ part, s.selectedUnder groups key' policy' (liveUnder live key') = .ok part := by
  obtain ⟨before, ⟨key, policy⟩, after, hentries, hbefore, hfails⟩ :=
    mapM_eq_error.mp (exceptMap_eq_error.mp h)
  have hpolicy : policies.find? key = some policy := by
    rw [KeyMap.find?_eq_some, hentries]
    exact List.mem_append_right _ List.mem_cons_self
  refine ⟨key, policy, hpolicy, hfails, fun key' policy' hpolicy' hlt => ?_⟩
  exact hbefore _ (KeyMap.mem_before hentries (KeyMap.find?_eq_some.mp hpolicy') hlt)

end Store

section Queries

variable (s : Store) (live : NodeUid → LiveOutputs) (groups : GroupFilter)

/-- With all events on the artifacts that a policy does not keep, the search leaves of them what
remains. -/
theorem keeps_unneeded_queries (policy : Policy) {notKept : List Artifact}
    {ids : List ArtifactId} (hcover : notKept.map (·.id) ⊆ ids) :
    (unneeded policy (s.eventsOn ids) notKept).Keeps (.queries s live groups)
      (· = s.remaining groups policy notKept) := by
  unfold unneeded Store.remaining
  split
  · rfl
  · refine ⟨trivial, ?_⟩
    rintro _ rfl
    cases hreturned : groups policy.usage notKept with
    | error e => rfl
    | ok returned =>
      have hsub := map_admitted_subset notKept returned
      change Procedure.Keeps _ _ (Procedure.noteAll _ >>= fun _ => retainUnused _ _)
      rw [Procedure.keeps_bind, Procedure.keeps_noteAll]
      exact keeps_retainUnused (Contract.queries_truthful s live groups).toKnowsExecutions
        (List.Subset.trans hsub hcover) rfl fun _ _ h => nomatch h

/-- Under one output key the search finds what is selected. -/
theorem keeps_candidatesUnder_queries (node : NodeUid) (key : String) (policy : Policy) :
    (candidatesUnder (live node) (s.eventsOn (liveIds (live node))) key policy).Keeps
      (.queries s live groups)
      (· = s.selectedUnder groups key policy (liveUnder (live node) key)) := by
  unfold candidatesUnder
  split
  · rename_i hempty
    rw [hempty, Store.selectedUnder_nil]
    rfl
  · unfold Store.selectedUnder
    cases hcollect : artifactsToCollect policy (liveUnder (live node) key) with
    | error cause => simp [Procedure.keeps_bind]
    | ok notKept =>
      have hsub := List.map_subset (·.id) (artifactsToCollect_sublist hcollect).subset
      refine Procedure.keeps_mapFailure.mpr ?_
      refine (keeps_unneeded_queries s live groups policy
        (List.Subset.trans hsub (liveUnder_subset (live node) key))).imp ?_
      rintro _ rfl
      rfl

/-- Under several output keys the search finds what is selected under each. -/
theorem keeps_candidatesUnderAll_queries (node : NodeUid) (entries : List (String × Policy)) :
    (candidatesUnderAll (live node) (s.eventsOn (liveIds (live node))) entries).Keeps
      (.queries s live groups)
      (· = (s.selectedLists groups (live node) entries).map List.flatten) := by
  induction entries with
  | nil => rfl
  | cons entry entries ih =>
    obtain ⟨key, policy⟩ := entry
    refine (keeps_candidatesUnder_queries s live groups node key policy).bind
      (fun first hfirst => ?_) fun e he => ?_
    · rw [Store.selectedLists_cons_of_ok hfirst.symm]
      refine ih.bind (fun rest hrest => ?_) fun e he => ?_
      · obtain ⟨lists, hlists, rfl⟩ := exceptMap_eq_ok.mp hrest.symm
        rw [hlists]
        rfl
      · rw [exceptMap_eq_error.mp he.symm]
        rfl
    · rw [Store.selectedLists_cons_of_error he.symm]
      rfl

/-- The search of a node finds what is selected of it. -/
theorem keeps_candidates_queries (node : NodeUid) (policies : KeyMap Policy) :
    (candidates node policies).Keeps (.queries s live groups)
      (· = s.selected groups (live node) policies) := by
  refine ⟨trivial, ?_⟩
  rintro _ rfl
  change Procedure.Keeps _ _ (if _ then _ else _)
  split
  · rename_i hempty
    have hempty : ∀ key ∈ policies.keys, liveUnder (live node) key = [] := by
      simpa using hempty
    rw [Store.selected_of_no_live hempty]
    rfl
  · refine ⟨trivial, ?_⟩
    rintro _ rfl
    unfold Store.selected
    refine (keeps_candidatesUnderAll_queries s live groups node policies.entries).bind
      (fun all hall => ?_) fun e he => ?_
    · obtain ⟨lists, hlists, rfl⟩ := exceptMap_eq_ok.mp hall.symm
      rw [hlists]
      rfl
    · rw [exceptMap_eq_error.mp he.symm]
      rfl

end Queries

end ArtifactGC
