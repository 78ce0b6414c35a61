import ArtifactGC.Proofs.Recording

/-!
# Recovery from a lost pass

A pass that is lost before it records the fates that it settled leaves the records as they were and
a part of the storage. The next pass finds the same candidates and can remove everything that the
lost pass could have removed. `lost_pass_is_recovered` says so, and that passes are lost in no other
way: whenever services break down, or refuse the records, the storage is as after the removal of
some of the candidates, the first ones.
-/

namespace ArtifactGC

/-! ## Runs that are cut off -/

namespace Procedure

variable {σ α β : Type} {services : Services σ} {P : σ → Prop} {s : σ} {p : Procedure α}

/-- A procedure asks only in states with some property, and services break down only into such
states. -/
def AsksIn (services : Services σ) (P : σ → Prop) : Procedure α → σ → Prop
  | .returned _, _ => True
  | .failed _, _ => True
  | .ask request next, s =>
    P s ∧ (∀ s', services.answer request s = (none, s') → P s') ∧
      ∀ answer s', services.answer request s = (some answer, s') →
        (next answer).AsksIn services P s'
  | .note _ rest, s => rest.AsksIn services P s

@[simp] theorem asksIn_returned {a : α} : (returned a).AsksIn services P s := trivial

/-- A request that is answered is asked in its state, and what follows in the next one. -/
theorem asksIn_ask {request : Request} {next : request.Answer → Procedure α}
    {answer : request.Answer} {s' : σ}
    (hanswer : services.answer request s = (some answer, s')) (hs : P s)
    (hnext : (next answer).AsksIn services P s') : (ask request next).AsksIn services P s := by
  refine ⟨hs, fun s'' h => ?_, fun answer' s'' h => ?_⟩
  · rw [hanswer] at h
    cases h
  · rw [hanswer] at h
    cases h
    exact hnext

/-- Two steps in sequence ask where the first one asks and where the second one asks after the
result of the first. -/
theorem asksIn_bind {f : α → Procedure β} (hp : p.AsksIn services P s)
    (hf : ∀ a s', (p.run services s).Ends (.returned a) s' → (f a).AsksIn services P s') :
    (p >>= f).AsksIn services P s := by
  induction p generalizing s with
  | returned a => exact hf a s ends_returned
  | failed e => trivial
  | note entry rest ih => exact ih hp fun a s' h => hf a s' (ends_note h)
  | ask request next ih =>
    obtain ⟨hs, hnone, hsome⟩ := hp
    refine ⟨hs, hnone, fun answer s' hanswer => ih answer (hsome answer s' hanswer) ?_⟩
    exact fun a s'' h => hf a s'' (ends_ask hanswer h)

/-- Going on with a failure asks nothing more. -/
theorem asksIn_attempt (hp : p.AsksIn services P s) : p.attempt.AsksIn services P s := by
  induction p generalizing s with
  | returned a => trivial
  | failed e => trivial
  | note entry rest ih => exact ih hp
  | ask request next ih =>
    obtain ⟨hs, hnone, hsome⟩ := hp
    exact ⟨hs, hnone, fun answer s' hanswer => ih answer (hsome answer s' hanswer)⟩

/-- Under a contract with an invariant all requests are asked inside the invariant. -/
theorem Keeps.asksIn {c : Contract} {post : Except Failure α → Prop} {inv : σ → Prop}
    (h : p.Keeps c post) (hs : services.Honours c inv) (hP : ∀ s, inv s → P s) (hi : inv s) :
    p.AsksIn services P s := by
  induction p generalizing s with
  | returned a => trivial
  | failed e => trivial
  | note entry rest ih => exact ih h hi
  | ask request next ih =>
    obtain ⟨hask, hnext⟩ := h
    have hkept := hs.keeps hi hask
    refine ⟨hP s hi, fun s' hanswer => ?_, fun answer s' hanswer => ?_⟩
    · rw [hanswer] at hkept
      exact hP s' hkept
    · rw [hanswer] at hkept
      exact ih answer (hnext answer (hs.answers hi hask (by rw [hanswer]))) hkept

/-- Wherever services break down, they do so in a state in which the procedure asks. -/
theorem AsksIn.crashed (h : p.AsksIn services P s) {n : Nat}
    (hcrash : (p.run services.untilBreakdown (s, n)).ending = .crashed) :
    P (p.run services.untilBreakdown (s, n)).state.1 := by
  induction p generalizing s n with
  | returned a => cases hcrash
  | failed e => cases hcrash
  | note entry rest ih => exact ih h hcrash
  | ask request next ih =>
    obtain ⟨hs, hnone, hsome⟩ := h
    cases n with
    | zero =>
      rw [run]
      exact hs
    | succ n =>
      have hstep : services.untilBreakdown.answer request (s, n + 1) =
        (services.answer request s).map id (·, n) := rfl
      rw [run, hstep] at hcrash ⊢
      rcases hanswer : services.answer request s with ⟨_ | answer, s'⟩
      · exact hnone s' hanswer
      · rw [hanswer] at hcrash
        exact ih answer (hsome answer s' hanswer) hcrash

end Procedure

/-! ## Where a pass asks -/

section Lost

variable {c : Conditions} {P : Memory → Prop} (store : Store) (s : Storage)

/-- A removal asks before it is carried out. -/
theorem asksIn_removeFromStorage {uri : String} (h : P ⟨store, s⟩) :
    (removeFromStorage uri).AsksIn (Memory.services c) P ⟨store, s⟩ := by
  have hanswer : (Memory.services c).answer (.isDirectory uri) ⟨store, s⟩ =
      (some (s.isDirectory uri), ⟨store, s⟩) := rfl
  refine Procedure.asksIn_ask hanswer h ?_
  cases s.isDirectory uri with
  | error e => exact Procedure.asksIn_returned
  | ok directory =>
    cases directory with
    | true => exact Procedure.asksIn_ask rfl h Procedure.asksIn_returned
    | false => exact Procedure.asksIn_ask rfl h Procedure.asksIn_returned

/-- To settle a fate is to ask before and after the removal. -/
theorem asksIn_settle {a : Artifact} (hbefore : P ⟨store, s⟩) (hafter : P ⟨store, (s.settle a).2⟩) :
    (settle a).AsksIn (Memory.services c) P ⟨store, s⟩ := by
  unfold settle
  unfold Storage.settle at hafter
  split
  · exact Procedure.asksIn_returned
  · rename_i hexternal
    rw [if_neg hexternal] at hafter
    refine Procedure.asksIn_bind (asksIn_removeFromStorage store s hbefore) fun answer m hends => ?_
    have hstate : m = ⟨store, (s.clear a.uri).2⟩ :=
      hends.state.symm.trans (ends_removeFromStorage store s a.uri).state
    subst hstate
    cases answer with
    | ok _ => exact Procedure.asksIn_returned
    | error e =>
      refine Procedure.asksIn_ask rfl hafter ?_
      dsimp only [Prod.map, Memory.storageService]
      rcases (s.clear a.uri).2.isPresent a.uri with e | _ | _
      · trivial
      · trivial
      · trivial

/-- To settle several fates is to ask after the removal of the first of them. -/
theorem asksIn_settleAll {as : List Artifact}
    (h : ∀ done, done <+: as → P ⟨store, (s.settleAll done).2⟩) :
    (settleAll as).AsksIn (Memory.services c) P ⟨store, s⟩ := by
  induction as generalizing s with
  | nil => exact Procedure.asksIn_returned
  | cons a as ih =>
    refine Procedure.asksIn_bind (asksIn_settle store s (h [] List.nil_prefix)
      (h [a] ((List.prefix_cons_inj a).mpr List.nil_prefix))) fun fate m hends => ?_
    have hstate : m = ⟨store, (s.settle a).2⟩ :=
      hends.state.symm.trans (ends_settle store s a).state
    subst hstate
    refine Procedure.asksIn_bind (ih _ fun done hdone => ?_) fun _ _ _ => Procedure.asksIn_returned
    exact h (a :: done) ((List.prefix_cons_inj a).mpr hdone)

/-- A purge asks after the removal of the first of its artifacts. -/
theorem asksIn_purge {as : List Artifact} (hlive : ∀ a ∈ as, a.isLive = true)
    (h : ∀ done, done <+: as → P ⟨store, (s.settleAll done).2⟩) :
    (purge as).AsksIn (Memory.services .normal) P ⟨store, s⟩ := by
  unfold purge
  rw [List.filter_eq_self.mpr hlive]
  refine Procedure.asksIn_bind (asksIn_settleAll store s h) fun settled m hends => ?_
  have hstate : m = ⟨store, (s.settleAll as).2⟩ :=
    hends.state.symm.trans (ends_settleAll store s as).state
  subst hstate
  change (if changedRecords settled = [] then _ else _ : Procedure PurgeReport).AsksIn _ _ _
  split
  · exact Procedure.asksIn_returned
  · exact Procedure.asksIn_ask rfl (h as (List.prefix_refl as)) Procedure.asksIn_returned

end Lost

section Passes

variable {uid : NodeUid} {node : NodeSpec} {m : Memory} {found : List Artifact}

/-- A pass that finds some candidates asks only after the removal of the first of them. -/
theorem asksIn_pass {P : Memory → Prop} (hid : uid.nodeId = node.id)
    (hpolicies : node.policies.isEmpty = false)
    (hselected : m.store.selected .passThrough (m.store.liveOutputs uid) node.policies =
      .ok found)
    (h : ∀ done, done <+: found → P ⟨m.store, (m.storage.settleAll done).2⟩) :
    (pass uid node).AsksIn (Memory.services .normal) P m := by
  have hsearch := keeps_candidates_queries m.store (Conditions.normal.live m.store)
    Conditions.normal.groups uid node.policies
  rw [pass_eq hid hpolicies]
  refine Procedure.asksIn_bind (Procedure.asksIn_attempt (Procedure.asksIn_bind ?_ ?_)) ?_
  · refine hsearch.asksIn (services_honours_queries Conditions.normal_answersQueries m) ?_ rfl
    rintro _ rfl
    exact h [] List.nil_prefix
  · intro candidates m' hends
    obtain ⟨hsearched, _⟩ := ends_of_keeps_queries Conditions.normal_answersQueries hsearch
    have hstate : m' = m := hends.state.symm.trans hsearched.state
    have hfound : Ending.returned candidates = .returned found := by
      rw [← hends.ending, hsearched.ending]
      exact congrArg Ending.ofExcept hselected
    cases hfound
    subst hstate
    refine asksIn_purge m'.store m'.storage (fun a ha => ?_) h
    have hlive := (Store.live?_eq_some.mp (Store.live?_of_selected hselected ha)).2
    simp [Artifact.isLive, hlive]
  · intro r m' _
    cases r with
    | ok report => trivial
    | error e => trivial

end Passes

/-! ## Retrying -/

/-- What is marked in a storage is also marked in a part of it. -/
theorem marked_subset {rest s : Storage} (h : rest.LeftOf s) (hchecks : s.uncheckableUris = [])
    (as : List Artifact) :
    (reportOf (s.settleAll as).1).marked ⊆ (reportOf (rest.settleAll as).1).marked := by
  intro id hid
  obtain ⟨a, fate, hmem, hfate, rfl⟩ := mem_marked_reportOf.mp hid
  obtain ⟨fate', hmem', hfate'⟩ := h.fates hchecks hmem hfate
  exact mem_marked_reportOf.mpr ⟨a, fate', hmem', hfate', rfl⟩

/-- The store refuses records for a reason and works otherwise. -/
def Conditions.refusingRecords (reason : String) : Conditions where
  fault
    | .put => some (.refuses reason)
    | _ => none
  liveOverride := none
  groups := .passThrough

theorem Conditions.refusingRecords_answersQueries (reason : String) :
    (Conditions.refusingRecords reason).AnswersQueries := by
  intro operation hne
  cases operation with
  | put => exact absurd rfl hne
  | liveOutputs | events | executions => rfl

section Recovery

variable {uid : NodeUid} {node : NodeSpec} {m : Memory} {found : List Artifact}

/-- A pass whose records are refused leaves the storage as after all removals. -/
theorem ends_pass_of_refused (hid : uid.nodeId = node.id) (hpolicies : node.policies.isEmpty = false)
    (hselected : m.store.selected .passThrough (m.store.liveOutputs uid) node.policies =
      .ok found) (hmarked : (reportOf (m.storage.settleAll found).1).marked ≠ []) (reason : String) :
    ((pass uid node).run (Memory.services (.refusingRecords reason)) m).Ends
      (.returned (.aborted .store (StoreError.unavailable reason).message))
      ⟨m.store, (m.storage.settleAll found).2⟩ := by
  have hchanged : changedRecords (m.storage.settleAll found).1 ≠ [] := by
    obtain ⟨id, hid⟩ := List.exists_mem_of_ne_nil _ hmarked
    have hmem := map_id_changedRecords.mpr hid
    intro hnil
    rw [hnil] at hmem
    cases hmem
  have hlive (a : Artifact) (ha : a ∈ found) : a.isLive = true := by
    have hstate := (Store.live?_eq_some.mp (Store.live?_of_selected hselected ha)).2
    simp [Artifact.isLive, hstate]
  have hpurge := ends_purge_of_refused (c := .refusingRecords reason) m.store m.storage rfl hlive
    hchanged
  exact ends_pass_of_selected (r := .error _) (Conditions.refusingRecords_answersQueries reason)
    hid hpolicies hselected hpurge

/-- A pass over a part of the storage marks at least what a pass over all of it marks. -/
theorem ends_pass_of_leftOf (hid : uid.nodeId = node.id)
    (hpolicies : node.policies.isEmpty = false) (hchecks : m.storage.uncheckableUris = [])
    (hselected : m.store.selected .passThrough (m.store.liveOutputs uid) node.policies =
      .ok found) {rest : Storage} (hrest : rest.LeftOf m.storage) :
    ∃ report lost, ((pass uid node).run (Memory.services .normal) ⟨m.store, rest⟩).Ends
      (.returned (.collected report)) lost ∧
      (reportOf (m.storage.settleAll found).1).marked ⊆ report.marked ∧
      ∀ id, (m.store.record (m.storage.settleAll found).1).IsDeleted id →
        lost.store.IsDeleted id := by
  have hends := ends_pass_normal (m := ⟨m.store, rest⟩) hid hpolicies hselected
  have hmarked := marked_subset hrest hchecks found
  refine ⟨_, _, hends, hmarked, fun id hdeleted => ?_⟩
  rw [Store.isDeleted_record] at hdeleted ⊢
  exact hdeleted.imp_left fun hmem => hmarked hmem

end Recovery

/-- Let every location be checkable for presence, and let a plan list what a pass would delete.
However far a pass has removed the listed artifacts before it is lost without a record, another pass
collects, and it marks, and leaves deleted, everything that one pass from the start would have. A
pass is lost in this way whenever the services break down during it, and when the store refuses
the records, which aborts it. -/
theorem lost_pass_is_recovered (uid : NodeUid) (node : NodeSpec) (m : Memory)
    (found : List Artifact) (hpolicies : node.policies.isEmpty = false)
    (hchecks : m.storage.uncheckableUris = [])
    (hplan : ((plan uid node).run (Memory.services .normal) m).ending = .returned found) :
    let whole := (pass uid node).run (Memory.services .normal) m
    let lost (done : List Artifact) := ((settleAll done).run (Memory.services .normal) m).state
    ∃ report, whole.ending = .returned (.collected report) ∧
      (∀ done, done <+: found →
        let retried := (pass uid node).run (Memory.services .normal) (lost done)
        ∃ again, retried.ending = .returned (.collected again) ∧
          (∀ id ∈ report.deleted ++ report.markedExternal,
            id ∈ again.deleted ++ again.markedExternal) ∧
          ∀ id, whole.state.store.IsDeleted id → retried.state.store.IsDeleted id) ∧
      (∀ n, let broken := (pass uid node).run (Memory.services .normal).untilBreakdown (m, n)
        broken.ending = .crashed → ∃ done, done <+: found ∧ broken.state.1 = lost done) ∧
      ∀ reason, report.deleted ++ report.markedExternal ≠ [] →
        let refused := (pass uid node).run (Memory.services (.refusingRecords reason)) m
        refused.ending =
            .returned (.aborted .store (StoreError.unavailable reason).message) ∧
          refused.state = lost found := by
  intro whole lost
  obtain ⟨hid, hselected⟩ := selected_of_plan hplan
  have hwhole := ends_pass_normal hid hpolicies hselected
  have hlost (done : List Artifact) : lost done = ⟨m.store, (m.storage.settleAll done).2⟩ :=
    (ends_settleAll m.store m.storage done).state
  refine ⟨_, hwhole.ending, fun done _ => ?_, fun n hcrash => ?_, fun reason hmarked => ?_⟩
  · obtain ⟨again, last, hretried, hsubset, hdeleted⟩ := ends_pass_of_leftOf hid hpolicies hchecks
      hselected (Storage.leftOf_settleAll m.storage done)
    rw [hlost done]
    refine ⟨again, hretried.ending, hsubset, fun id hid => ?_⟩
    rw [hretried.state]
    have hstate : whole.state = _ := hwhole.state
    rw [hstate] at hid
    exact hdeleted id hid
  · have hasks : (pass uid node).AsksIn (Memory.services .normal)
        (fun m' => ∃ done, done <+: found ∧ m' = lost done) m :=
      asksIn_pass hid hpolicies hselected fun done hdone => ⟨done, hdone, (hlost done).symm⟩
    exact hasks.crashed hcrash
  · have hrefused := ends_pass_of_refused hid hpolicies hselected hmarked reason
    exact ⟨hrefused.ending, hrefused.state.trans (hlost found).symm⟩

/-- A pass is lost after it has removed a directory around a protected file; the next pass marks
the directory and, as the file is gone, the file as well. -/
theorem lost_directory_is_recovered :
    let storage : Storage := ((Storage.empty.addDirectory "/a").addFile "/a/b").protect "/a/b"
    let m : Memory := ⟨.ofModels [model 1 "/a/b", model 2 "/a", model 3 "/c"], storage⟩
    let spec := trainerSpec (.ofRecency 1)
    let found := [model 1 "/a/b", model 2 "/a"]
    let lost := ((settleAll found).run (Memory.services .normal) m).state
    let retried := (pass trainer spec).run (Memory.services .normal) lost
    spec.policies.isEmpty = false ∧ storage.uncheckableUris = [] ∧
      ((plan trainer spec).run (Memory.services .normal) m).ending = .returned found ∧
      ((pass trainer spec).run (Memory.services .normal) m).ending =
        .returned (.collected ⟨[⟨2⟩], [], [⟨1⟩]⟩) ∧
      retried.ending = .returned (.collected ⟨[⟨1⟩, ⟨2⟩], [], []⟩) ∧
      (∀ id ∈ [(⟨1⟩ : ArtifactId), ⟨2⟩], retried.state.store.IsDeleted id) ∧
      ∃ again, retried.ending = .returned (.collected again) ∧
        ∀ id ∈ [(⟨2⟩ : ArtifactId)] ++ [], id ∈ again.deleted ++ again.markedExternal := by
  intro storage m spec found lost retried
  have hpolicies : spec.policies.isEmpty = false := by decide +kernel
  have hplan : ((plan trainer spec).run (Memory.services .normal) m).ending = .returned found := by
    decide +kernel
  have hwhole : ((pass trainer spec).run (Memory.services .normal) m).ending =
      .returned (.collected ⟨[⟨2⟩], [], [⟨1⟩]⟩) := by decide +kernel
  obtain ⟨report, hreport, hretried, _⟩ :=
    lost_pass_is_recovered trainer spec m found hpolicies rfl hplan
  rw [hwhole] at hreport
  cases hreport
  obtain ⟨again, hagain, hmarked, _⟩ := hretried found (List.prefix_refl found)
  exact ⟨hpolicies, rfl, hplan, hwhole, by decide +kernel, by decide +kernel, again, hagain,
    hmarked⟩

end ArtifactGC
