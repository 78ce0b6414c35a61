import ArtifactGC.Proofs.Batches
import ArtifactGC.Proofs.Interleaving

/-!
# Passes that come to nothing

Passes of several nodes share their services, and each may find what the others have left so far. A
pass that is refused, has no policy, or is given up or lost before it has used storage leaves
nothing behind, however its requests fall between those of the others, whatever goes wrong with the
store and whatever the filter answers. So it may as well not be asked for:
`idle_passes_disturb_no_others` says that the other passes, when they take their turns without it,
exchange and end as they do with it.
-/

namespace ArtifactGC

/-! ## Exchanges that leave the memory alone -/

/-- Neither is storage used nor are records written. -/
structure Exchange.Idle (x : Exchange) : Prop where
  /-- Storage is not used. -/
  unused : x.request.location? = none
  /-- No records are written. -/
  unwritten : ∀ batch, x ≠ ⟨.put batch, some (.ok ())⟩

section Idle

variable {c : Conditions} {m : Memory}

/-- An idle exchange leaves the memory as it is. -/
theorem Exchange.Idle.state_eq {x : Exchange} (h : x.Idle)
    (hanswer : ((Memory.services c).answer x.request m).1 = x.answer) :
    ((Memory.services c).answer x.request m).2 = m := by
  obtain ⟨request, answer⟩ := x
  cases request with
  | liveOutputs node => exact Memory.underFault_unchanged _ _ _
  | events ids => exact Memory.underFault_unchanged _ _ _
  | executions ids => exact Memory.underFault_unchanged _ _ _
  | unusedInGroups usage cs => rfl
  | put batch =>
    rcases Memory.underFault_change (c.fault .put) m { m with store := m.store.put batch } with
      ⟨hdone, _⟩ | ⟨_, hstate⟩
    · obtain rfl : answer = some (.ok ()) := hanswer.symm.trans hdone
      exact absurd rfl (h.unwritten batch)
    · exact hstate
  | isDirectory uri | isPresent uri | remove uri | removeRecursive uri => cases h.unused

/-- Idle exchanges leave the memory as it is. -/
theorem replay_of_idle {exchanges : List Exchange}
    (hanswers : (Memory.services c).Answers m exchanges) (hidle : ∀ x ∈ exchanges, x.Idle) :
    (Memory.services c).replay m exchanges = m := by
  induction exchanges with
  | nil => rfl
  | cons x exchanges ih =>
    obtain ⟨hx, hothers⟩ := List.forall_mem_cons.mp hidle
    obtain ⟨hanswer, hrest⟩ := hanswers
    have hsame := hx.state_eq hanswer
    rw [hsame] at hrest
    change (Memory.services c).replay ((Memory.services c).answer x.request m).2 exchanges = m
    rw [hsame]
    exact ih hrest hothers

end Idle

/-! ## Passes that leave the memory alone -/

/-- The pass at a place comes to nothing before it has used storage. -/
inductive Passes.ComesToNothing {σ : Type} (all : Passes σ) (i : Nat) : Prop where
  /-- The pass is refused because it is not that of the declared node. -/
  | refused (uid : NodeUid) (declared requested : String)
      (result : all.results[i]? = some (uid, .error (.nodeMismatch declared requested)))
  /-- No output key has a policy. -/
  | noPolicy (uid : NodeUid) (result : all.results[i]? = some (uid, .ok .noPolicy))
  /-- The pass is given up. -/
  | givenUp (uid : NodeUid) (kind : FailureKind) (message : String)
      (result : all.results[i]? = some (uid, .ok (.aborted kind message)))
      (unused : ∀ x ∈ exchangesOf i all.exchanges, x.request.location? = none)
  /-- The pass is lost because the services break down. -/
  | lost (uid : NodeUid) (result : all.results[i]? = some (uid, .error .taskFailed))
      (unused : ∀ x ∈ exchangesOf i all.exchanges, x.request.location? = none)

section Nothing

variable {uid : NodeUid} {node : NodeSpec} {exchanges : List Exchange} {how : Ending Outcome}

/-- A pass without a report writes nothing. -/
theorem unwritten_of_yields_pass (h : (pass uid node).Yields exchanges how)
    (hnot : ∀ report, how.toResult ≠ .ok (.collected report)) (batch : List Artifact) :
    ⟨.put batch, some (.ok ())⟩ ∉ exchanges := by
  intro hmem
  obtain ⟨before, later, rfl⟩ := List.append_of_mem hmem
  obtain ⟨_, report, rfl, _⟩ := ends_with_batch h
  exact hnot report rfl

/-- A pass that is refused or has no policy exchanges nothing. -/
theorem exchanges_eq_nil_of_yields_pass (h : (pass uid node).Yields exchanges how)
    (hresult : (∃ declared requested, how.toResult = .error (.nodeMismatch declared requested)) ∨
      how.toResult = .ok .noPolicy) : exchanges = [] := by
  rcases yields_pass h with ⟨hnil, _⟩ | ⟨purged, _, rfl⟩
  · exact hnil
  · rcases hresult with ⟨declared, requested, hrefused⟩ | hnone
    · cases purged <;> cases hrefused
    · cases purged <;> cases hnone

/-- A pass that comes to nothing has only idle exchanges. -/
theorem Passes.ComesToNothing.idle {σ : Type} {services : Services σ}
    {nodes : List (NodeUid × NodeSpec)} {s : σ} {all : Passes σ} {i : Nat}
    (h : all.ComesToNothing i) (hall : all.Interleaves services nodes s) :
    ∀ x ∈ exchangesOf i all.exchanges, x.Idle := by
  have hidle {uid : NodeUid} {result : Except Failure Outcome}
      (hresult : all.results[i]? = some (uid, result))
      (hnot : ∀ report, result ≠ .ok (.collected report))
      (hunused : ∀ x ∈ exchangesOf i all.exchanges, x.request.location? = none) :
      ∀ x ∈ exchangesOf i all.exchanges, x.Idle := by
    obtain ⟨node, how, hyields, rfl⟩ := hall.of_result hresult
    intro x hx
    refine ⟨hunused x hx, ?_⟩
    rintro batch rfl
    exact unwritten_of_yields_pass hyields hnot batch hx
  have hnil {uid : NodeUid} {result : Except Failure Outcome}
      (hresult : all.results[i]? = some (uid, result))
      (hends : (∃ declared requested, result = .error (.nodeMismatch declared requested)) ∨
        result = .ok .noPolicy) : ∀ x ∈ exchangesOf i all.exchanges, x.Idle := by
    obtain ⟨node, how, hyields, rfl⟩ := hall.of_result hresult
    rw [exchanges_eq_nil_of_yields_pass hyields hends]
    nofun
  cases h with
  | refused uid declared requested result => exact hnil result (.inl ⟨_, _, rfl⟩)
  | noPolicy uid result => exact hnil result (.inr rfl)
  | givenUp uid kind message result unused => exact hidle result nofun unused
  | lost uid result unused => exact hidle result nofun unused

end Nothing

/-! ## One pass left out -/

/-- The place that another pass has when the pass at a place is left out. -/
def placeWithout (i j : Nat) : Nat := if i < j then j - 1 else j

/-- The schedule in which a pass is left out and the others take their turns. -/
def withoutPass (i : Nat) (schedule : List Turn) : List Turn :=
  schedule.filterMap fun
    | .pass j => if j = i then none else some (.pass (placeWithout i j))
    | .caller => some .caller

/-- The exchanges of all passes but one. -/
def exchangesWithout (i : Nat) (exchanges : List (Nat × Exchange)) : List (Nat × Exchange) :=
  (exchanges.filter (·.1 ≠ i)).map fun x => (placeWithout i x.1, x.2)

section Places

variable {i j : Nat}

theorem exchangesWithout_append (exchanges later : List (Nat × Exchange)) :
    exchangesWithout i (exchanges ++ later) =
      exchangesWithout i exchanges ++ exchangesWithout i later := by
  simp [exchangesWithout]

theorem exchangesWithout_map_self (xs : List Exchange) :
    exchangesWithout i (xs.map (i, ·)) = [] := by
  simp [exchangesWithout]

theorem exchangesWithout_map_of_ne (h : j ≠ i) (xs : List Exchange) :
    exchangesWithout i (xs.map (j, ·)) = xs.map (placeWithout i j, ·) := by
  simp [exchangesWithout, List.filter_map, Function.comp_def, h]

/-- Every other element is found at its new place. -/
theorem getElem?_placeWithout {α : Type} (xs : List α) (h : j ≠ i) :
    (xs.eraseIdx i)[placeWithout i j]? = xs[j]? := by
  unfold placeWithout
  split
  · rw [List.getElem?_eraseIdx_of_ge (by omega), Nat.sub_add_cancel (by omega)]
  · exact List.getElem?_eraseIdx_of_lt (by omega)

/-- Every other element is replaced at its new place. -/
theorem eraseIdx_set_placeWithout {α : Type} (xs : List α) (h : j ≠ i) (x : α) :
    (xs.set j x).eraseIdx i = (xs.eraseIdx i).set (placeWithout i j) x := by
  unfold placeWithout
  split
  · exact List.eraseIdx_set_lt ‹_›
  · exact List.eraseIdx_set_gt (by omega)

/-- The places that are left are those of the list that is left. -/
theorem map_placeWithout_range {α : Type} (xs : List α) (i : Nat) :
    ((List.range xs.length).filter (· ≠ i)).map (placeWithout i) =
      List.range (xs.eraseIdx i).length := by
  have hrange (n : Nat) : ((List.range n).filter (· ≠ i)).map (placeWithout i) =
      List.range (if i < n then n - 1 else n) := by
    induction n with
    | zero => simp
    | succ n ih =>
      rw [List.range_succ, List.filter_append, List.map_append, ih]
      rcases Nat.lt_trichotomy i n with hlt | rfl | hgt
      · obtain ⟨k, rfl⟩ : ∃ k, n = k + 1 := ⟨n - 1, by omega⟩
        have hne : k + 1 ≠ i := by omega
        have hplace : placeWithout i (k + 1) = k := if_pos hlt
        simp [hlt, hne, hplace, Nat.lt_succ_of_lt hlt, List.range_succ]
      · simp
      · have hne : n ≠ i := by omega
        have hplace : placeWithout i n = n := if_neg (by omega)
        have hnot : ¬ i < n := by omega
        have hnot' : ¬ i < n + 1 := by omega
        simp [hne, hplace, hnot, hnot', List.range_succ]
  rw [hrange, List.length_eraseIdx]

end Places

section Omission

variable {c : Conditions} {i : Nat} {all others : Progress Memory}

/-- The second passes have come as far as the first ones, but for the pass at a place, which is
not among them. -/
structure Progress.Without (i : Nat) (all others : Progress Memory) : Prop where
  /-- The same is left of every other pass. -/
  tasks : others.tasks = all.tasks.eraseIdx i
  /-- The memory is the same. -/
  state : others.state = all.state
  /-- The same was exchanged by every other pass. -/
  exchanges : others.exchanges = exchangesWithout i all.exchanges

theorem Progress.without_start (i : Nat) (nodes : List (NodeUid × NodeSpec)) (m : Memory) :
    Progress.Without i (.start nodes m) (.start (nodes.eraseIdx i) m) :=
  ⟨(List.eraseIdx_map _ _ _).symm, rfl, rfl⟩

/-- Another pass does its part in both. -/
theorem Progress.Without.advance (h : Progress.Without i all others)
    (part : Procedure Outcome → Memory → Part Memory Outcome) {j : Nat} (hne : j ≠ i) :
    Progress.Without i (all.advance part j) (others.advance part (placeWithout i j)) := by
  have hplace := getElem?_placeWithout all.tasks hne
  unfold Progress.advance
  rw [h.tasks, hplace, h.state]
  cases all.tasks[j]? with
  | none => exact h
  | some entry =>
    refine ⟨(eraseIdx_set_placeWithout _ hne _).symm, rfl, ?_⟩
    dsimp only
    rw [h.exchanges, exchangesWithout_append, exchangesWithout_map_of_ne hne]

/-- The pass that is not among the others does an idle part. -/
theorem Progress.Without.advance_self {part : Procedure Outcome → Memory → Part Memory Outcome}
    (h : Progress.Without i all others) (hpart : (Memory.services c).Does part)
    (hidle : ∀ x ∈ exchangesOf i (all.advance part i).exchanges, x.Idle) :
    Progress.Without i (all.advance part i) others := by
  unfold Progress.advance at hidle ⊢
  cases htask : all.tasks[i]? with
  | none => exact h
  | some entry =>
    obtain ⟨uid, task⟩ := entry
    rw [htask] at hidle
    dsimp only at hidle
    rw [exchangesOf_append, exchangesOf_map_self] at hidle
    have hsame : (part task all.state).state = all.state := by
      rw [← hpart.state]
      exact replay_of_idle (hpart.answers _ _) fun x hx => hidle x (List.mem_append_right _ hx)
    refine ⟨?_, h.state.trans hsame.symm, ?_⟩
    · exact h.tasks.trans List.eraseIdx_set_eq.symm
    · dsimp only
      rw [exchangesWithout_append, exchangesWithout_map_self, List.append_nil, h.exchanges]

/-- What the callers do makes no difference. -/
theorem Progress.Without.await (h : Progress.Without i all others) :
    Progress.Without i all.await others.await := by
  obtain ⟨awaited, log, hall⟩ := all.await_eq
  obtain ⟨awaited', log', hothers⟩ := others.await_eq
  rw [hall, hothers]
  exact ⟨h.tasks, h.state, h.exchanges⟩

/-! What was exchanged stays exchanged. -/

theorem Progress.exchanges_advance_prefix {σ : Type}
    (part : Procedure Outcome → σ → Part σ Outcome) (progress : Progress σ) (j : Nat) :
    progress.exchanges <+: (progress.advance part j).exchanges := by
  unfold Progress.advance
  split
  · exact List.prefix_rfl
  · exact List.prefix_append _ _

theorem Progress.exchanges_turn_prefix {σ : Type} (services : Services σ) (progress : Progress σ)
    (turn : Turn) : progress.exchanges <+: (progress.turn services turn).exchanges := by
  cases turn with
  | pass j => exact progress.exchanges_advance_prefix _ j
  | caller =>
    obtain ⟨awaited, log, hawait⟩ := progress.await_eq
    rw [Progress.turn, hawait]

theorem Progress.exchanges_foldl_prefix {σ τ : Type} {f : Progress σ → τ → Progress σ}
    (hf : ∀ progress t, progress.exchanges <+: (f progress t).exchanges) (ts : List τ)
    (progress : Progress σ) : progress.exchanges <+: (ts.foldl f progress).exchanges := by
  induction ts generalizing progress with
  | nil => exact List.prefix_rfl
  | cons t ts ih => exact (hf progress t).trans (ih _)

/-- What has come later includes what came before. -/
theorem idle_of_prefix {exchanges later : List (Nat × Exchange)} (h : exchanges <+: later)
    (hidle : ∀ x ∈ exchangesOf i later, x.Idle) : ∀ x ∈ exchangesOf i exchanges, x.Idle :=
  fun x hx => hidle x (mem_exchangesOf.mpr (h.subset (mem_exchangesOf.mp hx)))

/-- Passes take their turns with and without an idle one. -/
theorem Progress.Without.turns (h : Progress.Without i all others) (schedule : List Turn)
    (hidle : ∀ x ∈ exchangesOf i
      (schedule.foldl (Progress.turn (Memory.services c)) all).exchanges, x.Idle) :
    Progress.Without i (schedule.foldl (Progress.turn (Memory.services c)) all)
      ((withoutPass i schedule).foldl (Progress.turn (Memory.services c)) others) := by
  induction schedule generalizing all others with
  | nil => exact h
  | cons turn schedule ih =>
    have hfirst := idle_of_prefix (Progress.exchanges_foldl_prefix
      (Progress.exchanges_turn_prefix (Memory.services c)) schedule _) hidle
    cases turn with
    | caller => exact ih h.await hidle
    | pass j =>
      by_cases hj : j = i
      · subst hj
        have hwithout : withoutPass j (.pass j :: schedule) = withoutPass j schedule := by
          simp [withoutPass]
        rw [hwithout]
        exact ih (h.advance_self (does_step _) hfirst) hidle
      · have hwithout : withoutPass i (.pass j :: schedule) =
            .pass (placeWithout i j) :: withoutPass i schedule := by
          simp [withoutPass, hj]
        rw [hwithout]
        exact ih (h.advance _ hj) hidle

/-- Passes are finished one after another with and without an idle one. -/
theorem Progress.Without.finish (h : Progress.Without i all others)
    (hidle : ∀ x ∈ exchangesOf i (all.finish (Memory.services c)).exchanges, x.Idle) :
    Progress.Without i (all.finish (Memory.services c)) (others.finish (Memory.services c)) := by
  have hfold (places : List Nat) {all others : Progress Memory} (h : Progress.Without i all others)
      (hidle : ∀ x ∈ exchangesOf i (places.foldl
        (Progress.advance (Procedure.finish (Memory.services c))) all).exchanges, x.Idle) :
      Progress.Without i
        (places.foldl (Progress.advance (Procedure.finish (Memory.services c))) all)
        (((places.filter (· ≠ i)).map (placeWithout i)).foldl
          (Progress.advance (Procedure.finish (Memory.services c))) others) := by
    induction places generalizing all others with
    | nil => exact h
    | cons j places ih =>
      have hfirst := idle_of_prefix (Progress.exchanges_foldl_prefix
        (Progress.exchanges_advance_prefix _) places _) hidle
      by_cases hj : j = i
      · subst hj
        simp only [ne_eq, not_true_eq_false, decide_false, Bool.false_eq_true,
          not_false_eq_true, List.filter_cons_of_neg]
        exact ih (h.advance_self (does_finish _) hfirst) hidle
      · simp only [ne_eq, hj, not_false_eq_true, decide_true, List.filter_cons_of_pos,
          List.map_cons]
        exact ih (h.advance _ hj) hidle
  have hplaces := map_placeWithout_range all.tasks i
  unfold Progress.finish
  rw [h.tasks, ← hplaces]
  exact hfold _ h hidle

end Omission

/-- Where all have a result, one is left out of the results as of the tasks. -/
theorem filterMap_eraseIdx {α β : Type} {f : α → Option β} {xs : List α}
    (h : ∀ x ∈ xs, ∃ y, f x = some y) (i : Nat) :
    (xs.eraseIdx i).filterMap f = (xs.filterMap f).eraseIdx i := by
  induction xs generalizing i with
  | nil => rfl
  | cons x xs ih =>
    obtain ⟨⟨y, hy⟩, hothers⟩ := List.forall_mem_cons.mp h
    rw [List.filterMap_cons, hy]
    cases i with
    | zero => rfl
    | succ i =>
      rw [List.eraseIdx_cons_succ, List.filterMap_cons, hy, ih hothers]
      rfl

/-- Whatever the schedule, whatever goes wrong with the store and whatever the filter answers,
passes of several nodes have one result each, in the order of the nodes and beside the node that it
belongs to, and each pass ends as it may by itself with the answers that it was given. A pass that
comes to nothing before it has used storage, because it is refused, has no policy, is given up or is
lost, can be left out: when all other passes take their turns without it, they exchange the same,
have the same results, and leave the same records and the same storage. -/
theorem idle_passes_disturb_no_others (c : Conditions) (schedule : List Turn)
    (nodes : List (NodeUid × NodeSpec)) (m : Memory) :
    let all := runMany (Memory.services c) schedule nodes m
    (all.results.map (·.1) = nodes.map (·.1) ∧
      ∀ (i : Nat) (uid : NodeUid) (node : NodeSpec), nodes[i]? = some (uid, node) →
        ∃ how, (pass uid node).Yields (exchangesOf i all.exchanges) how ∧
          all.results[i]? = some (uid, how.toResult)) ∧
    ∀ i, all.ComesToNothing i →
      let others := runMany (Memory.services c) (withoutPass i schedule) (nodes.eraseIdx i) m
      others.results = all.results.eraseIdx i ∧ others.state = all.state ∧
        others.exchanges = exchangesWithout i all.exchanges := by
  intro all
  have hall : all.Interleaves (Memory.services c) nodes m :=
    interleaves_runMany (Memory.services c) schedule nodes m
  refine ⟨⟨hall.uids, fun i uid node hnode => hall.yields hnode⟩, fun i hnothing => ?_⟩
  intro others
  let taken := schedule.foldl (Progress.turn (Memory.services c)) (.start nodes m)
  have hidle : ∀ x ∈ exchangesOf i (taken.finish (Memory.services c)).exchanges, x.Idle :=
    hnothing.idle hall
  have htaken : ∀ x ∈ exchangesOf i taken.exchanges, x.Idle := idle_of_prefix
    (Progress.exchanges_foldl_prefix (Progress.exchanges_advance_prefix _) _ _) hidle
  obtain ⟨htasks, hstate, hexchanges⟩ :=
    ((Progress.without_start i nodes m).turns schedule htaken).finish hidle
  refine ⟨?_, hstate, hexchanges⟩
  change Progress.results _ = (taken.finish (Memory.services c)).results.eraseIdx i
  rw [Progress.results, htasks, Progress.results, filterMap_eraseIdx]
  intro entry hentry
  obtain ⟨j, hj⟩ := List.getElem?_of_mem hentry
  obtain ⟨result, hresult⟩ :=
    Progress.hasEnded_finish (Memory.services c) taken j entry.1 entry.2 hj
  exact ⟨(entry.1, result), by rw [hresult]; rfl⟩

/-- The store breaks down when records are written. Three passes take turns. The first one is lost
to that before it uses storage, as its only candidate is owned outside the pipeline; this happens
while the second one purges a model, and the second one is lost as well when it has removed it. The
third one is that of another node than the declared one. Without the first one, the second one
exchanges the same and ends in the same way. -/
theorem lost_reader_disturbs_no_others :
    let reader : NodeUid := ⟨"pipeline", "reader"⟩
    let spec := (NodeSpec.new "reader").withOutput "model" (some (.ofRecency 1))
    let read := (Store.ofModels [model 1 "/1", model 2 "/2"]).withReader 2 .complete
    let store := ((read.insertArtifact (model 4 "/4").markExternal).insertEvent
        (.published ⟨4⟩ ⟨2⟩ "model") |>.insertArtifact (model 5 "/5")).insertEvent
        (.published ⟨5⟩ ⟨2⟩ "model")
    let m : Memory := ⟨store, Storage.empty.addFile "/1"⟩
    let broken : Conditions := ⟨fun operation =>
      if operation = .put then some .breaksDown else none, none, .passThrough⟩
    let nodes := [(reader, spec), (trainer, trainerSpec (.ofRecency 1)),
      (reader, trainerSpec (.ofRecency 1))]
    let schedule : List Turn := [.pass 1, .pass 0, .pass 1, .caller, .pass 2, .pass 0, .pass 1,
      .pass 1, .pass 0, .pass 1, .pass 0]
    let all := runMany (Memory.services broken) schedule nodes m
    let others := runMany (Memory.services broken) [.pass 0, .pass 0, .caller, .pass 1, .pass 0,
      .pass 0, .pass 0] nodes.tail m
    all.ComesToNothing 0 ∧
      all.exchanges.map (fun x => (x.1, x.2.request)) =
        [(1, .liveOutputs trainer), (0, .liveOutputs reader), (1, .events [⟨1⟩, ⟨2⟩]),
          (0, .events [⟨4⟩, ⟨5⟩]), (1, .unusedInGroups none [model 1 "/1"]), (1, .isDirectory "/1"),
          (0, .unusedInGroups none [(model 4 "/4").markExternal]), (1, .remove "/1"),
          (0, .put [{ (model 4 "/4").markExternal with state := .deleted }]),
          (1, .put [{ model 1 "/1" with state := .deleted }])] ∧
      all.results = [(reader, .error .taskFailed), (trainer, .error .taskFailed),
        (reader, .error (.nodeMismatch "trainer" "reader"))] ∧
      all.state = ⟨store, { Storage.empty with removed := ["/1"] }⟩ ∧
      others.results = all.results.tail ∧ others.state = all.state ∧
      others.exchanges = exchangesWithout 0 all.exchanges := by
  intro reader spec read store m broken nodes schedule all others
  have hnothing : all.ComesToNothing 0 :=
    .lost reader (by decide +kernel) (by decide +kernel)
  have hschedule : withoutPass 0 schedule =
      [.pass 0, .pass 0, .caller, .pass 1, .pass 0, .pass 0, .pass 0] := by decide +kernel
  obtain ⟨_, hothers⟩ := idle_passes_disturb_no_others broken schedule nodes m
  have hwithout := hothers 0 hnothing
  rw [hschedule] at hwithout
  simp only [List.eraseIdx_zero] at hwithout
  exact ⟨hnothing, by decide +kernel, by decide +kernel, by decide +kernel, hwithout⟩

end ArtifactGC
