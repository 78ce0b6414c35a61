import ArtifactGC.Proofs.Planning

/-!
# Output keys one by one

A plan asks for the events on all live artifacts of a node once and goes through its output keys
with them. Nothing passes from one key to the next but the artifacts that are listed already. So the
plan of a node is put together from plans of the same node with one output key each, and
`plan_combines_output_keys` says how.
-/

namespace ArtifactGC

namespace NodeSpec

variable {node : NodeSpec} {key : String} {policy : Policy}

/-- The declaration of a node with one of its output keys and no other. -/
def only (node : NodeSpec) (key : String) : NodeSpec :=
  match node.outputs.find? key with
  | some output => (NodeSpec.new node.id).withOutput key output.policy
  | none => NodeSpec.new node.id

@[simp] theorem id_only : (node.only key).id = node.id := by
  unfold only
  split <;> rfl

/-- Of the policies only that of the output key is left. -/
theorem policies_only (h : node.policies.find? key = some policy) :
    (node.only key).policies.entries = [(key, policy)] := by
  obtain ⟨output, houtput, hpolicy⟩ := KeyMap.find?_filterMap.mp h
  rw [only, houtput]
  change ([(key, OutputSpec.mk output.policy)].filterMap fun e => e.2.policy.map (e.1, ·)) = _
  simp [hpolicy]

end NodeSpec

namespace Store

/-- What is selected of a node with one output key, each artifact once. -/
def selectedAlone (s : Store) (groups : GroupFilter) (live : LiveOutputs) (key : String)
    (policy : Policy) : Except Failure (List Artifact) :=
  (s.selectedUnder groups key policy (liveUnder live key)).map (distinctOn (·.id))

variable {s : Store} {groups : GroupFilter} {live : LiveOutputs} {policies : KeyMap Policy}

/-- What is selected of a node with one output key is what is selected under the key. -/
theorem selected_of_single {key : String} {policy : Policy}
    (h : policies.entries = [(key, policy)]) :
    s.selected groups live policies = s.selectedAlone groups live key policy := by
  rw [selected, h, selectedAlone]
  cases hunder : s.selectedUnder groups key policy (liveUnder live key) with
  | ok found =>
    rw [selectedLists_cons_of_ok hunder]
    change Except.ok (distinctOn (·.id) (found ++ [])) = _
    rw [List.append_nil]
    rfl
  | error e =>
    rw [selectedLists_cons_of_error hunder]
    rfl

/-- What is selected of a node is what is selected under its output keys, one after another, or it
is the failure under the first of them that fails. -/
theorem selected_by_key (s : Store) (groups : GroupFilter) (live : LiveOutputs)
    (policies : KeyMap Policy) :
    (∃ founds, List.Forall₂ (fun entry found =>
        s.selectedAlone groups live entry.1 entry.2 = .ok found) policies.entries founds ∧
      s.selected groups live policies = .ok (distinctOn (·.id) founds.flatten)) ∨
    ∃ before entry after e, policies.entries = before ++ entry :: after ∧
      (∀ entry' ∈ before, ∃ found, s.selectedAlone groups live entry'.1 entry'.2 = .ok found) ∧
      s.selectedAlone groups live entry.1 entry.2 = .error e ∧
      s.selected groups live policies = .error e := by
  cases hlists : s.selectedLists groups live policies.entries with
  | ok lists =>
    refine .inl ⟨lists.map (distinctOn (·.id)), ?_, ?_⟩
    · rw [List.forall₂_map_right_iff]
      refine (mapM_eq_ok.mp hlists).imp fun entry found hfound => ?_
      exact exceptMap_eq_ok.mpr ⟨found, hfound, rfl⟩
    · rw [selected, hlists, distinctOn_flatten_map]
      rfl
  | error e =>
    obtain ⟨before, entry, after, hentries, hbefore, hfails⟩ := mapM_eq_error.mp hlists
    refine .inr ⟨before, entry, after, e, hentries, fun entry' hmem => ?_,
      exceptMap_eq_error.mpr hfails, ?_⟩
    · obtain ⟨found, hfound⟩ := hbefore entry' hmem
      exact ⟨_, exceptMap_eq_ok.mpr ⟨found, hfound, rfl⟩⟩
    · rw [selected, hlists]
      rfl

end Store

section Plans

variable {groups : GroupFilter} {uid : NodeUid} {node : NodeSpec} {m : Memory}

/-- With one output key a plan ends with what is selected under it. -/
theorem ending_of_plan_only (hid : uid.nodeId = node.id) {key : String} {policy : Policy}
    (hpolicy : node.policies.find? key = some policy) :
    ((plan uid (node.only key)).run (Memory.services (.filtering groups)) m).ending =
      .ofExcept (m.store.selectedAlone groups (m.store.liveOutputs uid) key policy) := by
  have hid' : uid.nodeId = (node.only key).id := hid.trans NodeSpec.id_only.symm
  rw [ending_of_plan_filtering hid', Store.selected_of_single (NodeSpec.policies_only hpolicy)]

end Plans

/-- Let the store work, and let any function be the filter. The plan of a node is put together from
its plans with one output key that has a policy each, in the order of the bytes of the keys. If all
of these exist, it lists what they list, one after another, without what is listed already: in that
order, no artifact twice, and of several records with one identifier the first. Otherwise it fails
as the first of them that fails. Plans of another node than the declared one all fail in the same
way. -/
theorem plan_combines_output_keys (groups : GroupFilter) (uid : NodeUid) (node : NodeSpec)
    (m : Memory) :
    let ending (node : NodeSpec) :=
      ((plan uid node).run (Memory.services (.filtering groups)) m).ending
    node.policies.keys.Pairwise (fun a b => Text.bytes a < Text.bytes b) ∧
    (uid.nodeId = node.id →
      (∃ founds, List.Forall₂ (fun key found => ending (node.only key) = .returned found)
          node.policies.keys founds ∧
        ending node = .returned (distinctOn (·.id) founds.flatten) ∧
        (distinctOn (·.id) founds.flatten).Sublist founds.flatten ∧
        ((distinctOn (·.id) founds.flatten).map (·.id)).Nodup ∧
        ∀ a, a ∈ distinctOn (·.id) founds.flatten ↔
          founds.flatten.find? (fun b => b.id = a.id) = some a) ∨
      ∃ before key after e, node.policies.keys = before ++ key :: after ∧
        (∀ key' ∈ before, ∃ found, ending (node.only key') = .returned found) ∧
        ending (node.only key) = .failed e ∧ ending node = .failed e) ∧
    (uid.nodeId ≠ node.id → ending node = .failed (.nodeMismatch node.id uid.nodeId) ∧
      ∀ key, ending (node.only key) = ending node) := by
  intro ending
  refine ⟨?_, fun hid => ?_, fun hid => ?_⟩
  · rw [KeyMap.keys, List.pairwise_map]
    exact node.policies.sorted.imp fun hlt => (Text.compare_eq_lt_iff_bytes _ _).mp hlt
  · have hwhole : ending node = _ := ending_of_plan_filtering hid
    have halone (entry : String × Policy) (hentry : entry ∈ node.policies.entries) :
        ending (node.only entry.1) =
          .ofExcept (m.store.selectedAlone groups (m.store.liveOutputs uid) entry.1 entry.2) :=
      ending_of_plan_only hid (KeyMap.find?_eq_some.mpr hentry)
    rw [hwhole]
    rcases m.store.selected_by_key groups (m.store.liveOutputs uid) node.policies with
      ⟨founds, hfounds, hselected⟩ | ⟨before, entry, after, e, hentries, hbefore, hfails, hselected⟩
    · refine .inl ⟨founds, ?_, by rw [hselected]; rfl, distinctOn_sublist _ _,
        nodup_map_distinctOn _ _, fun a => mem_distinctOn⟩
      rw [KeyMap.keys, List.forall₂_map_left_iff]
      refine forall₂_of_mem hfounds fun entry hentry found hfound => ?_
      rw [halone entry hentry, hfound]
      rfl
    · refine .inr ⟨before.map (·.1), entry.1, after.map (·.1), e, ?_, ?_, ?_, ?_⟩
      · rw [KeyMap.keys, hentries, List.map_append, List.map_cons]
      · intro key' hkey'
        obtain ⟨entry', hentry', rfl⟩ := List.mem_map.mp hkey'
        obtain ⟨found, hfound⟩ := hbefore entry' hentry'
        have hmem : entry' ∈ node.policies.entries := by simp [hentries, hentry']
        exact ⟨found, by rw [halone entry' hmem, hfound]; rfl⟩
      · have hmem : entry ∈ node.policies.entries := by simp [hentries]
        rw [halone entry hmem, hfails]
        rfl
      · rw [hselected]
        rfl
  · have hmismatch (node' : NodeSpec) (hsame : node'.id = node.id) :
        ending node' = .failed (.nodeMismatch node.id uid.nodeId) := by
      have hid' : uid.nodeId ≠ node'.id := hsame ▸ hid
      change ((plan uid node').run _ m).ending = _
      rw [plan_of_mismatch hid', hsame]
      rfl
    refine ⟨hmismatch node rfl, fun key => ?_⟩
    rw [hmismatch node rfl, hmismatch (node.only key) NodeSpec.id_only]

/-- The first model is live under two output keys and collected under both; the plan lists it once,
where the plans of the keys alone list it twice. -/
theorem trainer_plan_combines_output_keys :
    let groups : GroupFilter := fun _ cs => .ok cs.reverse
    let models := Store.ofModels [model 1 "/1", model 2 "/2", model 4 "/4"]
    let store := (models.publishing (model 3 "/3") "archive").insertEvent
      (.published ⟨1⟩ ⟨1⟩ "archive")
    let m : Memory := ⟨store, .empty⟩
    let spec := (trainerSpec (.ofRecency 1)).withOutput "archive" (some (.ofRecency 1))
    let ending (node : NodeSpec) :=
      ((plan trainer node).run (Memory.services (.filtering groups)) m).ending
    trainer.nodeId = spec.id ∧ spec.policies.keys = ["archive", "model"] ∧
      ending (spec.only "archive") = .returned [model 1 "/1"] ∧
      ending (spec.only "model") = .returned [model 2 "/2", model 1 "/1"] ∧
      ending spec = .returned [model 1 "/1", model 2 "/2"] := by
  intro groups models store m spec ending
  have hid : trainer.nodeId = spec.id := by decide +kernel
  have hkeys : spec.policies.keys = ["archive", "model"] := by decide +kernel
  have harchive : ending (spec.only "archive") = .returned [model 1 "/1"] := by decide +kernel
  have hmodel : ending (spec.only "model") = .returned [model 2 "/2", model 1 "/1"] := by
    decide +kernel
  obtain ⟨_, hcombines, _⟩ := plan_combines_output_keys groups trainer spec m
  have hwhole : ending spec = .returned [model 1 "/1", model 2 "/2"] := by
    rcases hcombines hid with ⟨founds, hfounds, hwhole, _⟩ | ⟨_, key, _, e, hsplit, _, hfails, _⟩
    · rw [hkeys] at hfounds
      obtain _ | ⟨hfirst, _ | ⟨hsecond, ⟨⟩⟩⟩ := hfounds
      cases harchive.symm.trans hfirst
      cases hmodel.symm.trans hsecond
      exact hwhole
    · have hkey : key ∈ spec.policies.keys := by simp [hsplit]
      rw [hkeys] at hkey
      obtain rfl | rfl : key = "archive" ∨ key = "model" := by simpa using hkey
      · cases harchive.symm.trans hfails
      · cases hmodel.symm.trans hfails
  exact ⟨hid, hkeys, harchive, hmodel, hwhole⟩

end ArtifactGC
