import ArtifactGC.Pass
import ArtifactGC.Proofs.Contract
import ArtifactGC.Proofs.Runs

/-!
# Plans and passes step by step

What a plan and a pass do beside searching and purging: they refuse a node that is not the
declared one, they stop when no output key has a policy, and a pass turns a failure into an
outcome. `keeps_plan` and `keeps_pass` reduce what is to be shown of them to the search and to
the purge of what it finds, and `run_pass` does so for their runs.
-/

namespace ArtifactGC

variable {c : Contract}

variable {uid : NodeUid} {node : NodeSpec}

/-- A plan of another node than the declared one fails at once. -/
theorem plan_of_mismatch (hid : uid.nodeId ≠ node.id) :
    plan uid node = .failed (.nodeMismatch node.id uid.nodeId) := by
  rw [plan, checkNode, if_neg hid]
  rfl

/-- A plan without policies lists nothing. -/
theorem plan_of_isEmpty (hid : uid.nodeId = node.id) (hempty : node.policies.isEmpty = true) :
    plan uid node = .returned [] := by
  rw [plan, checkNode, if_pos hid, Procedure.returned_bind, if_pos hempty]
  rfl

/-- Where output keys have policies, a plan of the declared node is a search. -/
theorem plan_eq (hid : uid.nodeId = node.id) (hpolicies : node.policies.isEmpty = false) :
    plan uid node = candidates uid node.policies := by
  rw [plan, checkNode, if_pos hid, Procedure.returned_bind, hpolicies]
  rfl

/-- A plan keeps a contract when its search does. -/
theorem keeps_plan {post : Except Failure (List Artifact) → Prop}
    (hmismatch : uid.nodeId ≠ node.id → post (.error (.nodeMismatch node.id uid.nodeId)))
    (hnone : node.policies.isEmpty = true → post (.ok []))
    (hsearch : uid.nodeId = node.id → node.policies.isEmpty = false →
      (candidates uid node.policies).Keeps c post) :
    (plan uid node).Keeps c post := by
  by_cases hid : uid.nodeId = node.id
  · rw [plan, checkNode, if_pos hid, Procedure.returned_bind]
    cases hempty : node.policies.isEmpty with
    | true => exact hnone hempty
    | false => exact hsearch hid hempty
  · rw [plan_of_mismatch hid]
    exact hmismatch hid

/-! ## The parts of a pass -/

/-- What a pass makes of the result or failure of its purge. -/
def conclude : Except Failure PurgeReport → Procedure Outcome
  | .ok report => .returned (.collected report)
  | .error e => .note (.passAborted e) (.returned (.aborted e.kind e.message))

/-- The outcome that a pass ends with. -/
def Outcome.ofResult : Except Failure PurgeReport → Outcome
  | .ok report => .collected report
  | .error e => .aborted e.kind e.message

/-- A pass of another node than the declared one fails at once. -/
theorem pass_of_mismatch (hid : uid.nodeId ≠ node.id) :
    pass uid node = .failed (.nodeMismatch node.id uid.nodeId) := by
  rw [pass, checkNode, if_neg hid]
  rfl

/-- A pass without policies ends at once. -/
theorem pass_of_isEmpty (hid : uid.nodeId = node.id) (hempty : node.policies.isEmpty = true) :
    pass uid node = .returned .noPolicy := by
  rw [pass, checkNode, if_pos hid, Procedure.returned_bind, if_pos hempty]
  rfl

/-- A pass is refused, has nothing to do, or searches. -/
theorem pass_cases (uid : NodeUid) (node : NodeSpec) :
    (uid.nodeId ≠ node.id ∧ pass uid node = .failed (.nodeMismatch node.id uid.nodeId)) ∨
      (uid.nodeId = node.id ∧ node.policies.isEmpty = true ∧ pass uid node = .returned .noPolicy) ∨
      (uid.nodeId = node.id ∧ node.policies.isEmpty = false) := by
  by_cases hid : uid.nodeId = node.id
  · cases hpolicies : node.policies.isEmpty with
    | true => exact .inr (.inl ⟨hid, rfl, pass_of_isEmpty hid hpolicies⟩)
    | false => exact .inr (.inr ⟨hid, rfl⟩)
  · exact .inl ⟨hid, pass_of_mismatch hid⟩

/-- Nothing happens in a purge of nothing. -/
theorem purgeCandidates_eq (uid : NodeUid) (policies : KeyMap Policy) :
    purgeCandidates uid policies = candidates uid policies >>= purge := by
  unfold purgeCandidates
  congr 1
  funext found
  split
  · rename_i hnil
    rw [hnil]
    rfl
  · rfl

/-- A pass searches, purges and concludes. -/
theorem pass_eq (hid : uid.nodeId = node.id) (hpolicies : node.policies.isEmpty = false) :
    pass uid node = (candidates uid node.policies >>= purge).attempt >>= conclude := by
  rw [pass, checkNode, if_pos hid, Procedure.returned_bind, hpolicies, ← purgeCandidates_eq]
  refine congrArg ((purgeCandidates uid node.policies).attempt >>= ·) (funext fun r => ?_)
  cases r <;> rfl

/-- How a pass ends whose search and purge end in some way. -/
def Ending.toOutcome : Ending PurgeReport → Ending Outcome
  | .returned report => .returned (.collected report)
  | .failed e => .returned (.aborted e.kind e.message)
  | .crashed => .crashed

/-- A pass asks what its search and purge ask, leaves the same state, and ends with what it makes
of their end. -/
theorem run_pass {σ : Type} (services : Services σ) (s : σ) (hid : uid.nodeId = node.id)
    (hpolicies : node.policies.isEmpty = false) :
    let purged := (candidates uid node.policies >>= purge).run services s
    let run := (pass uid node).run services s
    run.ending = purged.ending.toOutcome ∧ run.state = purged.state ∧
      run.exchanges = purged.exchanges := by
  intro purged run
  have hrun : run = _ := congrArg (fun p => p.run services s) (pass_eq hid hpolicies)
  have hpurged : (candidates uid node.policies >>= purge).run services s = purged := rfl
  rw [hrun, Procedure.run_bind, Procedure.run_attempt, hpurged]
  cases purged.ending <;>
    simp [Run.andThen, Ending.attempt, Ending.toOutcome, conclude, Procedure.run, Run.after]

/-- A pass keeps a contract when its search and purge do, as far as their result or failure
becomes its outcome. -/
theorem keeps_pass {post : Except Failure Outcome → Prop}
    (hmismatch : uid.nodeId ≠ node.id → post (.error (.nodeMismatch node.id uid.nodeId)))
    (hnone : node.policies.isEmpty = true → post (.ok .noPolicy))
    (hpurge : uid.nodeId = node.id → node.policies.isEmpty = false →
      (candidates uid node.policies >>= purge).Keeps c fun r => post (.ok (.ofResult r))) :
    (pass uid node).Keeps c post := by
  rcases pass_cases uid node with ⟨hid, hpass⟩ | ⟨_, hempty, hpass⟩ | ⟨hid, hpolicies⟩
  · rw [hpass]
    exact hmismatch hid
  · rw [hpass]
    exact hnone hempty
  · rw [pass_eq hid hpolicies, Procedure.keeps_bind, Procedure.keeps_attempt]
    refine (hpurge hid hpolicies).imp fun r hr => ?_
    cases r with
    | ok report => exact hr
    | error e => exact hr

end ArtifactGC
