import ArtifactGC.Distinct
import ArtifactGC.Retention
import ArtifactGC.Usage

/-!
# Candidates for deletion

The candidates of a node are found key by key, in the order of its output keys: what the policy
of the key does not keep, less what the pipeline group filter holds back, less what is in use.
The live artifacts of all keys are asked for once, and so are the events on all of them. A policy
that cannot be evaluated costs its own key only; any other failure ends the search. The filter is
not trusted: an answer with an artifact that it was not asked about is dropped.
-/

namespace ArtifactGC

/-- The live artifacts under an output key. -/
def liveUnder (live : LiveOutputs) (key : String) : List Artifact :=
  (live.find? key).getD []

/-- What a filter answered with that it was asked about, each artifact once. -/
def admitted (candidates returned : List Artifact) : List Artifact :=
  distinctOn (·.id) (returned.filter fun a => a.id ∈ candidates.map (·.id))

/-- What a filter answered with that it was not asked about. -/
def intruders (candidates returned : List Artifact) : List ArtifactId :=
  (returned.filter fun a => a.id ∉ candidates.map (·.id)).map (·.id)

/-- The artifacts not kept by a policy that neither other pipelines nor executions need. -/
def unneeded (policy : Policy) (events : List Event) (notKept : List Artifact) :
    Procedure (List Artifact) := do
  if notKept = [] then
    return []
  let returned ← Procedure.unusedInGroups policy.usage notKept
  Procedure.noteAll ((intruders notKept returned).map .notACandidate)
  retainUnused (admitted notKept returned) events

/-- The candidates under one output key. -/
def candidatesUnder (live : LiveOutputs) (events : List Event) (key : String) (policy : Policy) :
    Procedure (List Artifact) := do
  if liveUnder live key = [] then
    return []
  match artifactsToCollect policy (liveUnder live key) with
  | .error cause =>
    Procedure.noteAll [.policyInvalid key cause]
    return []
  | .ok notKept => (unneeded policy events notKept).mapFailure (.outputKey key)

/-- The candidates under some output keys, one list after another. -/
def candidatesUnderAll (live : LiveOutputs) (events : List Event) :
    List (String × Policy) → Procedure (List Artifact)
  | [] => return []
  | (key, policy) :: entries => do
    let first ← candidatesUnder live events key policy
    return first ++ (← candidatesUnderAll live events entries)

/-- The artifacts whose events matter to a node: all that are live under any key. -/
def liveIds (live : LiveOutputs) : List ArtifactId :=
  ascending (live.values.flatten.map (·.id))

/-- The candidates of a node whose output keys have policies, each artifact once. -/
def candidates (node : NodeUid) (policies : KeyMap Policy) : Procedure (List Artifact) := do
  let live ← Procedure.liveOutputs node
  if policies.keys.all fun key => liveUnder live key = [] then
    return []
  let events ← Procedure.events (liveIds live)
  return distinctOn (·.id) (← candidatesUnderAll live events policies.entries)

end ArtifactGC
