import ArtifactGC.Candidates
import ArtifactGC.Proofs.Usage
import Mathlib.Data.List.Induction

/-!
# The live outputs of a node

A store finds the live outputs of a node by walking its events. `Store.outputs` says what it finds
under one output key: the live artifacts that some event of the node publishes under that key,
each once, in the order of the first such event. The main statement is
`liveUnder_liveOutputs`, by which the walk finds under every key exactly that.
-/

namespace ArtifactGC

/-- The event says that an execution published the artifact under an output key. -/
def Event.PublishesUnder (e : Event) (key : String) : Prop :=
  (e.kind = .output ∨ e.kind = .declaredOutput ∨ e.kind = .internalOutput) ∧
    e.outputKey = some key

instance (e : Event) (key : String) : Decidable (e.PublishesUnder key) :=
  inferInstanceAs (Decidable (_ ∧ _))

theorem Event.publishesUnder_iff {e : Event} {key : String} :
    e.PublishesUnder key ↔ e.kind.isOutput = true ∧ e.outputKey = some key := by
  refine and_congr_left fun _ => ?_
  cases e.kind <;> simp [EventKind.isOutput]

namespace Store

/-- The store with other events. -/
def withEvents (s : Store) (events : List Event) : Store := { s with events }

/-- The event belongs to an execution of a node. -/
def OfNode (s : Store) (node : NodeUid) (e : Event) : Prop :=
  ∃ x, s.executions.find? e.executionId = some x ∧ x.node = node

instance (s : Store) (node : NodeUid) (e : Event) : Decidable (s.OfNode node e) :=
  decidable_of_iff ((s.executions.find? e.executionId).any fun x => decide (x.node = node))
    (by simp [OfNode, Option.any_eq_true])

/-- The event publishes an artifact of a node under an output key. -/
def Publishes (s : Store) (node : NodeUid) (key : String) (e : Event) : Prop :=
  e.PublishesUnder key ∧ s.OfNode node e

instance (s : Store) (node : NodeUid) (key : String) (e : Event) :
    Decidable (s.Publishes node key e) := inferInstanceAs (Decidable (_ ∧ _))

/-- The record of an artifact, if there is one and the artifact is live. -/
def live? (s : Store) (id : ArtifactId) : Option Artifact :=
  (s.artifacts.find? id).filter fun a => a.state = .live

/-- The live artifacts that events of a node publish under an output key, each once, in the order
of the first events that publish them. -/
def outputs (s : Store) (node : NodeUid) (key : String) : List Artifact :=
  distinctOn (·.id) ((s.events.filter fun e => s.Publishes node key e).filterMap fun e =>
    s.live? e.artifactId)

variable {s : Store} {node : NodeUid} {key : String} {a : Artifact} {id : ArtifactId}

/-- A live record is a record that is live. -/
theorem live?_eq_some : s.live? id = some a ↔ s.artifacts.find? id = some a ∧ a.state = .live := by
  simp [live?, Option.filter_eq_some_iff]

/-- A live record carries the identifier that it was looked up by. -/
theorem id_of_live? (h : s.live? id = some a) : a.id = id :=
  Table.key_of_find? (live?_eq_some.mp h).1

/-- No output is listed twice. -/
theorem nodup_outputs : ((s.outputs node key).map (·.id)).Nodup := nodup_map_distinctOn _ _

/-- Outputs are looked up by the events that publish them. -/
private theorem mem_published :
    a ∈ (s.events.filter fun e => s.Publishes node key e).filterMap (fun e => s.live? e.artifactId) ↔
      ∃ e ∈ s.events, s.Publishes node key e ∧ s.live? e.artifactId = some a := by
  simp [List.mem_filterMap, and_assoc]

/-- The outputs are the live records that some event of the node publishes under the key. -/
theorem mem_outputs : a ∈ s.outputs node key ↔
    s.live? a.id = some a ∧ ∃ e ∈ s.events, e.artifactId = a.id ∧ s.Publishes node key e := by
  constructor
  · intro h
    obtain ⟨e, he, hpub, hlive⟩ := mem_published.mp (mem_of_mem_distinctOn h)
    have hid := id_of_live? hlive
    exact ⟨hid ▸ hlive, e, he, hid.symm, hpub⟩
  · rintro ⟨hlive, e, he, hid, hpub⟩
    have hmem := mem_published.mpr ⟨e, he, hpub, hid ▸ hlive⟩
    obtain ⟨b, hb, hba⟩ := List.mem_map.mp
      (mem_map_distinctOn.mpr (List.mem_map_of_mem (f := (·.id)) hmem))
    obtain ⟨e', _, _, hlive'⟩ := mem_published.mp (mem_of_mem_distinctOn hb)
    have hb' := id_of_live? hlive' ▸ hlive'
    rw [hba, hlive] at hb'
    exact Option.some.inj hb' ▸ hb

/-! ## The walk over the events -/

/-- One publication is added to what is already listed under its key. -/
private def listed (live : LiveOutputs) (p : String × Artifact) : LiveOutputs :=
  let known := (live.find? p.1).getD []
  if p.2.id ∈ known.map (·.id) then live else live.insert p.1 (known ++ [p.2])

private theorem liveUnder_foldl_listed (ps : List (String × Artifact)) (key : String) :
    liveUnder (ps.foldl listed .empty) key =
      distinctOn (·.id) ((ps.filter fun p => p.1 = key).map (·.2)) := by
  induction ps using List.reverseRecOn with
  | nil => rfl
  | append_singleton ps p ih =>
    obtain ⟨key', a⟩ := p
    rw [List.foldl_append, List.filter_append, List.map_append]
    generalize ps.foldl listed .empty = live at ih
    by_cases hkey : key' = key
    · subst hkey
      have hknown : (live.find? key').getD [] = distinctOn (·.id)
          ((ps.filter fun p => p.1 = key').map (·.2)) := ih
      simp only [List.foldl_cons, List.foldl_nil, listed, hknown, mem_map_distinctOn,
        List.filter_cons, decide_true, if_true, List.filter_nil, List.map_cons, List.map_nil]
      rw [distinctOn_concat]
      split
      · exact ih
      · simp [liveUnder]
    · have hother : key ≠ key' := fun h => hkey h.symm
      have hdrop : ([(key', a)].filter fun p => decide (p.1 = key)).map (·.2) = [] := by
        simp [hkey]
      rw [hdrop, List.append_nil, ← ih]
      simp only [List.foldl_cons, List.foldl_nil, listed, liveUnder]
      split
      · rfl
      · rw [KeyMap.find?_insert, if_neg hother]

private theorem filter_publications (s : Store) (node : NodeUid) (key : String) :
    ((s.publications node).filter fun p => p.1 = key).map (·.2) =
      (s.events.filter fun e => s.Publishes node key e).filterMap fun e => s.live? e.artifactId := by
  rw [publications, List.filter_filterMap, List.map_filterMap, List.filterMap_filter]
  congr 1
  funext e
  have hpub : s.Publishes node key e ↔ (e.kind.isOutput = true ∧ e.outputKey = some key) ∧
      s.OfNode node e := and_congr_left fun _ => Event.publishesUnder_iff
  cases hkey : e.outputKey with
  | none => simp [hpub, hkey]
  | some key' =>
    cases hx : s.executions.find? e.executionId with
    | none =>
      have hnot : ¬ s.OfNode node e := by simp [OfNode, hx]
      simp [hpub, hnot]
    | some x =>
      have hof : s.OfNode node e ↔ x.node = node := by simp [OfNode, hx]
      cases ha : s.artifacts.find? e.artifactId with
      | none => simp [live?, ha]
      | some a =>
        have hlive : s.live? e.artifactId = if a.isLive then some a else none := by
          simp [live?, ha, Artifact.isLive, Option.filter]
        rw [hlive]
        by_cases hkind : e.kind.isOutput = true <;> by_cases hkk : key' = key <;>
          by_cases hnode : x.node = node <;> by_cases hl : a.isLive = true <;>
          simp [hpub, hof, hkey, hkind, hkk, hnode, hl]

/-- The walk leaves no key with nothing listed. -/
private theorem ne_nil_of_foldl_listed {ps : List (String × Artifact)} {key : String}
    {as : List Artifact} (h : (ps.foldl listed .empty).find? key = some as) : as ≠ [] := by
  induction ps using List.reverseRecOn with
  | nil => cases h
  | append_singleton ps p ih =>
    simp only [List.foldl_append, List.foldl_cons, List.foldl_nil, listed] at h
    split at h
    · exact ih h
    · rw [KeyMap.find?_insert] at h
      split at h
      · cases h
        exact List.append_ne_nil_of_right_ne_nil _ (List.cons_ne_nil _ _)
      · exact ih h

/-- Under every key the walk over the events lists the outputs of the node. -/
theorem liveUnder_liveOutputs (s : Store) (node : NodeUid) (key : String) :
    liveUnder (s.liveOutputs node) key = s.outputs node key := by
  rw [outputs, ← filter_publications]
  exact liveUnder_foldl_listed _ key

/-- A key has an entry if and only if the node has outputs under it. -/
theorem find?_liveOutputs {as : List Artifact} :
    (s.liveOutputs node).find? key = some as ↔ s.outputs node key = as ∧ as ≠ [] := by
  have houtputs := liveUnder_liveOutputs s node key
  constructor
  · intro h
    rw [liveUnder, h] at houtputs
    exact ⟨houtputs.symm, ne_nil_of_foldl_listed h⟩
  · rintro ⟨rfl, hne⟩
    cases hfind : (s.liveOutputs node).find? key with
    | none =>
      rw [liveUnder, hfind] at houtputs
      exact absurd houtputs.symm hne
    | some as =>
      rw [liveUnder, hfind] at houtputs
      rw [← houtputs]
      rfl

end Store

end ArtifactGC
