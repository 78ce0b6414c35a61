import ArtifactGC.Command.Run
import ArtifactGC.Proofs.GuardedCodec
import ArtifactGC.Proofs.JsonText
import ArtifactGC.Proofs.Services
import ArtifactGC.Proofs.StandardTexts

/-!
# Written records read back

A text holds a record when its JSON value can be read as one. What is written reads back as it
was, in either layout and with the line end that commands print; a record with a double that is
not finite cannot be read back, and never reads as another record. So a file that could be loaded
is the same after it has been saved and loaded again.
-/

namespace ArtifactGC

variable {α : Type} [JsonCodec α]

/-- The value of a type that a text holds, if it holds one. -/
def readText? (α : Type) [JsonCodec α] (text : String) : Option α :=
  (Json.parse? text).bind ofJson?

/-- A file is decoded to the value that its text holds, or refused. -/
theorem decodeText_eq (path text : String) :
    (Command.decodeText path text : Except Command.CommandError α) =
      (readText? α text).elim (.error (.parse path)) .ok := rfl

/-- The texts in which a value is written: on one line, line by line, and as it is printed. -/
def textsOf (a : α) : List String :=
  [(toJson a).compact, (toJson a).pretty, Command.printedText a]

/-- A printed value is the only value of its text. -/
@[simp] theorem parse?_printedText (a : α) :
    Json.parse? (Command.printedText a) = some (toJson a) := by
  have hread := Json.parse?_chars Json.Layout.isBlank_pretty (toJson a) ['\n']
    (List.forall_mem_singleton.mpr rfl)
  rw [String.ofList_append] at hread
  exact hread

/-- Every text of a value holds its JSON form. -/
theorem readText?_of_mem_textsOf {a : α} {text : String} (h : text ∈ textsOf a) :
    readText? α text = ofJson? (toJson a) := by
  simp only [textsOf, List.mem_cons, List.not_mem_nil, or_false] at h
  rcases h with rfl | rfl | rfl <;> simp [readText?]

/-- A value of an exact codec reads back from each of its texts. -/
theorem readText?_of_exact [ExactCodec α] {a : α} {text : String} (h : text ∈ textsOf a) :
    readText? α text = some a := by
  rw [readText?_of_mem_textsOf h]
  exact ofJson?_toJson a

/-- Values whose finite doubles read back are read back from their texts, when all their doubles are
finite. -/
structure RoundTrips (α : Type) [ScalarTexts] [JsonCodec α] (doubles : α → List Double) : Prop where
  /-- A value with finite doubles reads back from each of its texts. -/
  reads_back (a : α) (hread : ∀ d ∈ doubles a, d.IsReadBack)
    (h : ∀ d ∈ doubles a, d.isFinite = true) : ∀ text ∈ textsOf a, readText? α text = some a
  /-- A value with another double reads back from none, neither as itself nor as another. -/
  refuses (a : α) (hread : ∀ d ∈ doubles a, d.IsReadBack)
    (h : ∃ d ∈ doubles a, d.isFinite = false) : ∀ text ∈ textsOf a, readText? α text = none
  /-- A value that was read from some text reads back from each of its own texts. -/
  stable {source : String} {a : α} (hread : ∀ d ∈ doubles a, d.IsReadBack)
    (h : readText? α source = some a) : ∀ text ∈ textsOf a, readText? α text = some a

/-- Values of a guarded codec are read back from their texts. -/
theorem GuardedCodec.roundTrips [ScalarTexts] {doubles : α → List Double}
    (h : GuardedCodec α doubles) : RoundTrips α doubles where
  reads_back a hread hfinite text htext := by
    rw [readText?_of_mem_textsOf htext, h.ofJson?_toJson a hread,
      if_pos (List.all_eq_true.mpr hfinite)]
  refuses a hread hinfinite text htext := by
    obtain ⟨d, hd, hd'⟩ := hinfinite
    rw [readText?_of_mem_textsOf htext, h.ofJson?_toJson a hread, if_neg]
    intro hall
    rw [List.all_eq_true.mp hall d hd] at hd'
    cases hd'
  stable {source a} hread h' text htext := by
    obtain ⟨j, -, hj⟩ := Option.bind_eq_some_iff.mp h'
    rw [readText?_of_mem_textsOf htext, h.ofJson?_toJson a hread, if_pos (h.isFinite_of_ofJson? hj)]

/-- Whether a JSON value has a member of a name. -/
def Json.hasMember (name : String) : Json → Bool
  | .object members => members.any (·.1 = some name)
  | _ => false

/-- The members of a written record are those that it was made of. -/
theorem Json.hasMember_record (name : String) (members : List (String × Json)) :
    (Json.record members).hasMember name = members.any (·.1 = name) := by
  simp [hasMember, record, List.any_map, Function.comp_def]

/-- An optional value has a member when it is present. -/
theorem Json.any_optionalMember (key name : String) (o : Option α) :
    (optionalMember name o).any (·.1 = key) = (name = key && o.isSome) := by
  cases o <;> simp [optionalMember]

/-- A property map has a member when it is not empty. -/
theorem any_nonemptyMember (key name : String) (m : KeyMap α) :
    (nonemptyMember name m).any (·.1 = key) = (name = key && !m.isEmpty) := by
  unfold nonemptyMember
  cases m.isEmpty <;> simp

/-- The orders of keeping that have a name of their own. -/
def KeepOrder.knownNames : List String :=
  [unspecified.jsonName, largest.jsonName, smallest.jsonName]

/-- Where integers, identifiers, instants and the finite doubles of a record read back from their
texts, snapshots, artifacts, executions, events, node declarations, policies and outcomes read back
from what is written, exactly when their doubles are finite, and what was loaded once is loaded
again after it was saved. Empty property maps and absent options are not written, an order of
keeping that is not known is written as unrecognized, and an outcome is written as its name with
its members beside it. -/
theorem records_round_trip [ScalarTexts] [LawfulScalarTexts] :
    RoundTrips Snapshot Snapshot.doubles ∧ RoundTrips Artifact Artifact.doubles ∧
    RoundTrips Execution (fun _ => []) ∧ RoundTrips Event (fun _ => []) ∧
    RoundTrips NodeSpec (fun _ => []) ∧ RoundTrips Policy (fun _ => []) ∧
    RoundTrips Outcome (fun _ => []) ∧
    (∀ a : Artifact, (toJson a).hasMember "properties" = !a.properties.isEmpty ∧
      (toJson a).hasMember "custom_properties" = !a.customProperties.isEmpty) ∧
    (∀ e : Event, (toJson e).hasMember "output_key" = e.outputKey.isSome) ∧
    (∀ policy : Policy,
      (toJson policy).hasMember "keep_most_recently_published" = policy.recency.isSome ∧
      (toJson policy).hasMember "keep_property_value_groups" = policy.groups.isSome ∧
      (toJson policy).hasMember "keep_if_used_in_pipeline_groups" = policy.usage.isSome) ∧
    (∀ spec : OutputSpec,
      (toJson spec).hasMember "garbage_collection_policy" = spec.policy.isSome) ∧
    (∀ name ∉ KeepOrder.knownNames, ∃ order : KeepOrder, ofJson? (.text name) = some order ∧
      toJson order = .text "KEEP_ORDER_UNRECOGNIZED") ∧
    (∀ o : Outcome, (toJson o).tagged? "outcome" = some (o.jsonName, .record o.members)) := by
  refine ⟨Snapshot.guardedCodec.roundTrips, Artifact.guardedCodec.roundTrips,
    ExactCodec.guarded.roundTrips, ExactCodec.guarded.roundTrips, ExactCodec.guarded.roundTrips,
    ExactCodec.guarded.roundTrips, ExactCodec.guarded.roundTrips, ?_, ?_, ?_, ?_, ?_,
    tagged?_outcome⟩
  · intro a
    unfold instJsonCodecArtifact
    simp [Json.hasMember_record, any_nonemptyMember]
  · intro e
    unfold instJsonCodecEvent
    simp [Json.hasMember_record, Json.any_optionalMember]
  · intro policy
    unfold instJsonCodecPolicy
    simp [Json.hasMember_record, Json.any_optionalMember]
  · intro spec
    unfold instJsonCodecOutputSpec
    simp [Json.hasMember_record, Json.any_optionalMember]
  · intro name hname
    refine ⟨.unrecognized, ?_, rfl⟩
    simp only [KeepOrder.knownNames, KeepOrder.jsonName, List.mem_cons, List.not_mem_nil,
      or_false, not_or] at hname
    change some (KeepOrder.ofJsonName name) = some .unrecognized
    unfold KeepOrder.ofJsonName
    split <;> simp_all

/-- The snapshot of one model with a score. -/
def scoredModel (score : Double) : Snapshot :=
  ⟨[(model 1 "/models/1").withProperty "score" (.double score)], [], []⟩

section Standard

attribute [local instance] ScalarTexts.standard

/-- With the standard texts a model whose score is 0.1 reads back, one whose score is not a number
does not; the snapshot that an empty object stands for is read again after it was written. -/
theorem score_of_model_reads_back :
    (((∀ d ∈ (scoredModel ⟨0x3fb999999999999a⟩).doubles, d.isFinite = true) ∧
        ∀ d ∈ (scoredModel ⟨0x3fb999999999999a⟩).doubles, d.IsReadBack) ∧
      readText? Snapshot (toJson (scoredModel ⟨0x3fb999999999999a⟩)).pretty =
        some (scoredModel ⟨0x3fb999999999999a⟩)) ∧
    (((∃ d ∈ (scoredModel ⟨0x7ff8000000000000⟩).doubles, d.isFinite = false) ∧
        ∀ d ∈ (scoredModel ⟨0x7ff8000000000000⟩).doubles, d.IsReadBack) ∧
      readText? Snapshot (toJson (scoredModel ⟨0x7ff8000000000000⟩)).pretty = none) ∧
    (readText? Snapshot "\x7b\x7d" = some ⟨[], [], []⟩ ∧
      readText? Snapshot (toJson (⟨[], [], []⟩ : Snapshot)).compact = some ⟨[], [], []⟩) := by
  obtain ⟨hsnapshot, _⟩ := records_round_trip
  have hscore : (∀ d ∈ (scoredModel ⟨0x3fb999999999999a⟩).doubles, d.isFinite = true) ∧
      ∀ d ∈ (scoredModel ⟨0x3fb999999999999a⟩).doubles, d.IsReadBack := by
    decide +kernel
  have hnan : (∃ d ∈ (scoredModel ⟨0x7ff8000000000000⟩).doubles, d.isFinite = false) ∧
      ∀ d ∈ (scoredModel ⟨0x7ff8000000000000⟩).doubles, d.IsReadBack := by
    decide +kernel
  have hempty : readText? Snapshot "\x7b\x7d" = some ⟨[], [], []⟩ := by decide +kernel
  exact ⟨⟨hscore, hsnapshot.reads_back _ hscore.2 hscore.1 _ (by simp [textsOf])⟩,
    ⟨hnan, hsnapshot.refuses _ hnan.2 hnan.1 _ (by simp [textsOf])⟩,
    hempty, hsnapshot.stable (List.forall_mem_nil _) hempty _ (by simp [textsOf])⟩

end Standard

end ArtifactGC
