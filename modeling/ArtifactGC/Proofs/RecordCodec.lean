import ArtifactGC.Codec.Outcome
import ArtifactGC.Codec.Snapshot
import ArtifactGC.Proofs.Collections

/-!
# What is written as a record is read as that record

A codec is exact when it reads back whatever it writes and never writes `null`. Fields that are
left out have a default of the same meaning, and the names of a record's fields differ, so a
record is read back field by field. Where integers, identifiers and instants read back, all records
without doubles have exact codecs; lists and maps inherit them.
-/

namespace ArtifactGC

/-- A codec that reads back every value that it writes, and never writes `null`. -/
class ExactCodec (α : Type) [JsonCodec α] : Prop where
  /-- A value reads back from its JSON form. -/
  ofJson?_toJson (a : α) : ofJson? (toJson a) = some a
  /-- No value is written as `null`. -/
  toJson_ne_null (a : α) : toJson a ≠ .null

attribute [simp] ExactCodec.ofJson?_toJson

export ExactCodec (ofJson?_toJson toJson_ne_null)

namespace Json

/-! ### Fields -/

/-- A field of a written record is looked up among its members. -/
theorem lookup_record (members : List (String × Json)) (name : String) :
    (members.map fun m => (some m.1, m.2)).lookup (some name) = members.lookup name := by
  induction members with
  | nil => rfl
  | cons m members ih =>
    obtain ⟨key, value⟩ := m
    cases h : name == key <;> simp [List.lookup_cons, h, ih]

/-- A written record is read field by field, when its members are fields in their order. -/
theorem fields?_record {names : List String} {members : List (String × Json)}
    (hnames : names.Nodup) (h : (members.map (·.1)).Sublist names) :
    (Json.record members).fields? names = some fun name => members.lookup name := by
  have htext : (members.map fun m => ((some m.1 : Option String), m.2)).all (·.1.isSome) := by
    simp
  have honce : names.all
      (occurrences · (members.map fun m => ((some m.1 : Option String), m.2)) ≤ 1) := by
    have hcount (name : String) :
        occurrences name (members.map fun m => ((some m.1 : Option String), m.2)) =
          (members.map (·.1)).count name := by
      rw [occurrences, List.countP_map, List.count_eq_countP, List.countP_map]
      apply List.countP_congr
      intro m _
      simp
    simp only [List.all_eq_true, decide_eq_true_eq, hcount]
    intro name _
    exact List.nodup_iff_count_le_one.mp (h.nodup hnames) name
  simp only [record, fields?, htext, honce, and_self, if_true, lookup_record]

/-- The member of an optional value is its JSON form, or absent. -/
theorem lookup_optionalMember {α : Type} [JsonCodec α] (name : String) (o : Option α)
    (key : String) :
    (optionalMember name o).lookup key = if key = name then o.map toJson else none := by
  cases o with
  | none => simp [optionalMember]
  | some a =>
    by_cases h : key = name
    · simp [optionalMember, h]
    · have hname : (key == name) = false := beq_eq_false_iff_ne.mpr h
      simp [optionalMember, List.lookup_cons, h, hname]

/-- Only the name of an optional member is written. -/
theorem names_optionalMember {α : Type} [JsonCodec α] (name : String) (o : Option α) :
    ((optionalMember name o).map (·.1)).Sublist [name] := by
  cases o <;> simp [optionalMember]

/-- An absent value is read when its member is left out, any other from its member. -/
@[simp] theorem withDefault_optional {α : Type} [JsonCodec α] [ExactCodec α] (o : Option α) :
    withDefault none (o.map toJson) = some o := by
  cases o with
  | none => rfl
  | some a =>
    have hread : (ofJson? (toJson a) : Option (Option α)) = (ofJson? (toJson a)).map some := by
      cases hj : toJson a with
      | null => exact absurd hj (toJson_ne_null a)
      | _ => rfl
    simp [withDefault, hread]

/-- A field that has to be given is read from what was written. -/
@[simp] theorem required_toJson {α : Type} [JsonCodec α] [ExactCodec α] (a : α) :
    required (some (toJson a)) = some a :=
  ofJson?_toJson a

/-- A field with a default is read from what was written. -/
@[simp] theorem withDefault_toJson {α : Type} [JsonCodec α] [ExactCodec α] (default a : α) :
    withDefault default (some (toJson a)) = some a :=
  ofJson?_toJson a

end Json

/-! ### Scalars -/

instance : ExactCodec String where
  ofJson?_toJson _ := rfl
  toJson_ne_null _ := nofun

instance : ExactCodec Bool where
  ofJson?_toJson _ := rfl
  toJson_ne_null _ := nofun

section Scalars

variable [ScalarTexts] [LawfulScalarTexts]

instance : ExactCodec Int64 where
  ofJson?_toJson n := LawfulScalarTexts.readInteger?_writeInteger n
  toJson_ne_null _ := nofun

instance {kind : RecordKind} : ExactCodec (Id kind) where
  ofJson?_toJson id := LawfulScalarTexts.readId?_writeId id
  toJson_ne_null _ := nofun

instance : ExactCodec Instant where
  ofJson?_toJson t := LawfulScalarTexts.readInstant?_writeInstant t
  toJson_ne_null _ := nofun

end Scalars

/-! ### Lists and maps -/

/-- A written list is read item by item. -/
theorem ofJson?_list {α : Type} [JsonCodec α] (as : List α) :
    ofJson? (toJson as) = as.mapM fun a => (ofJson? (toJson a) : Option α) := by
  change ofItems? (as.map toJson) = _
  induction as with
  | nil => rfl
  | cons a as ih => rw [List.map_cons, ofItems?, ih, List.mapM_cons]; rfl

instance {α : Type} [JsonCodec α] [ExactCodec α] : ExactCodec (List α) where
  ofJson?_toJson as := by
    rw [ofJson?_list]
    simp only [ofJson?_toJson]
    induction as with
    | nil => rfl
    | cons a as ih => rw [List.mapM_cons, ih]; rfl
  toJson_ne_null _ := nofun

/-- A written map is read entry by entry. -/
theorem ofJson?_keyMap {α : Type} [JsonCodec α] (m : KeyMap α) :
    (ofJson? (toJson m) : Option (KeyMap α)) =
      (m.entries.mapM fun e => ((ofJson? (toJson e.2) : Option α).map (e.1, ·))).map
        KeyMap.ofList := by
  have hentries (es : List (String × α)) :
      ofMembers? ((es.map fun e => (e.1, toJson e.2)).map fun m => (some m.1, m.2)) =
        es.mapM fun e => ((ofJson? (toJson e.2) : Option α).map (e.1, ·)) := by
    induction es with
    | nil => rfl
    | cons e es ih =>
      rw [List.map_cons, List.map_cons, ofMembers?, ih, List.mapM_cons]
      cases (ofJson? (toJson e.2) : Option α) <;> rfl
  rw [← hentries]
  rfl

instance {α : Type} [JsonCodec α] [ExactCodec α] : ExactCodec (KeyMap α) where
  ofJson?_toJson m := by
    have hentries (es : List (String × α)) :
        (es.mapM fun e => ((ofJson? (toJson e.2) : Option α).map (e.1, ·))) = some es := by
      induction es with
      | nil => rfl
      | cons e es ih => rw [List.mapM_cons, ih, ofJson?_toJson]; rfl
    rw [ofJson?_keyMap, hentries, Option.map_some, KeyMap.ofList_entries]
  toJson_ne_null _ := nofun

/-! ### Choices -/

instance : ExactCodec KeepOrder where
  ofJson?_toJson order := by cases order <;> rfl
  toJson_ne_null _ := nofun

instance : ExactCodec ExecutionState where
  ofJson?_toJson state := by cases state <;> rfl
  toJson_ne_null _ := nofun

instance : ExactCodec EventKind where
  ofJson?_toJson kind := by cases kind <;> rfl
  toJson_ne_null _ := nofun

instance : ExactCodec ArtifactState where
  ofJson?_toJson state := by cases state <;> rfl
  toJson_ne_null _ := nofun

instance : ExactCodec FailureKind where
  ofJson?_toJson kind := by cases kind <;> rfl
  toJson_ne_null _ := nofun

/-! ### Records -/

instance : ExactCodec NodeUid where
  ofJson?_toJson uid := by
    unfold instJsonCodecNodeUid
    dsimp only
    rw [Json.fields?_record (by decide) (by simp)]
    simp [List.lookup_cons]
  toJson_ne_null _ := nofun

instance : ExactCodec PipelineGroup where
  ofJson?_toJson group := by
    unfold instJsonCodecPipelineGroup
    dsimp only
    rw [Json.fields?_record (by decide) (by simp)]
    simp [List.lookup_cons]
  toJson_ne_null _ := nofun

instance : ExactCodec PipelineGroupUsage where
  ofJson?_toJson usage := by
    unfold instJsonCodecPipelineGroupUsage
    dsimp only
    rw [Json.fields?_record (by decide) (by simp)]
    simp [List.lookup_cons]
  toJson_ne_null _ := nofun

section Records

variable [ScalarTexts] [LawfulScalarTexts]

instance : ExactCodec Execution where
  ofJson?_toJson e := by
    unfold instJsonCodecExecution
    dsimp only
    rw [Json.fields?_record (by decide) (by simp)]
    simp [List.lookup_cons]
  toJson_ne_null _ := nofun

instance : ExactCodec Event where
  ofJson?_toJson e := by
    unfold instJsonCodecEvent
    dsimp only
    rw [Json.fields?_record (by decide)]
    · simp [List.lookup_cons, Json.lookup_optionalMember]
    · rw [List.map_append]
      exact .append (.refl _) (Json.names_optionalMember _ _)
  toJson_ne_null _ := nofun

instance : ExactCodec RecencyRule where
  ofJson?_toJson rule := by
    unfold instJsonCodecRecencyRule
    dsimp only
    rw [Json.fields?_record (by decide) (by simp)]
    simp [List.lookup_cons]
  toJson_ne_null _ := nofun

instance : ExactCodec Grouping where
  ofJson?_toJson g := by
    unfold instJsonCodecGrouping
    dsimp only
    rw [Json.fields?_record (by decide) (by simp)]
    simp [List.lookup_cons]
  toJson_ne_null _ := nofun

instance : ExactCodec GroupRule where
  ofJson?_toJson rule := by
    unfold instJsonCodecGroupRule
    dsimp only
    rw [Json.fields?_record (by decide) (by simp)]
    simp [List.lookup_cons]
  toJson_ne_null _ := nofun

instance : ExactCodec Policy where
  ofJson?_toJson policy := by
    unfold instJsonCodecPolicy
    dsimp only
    rw [Json.fields?_record (by decide)]
    · simp [List.lookup_append, Json.lookup_optionalMember]
    · rw [List.map_append, List.map_append]
      exact .append (.append (Json.names_optionalMember _ _) (Json.names_optionalMember _ _))
        (Json.names_optionalMember _ _)
  toJson_ne_null _ := nofun

instance : ExactCodec OutputSpec where
  ofJson?_toJson spec := by
    unfold instJsonCodecOutputSpec
    dsimp only
    rw [Json.fields?_record (by decide) (Json.names_optionalMember _ _)]
    simp [Json.lookup_optionalMember]
  toJson_ne_null _ := nofun

instance : ExactCodec NodeSpec where
  ofJson?_toJson node := by
    unfold instJsonCodecNodeSpec
    dsimp only
    rw [Json.fields?_record (by decide) (by simp)]
    simp [List.lookup_cons]
  toJson_ne_null _ := nofun

instance : ExactCodec PurgeReport where
  ofJson?_toJson report := by
    unfold instJsonCodecPurgeReport
    dsimp only [PurgeReport.members]
    rw [Json.fields?_record (by decide) (by simp)]
    simp [List.lookup_cons]
  toJson_ne_null _ := nofun

end Records

/-! ### Outcomes -/

section Outcomes

variable [ScalarTexts]

/-- Written identifiers can be held, one level deep. -/
theorem holdable_ids {kind : RecordKind} (ids : List (Id kind)) :
    (toJson ids).isHoldable = true ∧ (toJson ids).depth = 1 := by
  have hitems : Json.isHoldable.areItemsHoldable (ids.map toJson) = true ∧
      Json.depth.depthOfItems (ids.map toJson) = 0 := by
    induction ids with
    | nil => exact ⟨rfl, rfl⟩
    | cons id ids ih =>
      obtain ⟨hholdable, hdepth⟩ := ih
      rw [List.map_cons, Json.isHoldable.areItemsHoldable, Json.depth.depthOfItems, hdepth,
        hholdable]
      exact ⟨rfl, rfl⟩
  obtain ⟨hholdable, hdepth⟩ := hitems
  constructor
  · exact hholdable
  · change Json.depth.depthOfItems (ids.map toJson) + 1 = 1
    rw [hdepth]

/-- The name of an outcome in JSON. -/
def Outcome.jsonName : Outcome → String
  | .noPolicy => "no_policy"
  | .collected _ => "collected"
  | .aborted .. => "aborted"

/-- The members that an outcome has beside its name. -/
def Outcome.members : Outcome → List (String × Json)
  | .noPolicy => []
  | .collected report => report.members
  | .aborted kind message => [("kind", toJson kind), ("message", toJson message)]

/-- The name of an outcome stands in its tag, in front of its members. -/
theorem toJson_outcome (o : Outcome) :
    toJson o = .record (("outcome", .text o.jsonName) :: o.members) := by
  cases o <;> rfl

/-- A written outcome is taken apart into its name and its members. -/
theorem tagged?_outcome (o : Outcome) :
    (toJson o).tagged? "outcome" = some (o.jsonName, .record o.members) := by
  rw [toJson_outcome]
  cases o <;> simp [Json.tagged?, Json.record, Json.text, Outcome.members, PurgeReport.members]

/-- A written outcome can be held until its name is known. -/
theorem holdable_outcome (o : Outcome) :
    (toJson o).isHoldable = true ∧ (toJson o).depth ≤ 2 := by
  rw [toJson_outcome]
  cases o with
  | noPolicy => exact ⟨rfl, Nat.le_succ 1⟩
  | collected report =>
    obtain ⟨hdeleted, hdeletedDepth⟩ := holdable_ids report.deleted
    obtain ⟨hexternal, hexternalDepth⟩ := holdable_ids report.markedExternal
    obtain ⟨hfailed, hfailedDepth⟩ := holdable_ids report.failed
    simp only [Outcome.members, PurgeReport.members, Json.record, List.map_cons, List.map_nil,
      Json.isHoldable, Json.isHoldable.areMembersHoldable, Json.depth,
      Json.depth.depthOfMembers, Json.text, hdeleted, hexternal, hfailed, hdeletedDepth,
      hexternalDepth, hfailedDepth]
    exact ⟨rfl, by decide⟩
  | aborted kind message =>
    simp [Outcome.members, Json.record, Json.isHoldable, Json.isHoldable.areMembersHoldable,
      Json.depth, Json.depth.depthOfMembers, Json.text, toJson]

instance [LawfulScalarTexts] : ExactCodec Outcome where
  ofJson?_toJson o := by
    have htag := tagged?_outcome o
    obtain ⟨hholdable, hdepth⟩ := holdable_outcome o
    have hheld : ¬ (Json.maxHeldDepth < (toJson o).depth ∨ ¬ (toJson o).isHoldable = true) := by
      rintro (hdeep | hloose)
      · simp only [Json.maxHeldDepth] at hdeep
        omega
      · exact hloose hholdable
    generalize toJson o = j at htag hheld
    unfold instJsonCodecOutcome
    dsimp only
    rw [if_neg hheld, htag]
    cases o with
    | noPolicy => rfl
    | collected report =>
      have hreport : ofJson? (Json.record report.members) = some report := ofJson?_toJson report
      simp [Outcome.jsonName, Outcome.members, hreport]
    | aborted kind message =>
      have hfields : (Json.record [("kind", toJson kind), ("message", toJson message)]).fields?
          ["kind", "message"] = some fun name =>
            [("kind", toJson kind), ("message", toJson message)].lookup name :=
        Json.fields?_record (by decide) (.refl _)
      have hkind : (toJson kind).heldChoice?.bind FailureKind.ofJsonName? = some kind := by
        cases kind <;> rfl
      simp [Outcome.jsonName, Outcome.members, hfields, List.lookup_cons, hkind]
  toJson_ne_null o := by
    rw [toJson_outcome]
    nofun

end Outcomes

end ArtifactGC
