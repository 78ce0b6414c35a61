import ArtifactGC.Codec.Scalar
import ArtifactGC.Artifact

/-!
# Artifacts in JSON

A property value is an object whose single member names the kind of the value. Property maps
without entries are left out of an artifact.
-/

namespace ArtifactGC

variable [ScalarTexts]

namespace ValueKind

/-- The name of a kind in JSON. -/
def jsonName : ValueKind → String
  | .int => "INT"
  | .double => "DOUBLE"
  | .string => "STRING"
  | .bool => "BOOL"

/-- The kind of a name in JSON. -/
def ofJsonName? : String → Option ValueKind
  | "INT" => some .int
  | "DOUBLE" => some .double
  | "STRING" => some .string
  | "BOOL" => some .bool
  | _ => none

end ValueKind

instance : JsonCodec ValueKind where
  toJson kind := .text kind.jsonName
  ofJson? j := j.choice?.bind ValueKind.ofJsonName?

instance : JsonCodec PropertyValue where
  toJson
    | .int n => .record [("int", toJson n)]
    | .double d => .record [("double", toJson d)]
    | .string s => .record [("string", toJson s)]
    | .bool b => .record [("bool", toJson b)]
  ofJson?
    | .object [(some "int", j)] => (ofJson? j).map .int
    | .object [(some "double", j)] => (ofJson? j).map .double
    | .object [(some "string", j)] => (ofJson? j).map .string
    | .object [(some "bool", j)] => (ofJson? j).map .bool
    | _ => none

namespace ArtifactState

/-- The name of a state in JSON. -/
def jsonName : ArtifactState → String
  | .live => "LIVE"
  | .deleted => "DELETED"

/-- The state of a name in JSON. -/
def ofJsonName? : String → Option ArtifactState
  | "LIVE" => some .live
  | "DELETED" => some .deleted
  | _ => none

end ArtifactState

instance : JsonCodec ArtifactState where
  toJson state := .text state.jsonName
  ofJson? j := j.choice?.bind ArtifactState.ofJsonName?

/-- The member of a record for a map that is left out when it is empty. -/
def nonemptyMember {α : Type} [JsonCodec α] (name : String) (m : KeyMap α) :
    List (String × Json) :=
  if m.isEmpty then [] else [(name, toJson m)]

instance : JsonCodec Artifact where
  toJson a := .record <|
    [("id", toJson a.id), ("uri", toJson a.uri), ("create_time", toJson a.createTime)] ++
      nonemptyMember "properties" a.properties ++
      nonemptyMember "custom_properties" a.customProperties ++
      [("state", toJson a.state)]
  ofJson? j := do
    let field ← j.fields?
      ["id", "uri", "create_time", "properties", "custom_properties", "state"]
    some {
      id := ← Json.required (field "id")
      uri := ← Json.required (field "uri")
      createTime := ← Json.required (field "create_time")
      properties := ← Json.withDefault .empty (field "properties")
      customProperties := ← Json.withDefault .empty (field "custom_properties")
      state := ← Json.required (field "state") }

end ArtifactGC
