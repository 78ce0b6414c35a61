import ArtifactGC.Codec.Scalar
import ArtifactGC.Node

/-!
# Policies and node declarations in JSON

Numbers, orders and lists have defaults when they are not given. An order whose name is not
known is read as unrecognized and written as such. Rules that a policy does not set are left
out.
-/

namespace ArtifactGC

variable [ScalarTexts]

namespace KeepOrder

/-- The name of an order in JSON. -/
def jsonName : KeepOrder → String
  | .unspecified => "KEEP_ORDER_UNSPECIFIED"
  | .largest => "KEEP_ORDER_LARGEST"
  | .smallest => "KEEP_ORDER_SMALLEST"
  | .unrecognized => "KEEP_ORDER_UNRECOGNIZED"

/-- The order of a name in JSON; any name that is not known is unrecognized. -/
def ofJsonName : String → KeepOrder
  | "KEEP_ORDER_UNSPECIFIED" => .unspecified
  | "KEEP_ORDER_LARGEST" => .largest
  | "KEEP_ORDER_SMALLEST" => .smallest
  | _ => .unrecognized

end KeepOrder

instance : JsonCodec KeepOrder where
  toJson order := .text order.jsonName
  ofJson? j := j.choice?.map KeepOrder.ofJsonName

instance : JsonCodec RecencyRule where
  toJson rule := .record [("num_artifacts", toJson rule.numArtifacts)]
  ofJson? j := do
    let field ← j.fields? ["num_artifacts"]
    some { numArtifacts := ← Json.withDefault 0 (field "num_artifacts") }

instance : JsonCodec Grouping where
  toJson g := .record [("property_name", toJson g.propertyName), ("keep_num", toJson g.keepNum),
    ("keep_order", toJson g.keepOrder)]
  ofJson? j := do
    let field ← j.fields? ["property_name", "keep_num", "keep_order"]
    some {
      propertyName := ← Json.required (field "property_name")
      keepNum := ← Json.withDefault 0 (field "keep_num")
      keepOrder := ← Json.withDefault .unspecified (field "keep_order") }

instance : JsonCodec GroupRule where
  toJson rule := .record [("groupings", toJson rule.groupings)]
  ofJson? j := do
    let field ← j.fields? ["groupings"]
    some { groupings := ← Json.withDefault [] (field "groupings") }

instance : JsonCodec PipelineGroup where
  toJson group := .record [("pipeline_ids", toJson group.pipelineIds)]
  ofJson? j := do
    let field ← j.fields? ["pipeline_ids"]
    some { pipelineIds := ← Json.withDefault [] (field "pipeline_ids") }

instance : JsonCodec PipelineGroupUsage where
  toJson usage := .record [("pipeline_groups", toJson usage.pipelineGroups)]
  ofJson? j := do
    let field ← j.fields? ["pipeline_groups"]
    some { pipelineGroups := ← Json.withDefault [] (field "pipeline_groups") }

instance : JsonCodec Policy where
  toJson policy := .record <|
    Json.optionalMember "keep_most_recently_published" policy.recency ++
      Json.optionalMember "keep_property_value_groups" policy.groups ++
      Json.optionalMember "keep_if_used_in_pipeline_groups" policy.usage
  ofJson? j := do
    let field ← j.fields? ["keep_most_recently_published", "keep_property_value_groups",
      "keep_if_used_in_pipeline_groups"]
    some {
      recency := ← Json.withDefault none (field "keep_most_recently_published")
      groups := ← Json.withDefault none (field "keep_property_value_groups")
      usage := ← Json.withDefault none (field "keep_if_used_in_pipeline_groups") }

instance : JsonCodec NodeUid where
  toJson uid := .record [("pipeline_id", toJson uid.pipelineId), ("node_id", toJson uid.nodeId)]
  ofJson? j := do
    let field ← j.fields? ["pipeline_id", "node_id"]
    some {
      pipelineId := ← Json.required (field "pipeline_id")
      nodeId := ← Json.required (field "node_id") }

instance : JsonCodec OutputSpec where
  toJson spec := .record (Json.optionalMember "garbage_collection_policy" spec.policy)
  ofJson? j := do
    let field ← j.fields? ["garbage_collection_policy"]
    some { policy := ← Json.withDefault none (field "garbage_collection_policy") }

instance : JsonCodec NodeSpec where
  toJson node := .record [("id", toJson node.id), ("outputs", toJson node.outputs)]
  ofJson? j := do
    let field ← j.fields? ["id", "outputs"]
    some {
      id := ← Json.required (field "id")
      outputs := ← Json.withDefault .empty (field "outputs") }

end ArtifactGC
