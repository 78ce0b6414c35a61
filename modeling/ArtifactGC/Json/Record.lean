import ArtifactGC.Json
import ArtifactGC.KeyMap

/-!
# Records in JSON

A record is an object with one member per field, or a list of the values of its fields in their
order, of which trailing ones may be absent. Members that are no fields are skipped, but a field
that is given twice makes the record unreadable, and so does a member name that holds no text.
A choice between names is a string, or an object whose single member has the value `null`.
-/

namespace ArtifactGC

/-- Types with a JSON form. -/
class JsonCodec (α : Type) where
  /-- The JSON form of a value. -/
  toJson : α → Json
  /-- The value that a JSON form stands for, if it stands for one. -/
  ofJson? : Json → Option α

export JsonCodec (toJson ofJson?)

namespace Json

/-- How often a field is given among the members of an object. -/
def occurrences (field : String) (members : List (Option String × Json)) : Nat :=
  members.countP fun m => m.1 = some field

/-- The values that a JSON value gives to the fields of a record, if it can be read as one. -/
def fields? (names : List String) : Json → Option (String → Option Json)
  | .object members =>
    if members.all (·.1.isSome) ∧ names.all (occurrences · members ≤ 1) then
      some fun name => members.lookup (some name)
    else none
  | .array items =>
    if items.length ≤ names.length then some fun name => (names.zip items).lookup name else none
  | _ => none

/-- The value of a field that has to be given. -/
def required {α : Type} [JsonCodec α] (field : Option Json) : Option α :=
  field.bind ofJson?

/-- The value of a field that has a default when it is not given. -/
def withDefault {α : Type} [JsonCodec α] (default : α) : (field : Option Json) → Option α
  | none => some default
  | some j => ofJson? j

/-- The name that a JSON value chooses, if it can be read as a choice. -/
def choice? : Json → Option String
  | .string name => name
  | .object [(name, .null)] => name
  | _ => none

/-- The member of a record for a value that is left out when there is none. -/
def optionalMember {α : Type} [JsonCodec α] (name : String) : Option α → List (String × Json)
  | none => []
  | some a => [(name, toJson a)]

end Json

instance : JsonCodec String where
  toJson := Json.text
  ofJson?
    | .string s => s
    | _ => none

instance : JsonCodec Bool where
  toJson := Json.bool
  ofJson?
    | .bool b => some b
    | _ => none

instance {α : Type} [JsonCodec α] : JsonCodec (Option α) where
  toJson
    | none => .null
    | some a => toJson a
  ofJson?
    | .null => some none
    | j => (ofJson? j).map some

/-- The values that all items of a list stand for, if each stands for one. -/
def ofItems? {α : Type} [JsonCodec α] : List Json → Option (List α)
  | [] => some []
  | j :: js => do some ((← ofJson? j) :: (← ofItems? js))

instance {α : Type} [JsonCodec α] : JsonCodec (List α) where
  toJson as := .array (as.map toJson)
  ofJson?
    | .array items => ofItems? items
    | _ => none

/-- The entries that the members of an object stand for, if each stands for one. -/
def ofMembers? {α : Type} [JsonCodec α] :
    List (Option String × Json) → Option (List (String × α))
  | [] => some []
  | (name, j) :: members => do some ((← name, ← ofJson? j) :: (← ofMembers? members))

instance {α : Type} [JsonCodec α] : JsonCodec (KeyMap α) where
  toJson m := .record (m.entries.map fun e => (e.1, toJson e.2))
  ofJson?
    | .object members => (ofMembers? members).map KeyMap.ofList
    | _ => none

end ArtifactGC
