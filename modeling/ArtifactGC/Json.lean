/-!
# JSON values

A value as its text gives it: numbers keep the form of their literal, members keep their order
and their repetitions. A string that names half of a surrogate pair holds no text; it may stand
where a value is skipped, and nowhere else.
-/

namespace ArtifactGC

/-- A number literal: `± coefficient * 10 ^ -places`, and the exponent if it has one. -/
structure NumberLiteral where
  /-- Whether it starts with a minus sign. -/
  negative : Bool
  /-- All digits before the exponent, read as one number. -/
  coefficient : Nat
  /-- How many of the digits stand behind the point. -/
  places : Nat
  /-- The exponent. -/
  exponent : Option Int
deriving DecidableEq, Repr

/-- The literal of an integer. -/
def NumberLiteral.ofInt (n : Int) : NumberLiteral := ⟨n < 0, n.natAbs, 0, none⟩

/-- A JSON value. -/
inductive Json where
  /-- The value `null`. -/
  | null
  /-- The values `true` and `false`. -/
  | bool (value : Bool)
  /-- A number. -/
  | number (literal : NumberLiteral)
  /-- A string, with the text that it holds, if it holds one. -/
  | string (text? : Option String)
  /-- A list. -/
  | array (items : List Json)
  /-- An object with its members in the order of the text. -/
  | object (members : List (Option String × Json))
deriving Inhabited, Repr

namespace Json

/-- The string that holds a text. -/
def text (s : String) : Json := .string (some s)

/-- The object with the given members. -/
def record (members : List (String × Json)) : Json :=
  .object (members.map fun m => (some m.1, m.2))

/-- The levels of lists and objects in a value. -/
def depth : Json → Nat
  | .array items => depthOfItems items + 1
  | .object members => depthOfMembers members + 1
  | _ => 0
where
  /-- The largest depth of a list of values. -/
  depthOfItems : List Json → Nat
    | [] => 0
    | item :: items => max item.depth (depthOfItems items)
  /-- The largest depth of the values of members. -/
  depthOfMembers : List (Option String × Json) → Nat
    | [] => 0
    | (_, value) :: members => max value.depth (depthOfMembers members)

end Json

end ArtifactGC
