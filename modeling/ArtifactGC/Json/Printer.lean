import ArtifactGC.Json
import ArtifactGC.Text.Blank

/-!
# The text of a JSON value

A value is printed on one line without blanks, or with one item or member per line, indented by
two blanks per level. Only quotes, backslashes and characters below U+0020 are escaped in
strings. The two layouts differ in the blanks between tokens and in nothing else.
-/

namespace ArtifactGC.Json

/-- The blanks between the tokens of a printed value. -/
structure Layout where
  /-- What stands before an item, a member or a closing bracket at a level. -/
  gap : (level : Nat) → List Char
  /-- What stands between the name and the value of a member. -/
  colon : List Char

/-- No blanks at all. -/
def Layout.compact : Layout := ⟨fun _ => [], [':']⟩

/-- One line per item or member, indented by two blanks per level. -/
def Layout.pretty : Layout := ⟨fun level => '\n' :: List.replicate (2 * level) ' ', [':', ' ']⟩

/-- The hexadecimal digit of a value below 16. -/
def hexDigit (n : Nat) : Char := "0123456789abcdef".toList.getD n '0'

/-- One character as it stands inside a string. -/
def escapeChar (c : Char) : List Char :=
  match c with
  | '"' => ['\\', '"']
  | '\\' => ['\\', '\\']
  | '\x08' => ['\\', 'b']
  | '\t' => ['\\', 't']
  | '\n' => ['\\', 'n']
  | '\x0c' => ['\\', 'f']
  | '\r' => ['\\', 'r']
  | c =>
    if c.toNat < 0x20 then ['\\', 'u', '0', '0', hexDigit (c.toNat / 16), hexDigit (c.toNat % 16)]
    else [c]

/-- A string with its quotes; one without text is printed as half of a surrogate pair. -/
def stringChars : Option String → List Char
  | some s => '"' :: s.toList.flatMap escapeChar ++ ['"']
  | none => ['"', '\\', 'u', 'd', '8', '0', '0', '"']

/-- The literal of a number. An exponent always has a sign. -/
def numberChars (n : NumberLiteral) : List Char :=
  let sign := if n.negative then ['-'] else []
  let unit := Nat.pow 10 n.places
  let whole := Nat.toDigits 10 (n.coefficient / unit)
  let fraction :=
    if n.places = 0 then [] else '.' :: Text.padded n.places (n.coefficient % unit)
  let exponent :=
    match n.exponent with
    | none => []
    | some e => 'e' :: (if e < 0 then '-' else '+') :: Nat.toDigits 10 e.natAbs
  sign ++ whole ++ fraction ++ exponent

/-- The characters of a value that stands at a level. -/
def chars (layout : Layout) (level : Nat) : Json → List Char
  | .null => ['n', 'u', 'l', 'l']
  | .bool true => ['t', 'r', 'u', 'e']
  | .bool false => ['f', 'a', 'l', 's', 'e']
  | .number n => numberChars n
  | .string s => stringChars s
  | .array [] => ['[', ']']
  | .array (item :: items) =>
    '[' :: layout.gap (level + 1) ++ item.chars layout (level + 1) ++
      laterItems layout (level + 1) items ++ layout.gap level ++ [']']
  | .object [] => ['\x7b', '\x7d']
  | .object ((name, value) :: members) =>
    '\x7b' :: layout.gap (level + 1) ++ stringChars name ++ layout.colon ++
      value.chars layout (level + 1) ++ laterMembers layout (level + 1) members ++
      layout.gap level ++ ['\x7d']
where
  /-- The items after the first, each behind a comma. -/
  laterItems (layout : Layout) (level : Nat) : List Json → List Char
    | [] => []
    | item :: items =>
      ',' :: layout.gap level ++ item.chars layout level ++ laterItems layout level items
  /-- The members after the first, each behind a comma. -/
  laterMembers (layout : Layout) (level : Nat) : List (Option String × Json) → List Char
    | [] => []
    | (name, value) :: members =>
      ',' :: layout.gap level ++ stringChars name ++ layout.colon ++ value.chars layout level ++
        laterMembers layout level members

/-- The text of a value without blanks. -/
def compact (j : Json) : String := .ofList (j.chars .compact 0)

/-- The text of a value with one line per item or member. -/
def pretty (j : Json) : String := .ofList (j.chars .pretty 0)

end ArtifactGC.Json
