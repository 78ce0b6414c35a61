import ArtifactGC.Json

/-!
# Reading JSON text

The grammar is that of RFC 8259 and nothing more: no text after the value, no comments, no raw
control characters in strings, no leading zeros. Each reader takes the characters that are left
and answers with what it read and what remains. Values nest without limit, so `readValue?` and
its companions count down a number of steps that the length of the text bounds.
-/

namespace ArtifactGC.Json

/-- The characters that may stand between tokens. -/
def isSpace (c : Char) : Bool := c = ' ' || c = '\n' || c = '\t' || c = '\r'

/-- The text without the blanks in front of it. -/
def skipSpace (cs : List Char) : List Char := cs.dropWhile isSpace

/-- The value of a hexadecimal digit in either case. -/
def hexValue? (c : Char) : Option Nat :=
  if '0' ≤ c ∧ c ≤ '9' then some (c.toNat - '0'.toNat)
  else if 'a' ≤ c ∧ c ≤ 'f' then some (c.toNat - 'a'.toNat + 10)
  else if 'A' ≤ c ∧ c ≤ 'F' then some (c.toNat - 'A'.toNat + 10)
  else none

/-- The code that the character after a backslash stands for, escapes by number apart. -/
def escapeValue? : Char → Option Nat
  | '"' => some 0x22
  | '\\' => some 0x5c
  | '/' => some 0x2f
  | 'b' => some 0x08
  | 'f' => some 0x0c
  | 'n' => some 0x0a
  | 'r' => some 0x0d
  | 't' => some 0x09
  | _ => none

/-- Reads the rest of a string after its opening quote. Characters and escapes are answered as
code points and halves of surrogate pairs. -/
def readCodes? : List Char → Option (List Nat × List Char)
  | [] => none
  | '"' :: rest => some ([], rest)
  | '\\' :: 'u' :: a :: b :: c :: d :: rest => do
    let code := (((← hexValue? a) * 16 + (← hexValue? b)) * 16 + (← hexValue? c)) * 16 +
      (← hexValue? d)
    let (codes, rest) ← readCodes? rest
    some (code :: codes, rest)
  | '\\' :: e :: rest => do
    let code ← escapeValue? e
    let (codes, rest) ← readCodes? rest
    some (code :: codes, rest)
  | c :: rest =>
    if c.toNat < 0x20 then none
    else do
      let (codes, rest) ← readCodes? rest
      some (c.toNat :: codes, rest)

/-- The characters of a list of code points in which surrogates stand in pairs. -/
def pairSurrogates? : List Nat → Option (List Char)
  | [] => some []
  | [code] =>
    if code < 0xd800 ∨ 0xdfff < code then some [.ofNat code] else none
  | code :: next :: codes =>
    if code < 0xd800 ∨ 0xdfff < code then
      (pairSurrogates? (next :: codes)).map (.ofNat code :: ·)
    else if code < 0xdc00 ∧ 0xdc00 ≤ next ∧ next ≤ 0xdfff then
      (pairSurrogates? codes).map
        (.ofNat (0x10000 + (code - 0xd800) * 0x400 + (next - 0xdc00)) :: ·)
    else none

/-- Reads a string after its opening quote. -/
def readString? (cs : List Char) : Option (Option String × List Char) := do
  let (codes, rest) ← readCodes? cs
  some ((pairSurrogates? codes).map String.ofList, rest)

/-- Splits a text after its leading digits. -/
def splitDigits (cs : List Char) : List Char × List Char :=
  (cs.takeWhile Char.isDigit, cs.dropWhile Char.isDigit)

/-- Reads the digits behind the point of a number, if there is a point. -/
def readFraction? (cs : List Char) : Option (List Char × List Char) :=
  match cs with
  | '.' :: rest =>
    let (digits, rest) := splitDigits rest
    if digits.isEmpty then none else some (digits, rest)
  | cs => some ([], cs)

/-- Reads the digits of an exponent after its sign. -/
def readExponentDigits? (sign : Int) (cs : List Char) : Option (Option Int × List Char) :=
  let (digits, rest) := splitDigits cs
  if digits.isEmpty then none else some (some (sign * Nat.ofDigitChars 10 digits 0), rest)

/-- Reads the exponent of a number, if it has one. -/
def readExponent? (cs : List Char) : Option (Option Int × List Char) :=
  match cs with
  | c :: rest =>
    if c = 'e' ∨ c = 'E' then
      match rest with
      | '+' :: rest => readExponentDigits? 1 rest
      | '-' :: rest => readExponentDigits? (-1) rest
      | rest => readExponentDigits? 1 rest
    else some (none, c :: rest)
  | [] => some (none, [])

/-- Reads a number after its sign. -/
def readUnsigned? (negative : Bool) (cs : List Char) : Option (Json × List Char) := do
  let (whole, cs) := splitDigits cs
  if whole.isEmpty ∨ (whole.head? = some '0' ∧ 1 < whole.length) then none
  let (fraction, cs) ← readFraction? cs
  let (exponent, cs) ← readExponent? cs
  some (.number ⟨negative, Nat.ofDigitChars 10 (whole ++ fraction) 0, fraction.length, exponent⟩,
    cs)

/-- Reads a number. -/
def readNumber? (cs : List Char) : Option (Json × List Char) :=
  match cs with
  | '-' :: rest => readUnsigned? true rest
  | cs => readUnsigned? false cs

mutual

/-- Reads a value after blanks. -/
def readValue? : (steps : Nat) → List Char → Option (Json × List Char)
  | 0, _ => none
  | steps + 1, cs =>
    match skipSpace cs with
    | 'n' :: 'u' :: 'l' :: 'l' :: rest => some (.null, rest)
    | 't' :: 'r' :: 'u' :: 'e' :: rest => some (.bool true, rest)
    | 'f' :: 'a' :: 'l' :: 's' :: 'e' :: rest => some (.bool false, rest)
    | '"' :: rest => do
      let (s, rest) ← readString? rest
      some (.string s, rest)
    | '[' :: rest =>
      match skipSpace rest with
      | ']' :: rest => some (.array [], rest)
      | rest => do
        let (items, rest) ← readItems? steps rest
        some (.array items, rest)
    | '\x7b' :: rest =>
      match skipSpace rest with
      | '\x7d' :: rest => some (.object [], rest)
      | rest => do
        let (members, rest) ← readMembers? steps rest
        some (.object members, rest)
    | cs => readNumber? cs

/-- Reads the items of a list that has at least one more, and its closing bracket. -/
def readItems? : (steps : Nat) → List Char → Option (List Json × List Char)
  | 0, _ => none
  | steps + 1, cs => do
    let (item, cs) ← readValue? steps cs
    match skipSpace cs with
    | ',' :: rest => do
      let (items, rest) ← readItems? steps rest
      some (item :: items, rest)
    | ']' :: rest => some ([item], rest)
    | _ => none

/-- Reads the members of an object that has at least one more, and its closing bracket. -/
def readMembers? : (steps : Nat) → List Char → Option (List (Option String × Json) × List Char)
  | 0, _ => none
  | steps + 1, cs =>
    match skipSpace cs with
    | '"' :: rest => do
      let (name, rest) ← readString? rest
      match skipSpace rest with
      | ':' :: rest => do
        let (value, rest) ← readValue? steps rest
        match skipSpace rest with
        | ',' :: rest => do
          let (members, rest) ← readMembers? steps rest
          some ((name, value) :: members, rest)
        | '\x7d' :: rest => some ([(name, value)], rest)
        | _ => none
      | _ => none
    | _ => none

end

/-- The value that a text holds, if it holds exactly one. -/
def parse? (text : String) : Option Json := do
  let cs := text.toList
  let (value, rest) ← readValue? (2 * cs.length + 1) cs
  if (skipSpace rest).isEmpty then some value else none

end ArtifactGC.Json
