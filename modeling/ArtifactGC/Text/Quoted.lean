import ArtifactGC.Text.Printable

/-!
# Quoted text

The readable form of a text value stands in double quotes. Quotes, backslashes and the common
controls have short escapes; any other character without a visible form of its own is written
as its code point in hexadecimal digits between braces.
-/

namespace ArtifactGC.Text

/-- One character as it stands between double quotes. -/
def quotedChar (c : Char) : List Char :=
  match c with
  | '\x00' => ['\\', '0']
  | '\t' => ['\\', 't']
  | '\r' => ['\\', 'r']
  | '\n' => ['\\', 'n']
  | '"' => ['\\', '"']
  | '\\' => ['\\', '\\']
  | c =>
    if isPrintable c then [c]
    else ['\\', 'u', '\x7b'] ++ Nat.toDigits 16 c.toNat ++ ['\x7d']

/-- A text in double quotes. -/
def quoted (text : String) : String :=
  String.ofList ('"' :: text.toList.flatMap quotedChar ++ ['"'])

end ArtifactGC.Text
