import Syntagm.Unicode.Property

/-!
# Quoted texts

How a text is shown in a message or a printed tree: between double quotes, with every
character that would not show as itself written as an escape.
-/

namespace Syntagm.Text

/-- An escape by code point, in hexadecimal without leading zeros. -/
def codePointEscape (c : Char) : List Char :=
  ['\\', 'u', '{'] ++ Nat.toDigits 16 c.toNat ++ ['}']

/-- One character between double quotes.  Characters that are not printable and those that
combine with the character in front are written by code point. -/
def quotedCharacter (c : Char) : List Char :=
  match c with
  | '\x00' => ['\\', '0']
  | '\t' => ['\\', 't']
  | '\n' => ['\\', 'n']
  | '\r' => ['\\', 'r']
  | '\\' => ['\\', '\\']
  | '"' => ['\\', '"']
  | _ =>
    if Unicode.isGraphemeExtender c || !Unicode.isPrintable c then codePointEscape c else [c]

/-- A text between double quotes. -/
def quoted (text : String) : String :=
  String.ofList (['"'] ++ text.toList.flatMap quotedCharacter ++ ['"'])

end Syntagm.Text
