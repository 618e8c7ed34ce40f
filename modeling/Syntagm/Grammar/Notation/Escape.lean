import Syntagm.Text.Digit

/-!
# Escapes of the grammar notation

Strings write some characters as escapes: a backslash and one of `n t r 0 \ "`, or `x` and
two hexadecimal digits, or `u` and hexadecimal digits between braces.  Patterns keep their
own escapes as written; only the slash, which would end them, is written `\/`.
-/

namespace Syntagm.Notation

/-- The number an escape writes in hexadecimal.  A plus sign may stand in front. -/
def escapedNumber? : List Char → Option Nat
  | '+' :: digits => Text.hexNumber? digits
  | digits => Text.hexNumber? digits

/-- Resolves the escapes of a string, unless one is malformed.  The escape `x` takes the two
characters after it, or as many as there are, and the escape `u` everything up to its closing
brace, or to the end of the string. -/
def unescapeString : List Char → Option (List Char)
  | [] => some []
  | '\\' :: 'n' :: rest => (unescapeString rest).map ('\n' :: ·)
  | '\\' :: 't' :: rest => (unescapeString rest).map ('\t' :: ·)
  | '\\' :: 'r' :: rest => (unescapeString rest).map ('\r' :: ·)
  | '\\' :: '0' :: rest => (unescapeString rest).map ('\x00' :: ·)
  | '\\' :: '\\' :: rest => (unescapeString rest).map ('\\' :: ·)
  | '\\' :: '"' :: rest => (unescapeString rest).map ('"' :: ·)
  | '\\' :: 'x' :: rest => do
    let c ← (escapedNumber? (rest.take 2)).bind Text.scalar?
    return c :: (← unescapeString (rest.drop 2))
  | '\\' :: 'u' :: '{' :: rest => do
    let c ← (escapedNumber? (rest.takeWhile (· ≠ '}'))).bind Text.scalar?
    return c :: (← unescapeString (rest.drop ((rest.takeWhile (· ≠ '}')).length + 1)))
  | '\\' :: _ => none
  | c :: rest => (unescapeString rest).map (c :: ·)
termination_by text => text.length
decreasing_by all_goals simp <;> omega

/-- Resolves the escaped slashes of a pattern. -/
def unescapePattern : List Char → List Char
  | '\\' :: '/' :: rest => '/' :: unescapePattern rest
  | c :: rest => c :: unescapePattern rest
  | [] => []

end Syntagm.Notation
