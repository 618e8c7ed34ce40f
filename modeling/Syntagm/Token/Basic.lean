import Syntagm.Diagnostic.Basic
import Syntagm.Kind.Basic
import Syntagm.Lexicon.Scan
import Syntagm.Text.Position

/-!
# Tokens

A token is a stretch of a text with a kind.  The tokens of a text follow each other without
gap from its start to its end.  Tokens do not hold their text; `Tokens.covers` says whether
tokens can be those of a given text.
-/

namespace Syntagm

namespace Unterminated

/-- The code of the diagnostic for a block or string that is not closed. -/
def code (fault : Unterminated) : DiagnosticCode :=
  match fault.construct with
  | .nestedComment => .unterminatedBlock
  | .delimitedString | .quotedString => .unterminatedString

/-- What is wrong, in words. -/
def message (fault : Unterminated) : String :=
  let construct := fault.construct.name
  let opening := fault.opening
  let closing := fault.closing
  s!"Unterminated {construct}: `{opening}` is never closed by `{closing}`"

/-- The diagnostic for a block or string that starts at an offset; it points at the opening
delimiter. -/
def diagnostic (fault : Unterminated) (offset : Nat) : Diagnostic :=
  let closing := fault.closing
  (Diagnostic.ofCode fault.code).withMessage fault.message
    |>.withRange (Text.Range.ofLength offset (Text.byteLength fault.opening.toList))
    |>.withHint s!"add `{closing}` to close it"

end Unterminated

/-- A stretch of a text with a kind. -/
structure Token where
  kind : Kind
  range : Text.Range
  /-- The line and column of the first character. -/
  start : Text.Position
  /-- Whether the parser skips the token. -/
  isExtra : Bool
  error : Option Unterminated
  deriving DecidableEq, Repr, Inhabited, Hashable

/-- The tokens of a text, and the length of the text in bytes. -/
structure Tokens where
  list : List Token
  textLength : Nat
  deriving DecidableEq, Repr, Inhabited

namespace Tokens

/-- The tokens that the parser does not skip. -/
def significant (tokens : Tokens) : List Token := tokens.list.filter (!·.isExtra)

/-- The diagnostics for faulty tokens. -/
def diagnostics (tokens : Tokens) : List Diagnostic :=
  tokens.list.filterMap fun token => token.error.map fun fault => fault.diagnostic token.range.start

/-- Whether tokens follow each other from an offset to the end of the text that is left, and
end where characters do. -/
def tile (offset : Nat) (text : List Char) : List Token → Bool
  | [] => text.isEmpty
  | token :: rest =>
    token.range.start == offset && token.range.start ≤ token.range.stop &&
      match Text.splitBytes? text token.range.length with
      | some (_, others) => tile token.range.stop others rest
      | none => false

/-- Whether tokens follow each other from the start of a text to its end. -/
def covers (tokens : Tokens) (text : List Char) : Bool :=
  tile 0 text tokens.list && tokens.textLength == Text.byteLength text

/-- The texts of tokens that follow each other. -/
def cut (text : List Char) : List Token → List (List Char)
  | [] => []
  | token :: rest =>
    match Text.splitBytes? text token.range.length with
    | some (part, others) => part :: cut others rest
    | none => text :: cut [] rest

end Tokens

end Syntagm
