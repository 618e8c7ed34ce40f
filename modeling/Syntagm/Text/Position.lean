import Syntagm.Text.Basic

/-!
# Lines and columns

A position is a line and a column, both counted from zero, the column in bytes.  Lines end
at a line feed, a carriage return, the pair of both, and the line and paragraph separators
U+2028 and U+2029 (`lineBreak?`).  Reading a text moves a position forward
(`Position.advance`).
-/

namespace Syntagm.Text

/-- A line and a column in bytes, both from zero. -/
structure Position where
  line : Nat
  column : Nat
  deriving DecidableEq, Repr, Inhabited, Hashable

/-- The characters that end a line. -/
def isLineBreak (c : Char) : Bool :=
  c == '\n' || c == '\r' || c == '\u2028' || c == '\u2029'

/-- The number of characters of the line break that a text starts with, if it does. -/
def lineBreak? : List Char → Option Nat
  | '\r' :: '\n' :: _ => some 2
  | c :: _ => if isLineBreak c then some 1 else none
  | [] => none

namespace Position

/-- Where every text begins. -/
def origin : Position := ⟨0, 0⟩

/-- The start of the next line. -/
def nextLine (position : Position) : Position := ⟨position.line + 1, 0⟩

/-- The position reached by reading a text from `position` on. -/
def advance (position : Position) : List Char → Position
  | [] => position
  | '\r' :: '\n' :: rest => position.nextLine.advance rest
  | c :: rest =>
    if isLineBreak c then position.nextLine.advance rest
    else advance { position with column := position.column + c.utf8Size } rest

/-- Whether a position is not after another one: by line, then by column. -/
def isUpTo (first second : Position) : Bool :=
  decide (first.line < second.line ∨
    (first.line = second.line ∧ first.column ≤ second.column))

end Position

/-- Two positions that bound a stretch of text. -/
structure Span where
  start : Position
  stop : Position
  deriving DecidableEq, Repr, Inhabited

namespace Span

/-- Whether a position lies in the span; its end belongs to it. -/
def contains (span : Span) (position : Position) : Bool :=
  span.start.isUpTo position && position.isUpTo span.stop

def isEmpty (span : Span) : Bool := span.start == span.stop

end Span

end Syntagm.Text
