import Syntagm.Text.Position
import Syntagm.Word

/-!
# The lines of one text

A line index lists the byte offset at which each line of a text starts.  With it offsets and
positions are turned into each other without reading the text again.
-/

namespace Syntagm.Text

/-- Where the lines of a text start, in ascending order, and the length of the text. -/
structure LineIndex where
  starts : List Nat
  length : Nat
  deriving DecidableEq, Repr, Inhabited

namespace LineIndex

/-- The offsets after each line break of a text that itself starts at `offset`. -/
def startsAfterBreaks (offset : Nat) : List Char → List Nat
  | [] => []
  | '\r' :: '\n' :: rest => (offset + 2) :: startsAfterBreaks (offset + 2) rest
  | c :: rest =>
    let next := offset + c.utf8Size
    if isLineBreak c then next :: startsAfterBreaks next rest
    else startsAfterBreaks next rest

/-- The line index of a text. -/
def ofText (text : List Char) : LineIndex :=
  ⟨0 :: startsAfterBreaks 0 text, byteLength text⟩

def lineCount (index : LineIndex) : Nat := index.starts.length

/-- The position of an offset: the last line that starts at or before it.  An offset past the
end counts as the end. -/
def position (index : LineIndex) (offset : Nat) : Position :=
  let offset := min offset index.length
  let upTo := index.starts.takeWhile (· ≤ offset)
  ⟨upTo.length - 1, offset - upTo.getLastD 0⟩

/-- The offset of a position.  The line must exist, and the column must not reach past the
start of the next line or the end of the text.  Offsets and columns are words of 32 bits, and
a larger column is cut down to its low bits.  The sum of the start and of what is left of the column
is formed modulo the size of the word; a program that checks its sums stops where it is no word
(`offsetIn?`). -/
def offset? (index : LineIndex) (position : Position) : Option Nat := do
  let start ← index.starts[position.line]?
  let stop := (index.starts[position.line + 1]?).getD index.length
  let offset := (start.toUInt32 + position.column.toUInt32).toNat
  if offset ≤ stop then some offset else none

/-- The offset of a position, if there is one, unless the program stops. -/
def offsetIn? (index : LineIndex) (arithmetic : Arithmetic) (position : Position) :
    Option (Option Nat) :=
  match index.starts[position.line]? with
  | none => some none
  | some start => do
    let offset ← arithmetic.sum? UInt32.size start position.column.toUInt32.toNat
    let stop := (index.starts[position.line + 1]?).getD index.length
    return if offset ≤ stop then some offset else none

/-- The line and column span of a byte range. -/
def span (index : LineIndex) (range : Range) : Span :=
  ⟨index.position range.start, index.position range.stop⟩

end LineIndex

end Syntagm.Text
