import Syntagm.Text.Position

/-!
# Edits

An edit replaces a stretch of a text.  It says where the stretch started and ended before and
where its replacement ends after, in bytes and as lines and columns.

Offsets past the end of the text count as its end.  An offset inside a character is no place
to cut at: a beginning of the text that ends there counts as the whole text, and any other
part that starts or ends there as nothing.
-/

namespace Syntagm

/-- A replacement of a stretch of a text. -/
structure Edit where
  start : Nat
  /-- The end of the stretch in the old text. -/
  oldEnd : Nat
  /-- The end of the replacement in the new text. -/
  newEnd : Nat
  startPosition : Text.Position
  oldEndPosition : Text.Position
  newEndPosition : Text.Position
  deriving DecidableEq, Repr, Inhabited, Hashable

namespace Edit

/-- The beginning of a text up to an offset, or the whole text if it cannot end there. -/
def beginning (text : List Char) (stop : Nat) : List Char :=
  ((Text.splitBytes? text stop).map (·.1)).getD text

/-- The end of a text from an offset on, or nothing if it cannot start there. -/
def ending (text : List Char) (start : Nat) : List Char :=
  ((Text.splitBytes? text start).map (·.2)).getD []

/-- The edit that replaces a range of a text. -/
def replacing (oldText : List Char) (range : Text.Range) (replacement : List Char) : Edit :=
  let length := Text.byteLength oldText
  let start := min range.start length
  let oldEnd := min range.stop length
  let startPosition := Text.Position.origin.advance (beginning oldText start)
  let removed := (Text.slice? oldText ⟨start, oldEnd⟩).getD []
  { start := start
    oldEnd := oldEnd
    newEnd := start + Text.byteLength replacement
    startPosition := startPosition
    oldEndPosition := startPosition.advance removed
    newEndPosition := startPosition.advance replacement }

/-- The edit that puts a text in at an offset. -/
def inserting (oldText : List Char) (offset : Nat) (text : List Char) : Edit :=
  replacing oldText (Text.Range.empty offset) text

/-- The edit that takes a range out. -/
def deleting (oldText : List Char) (range : Text.Range) : Edit := replacing oldText range []

/-- An edit of which only the offsets are known. -/
def ofOffsets (start oldEnd newEnd : Nat) : Edit :=
  ⟨start, oldEnd, newEnd, .origin, .origin, .origin⟩

def oldRange (edit : Edit) : Text.Range := ⟨edit.start, edit.oldEnd⟩

def newRange (edit : Edit) : Text.Range := ⟨edit.start, edit.newEnd⟩

/-- By how many bytes the text grows. -/
def delta (edit : Edit) : Int := (edit.newEnd : Int) - (edit.oldEnd : Int)

/-- The new text. -/
def apply (edit : Edit) (oldText replacement : List Char) : List Char :=
  beginning oldText edit.start ++ replacement ++ ending oldText edit.oldEnd

end Edit

end Syntagm
