/-!
# Texts and byte offsets

A text is a list of characters.  Offsets and ranges count bytes of its UTF-8 form, so a cut
at an offset is possible only where a character starts (`splitBytes?`).  An offset inside a
character is no boundary (`isBoundary`).
-/

namespace Syntagm.Text

/-- A stretch of a text, from the byte offset `start` up to `stop`, which it leaves out. -/
structure Range where
  start : Nat
  stop : Nat
  deriving DecidableEq, Repr, Inhabited, Hashable

namespace Range

/-- The empty range at an offset. -/
def empty (offset : Nat) : Range := ⟨offset, offset⟩

/-- The range of the given length at an offset. -/
def ofLength (start length : Nat) : Range := ⟨start, start + length⟩

def length (range : Range) : Nat := range.stop - range.start

def isEmpty (range : Range) : Bool := range.start == range.stop

/-- Whether the byte at `offset` belongs to the range. -/
def contains (range : Range) (offset : Nat) : Bool :=
  decide (range.start ≤ offset ∧ offset < range.stop)

end Range

/-- The number of bytes a text takes. -/
def byteLength : List Char → Nat
  | [] => 0
  | c :: rest => c.utf8Size + byteLength rest

@[simp] theorem byteLength_nil : byteLength [] = 0 := rfl

@[simp] theorem byteLength_cons (c : Char) (rest : List Char) :
    byteLength (c :: rest) = c.utf8Size + byteLength rest := rfl

theorem byteLength_append (front back : List Char) :
    byteLength (front ++ back) = byteLength front + byteLength back := by
  induction front with
  | nil => simp
  | cons c front ih => simp [ih, Nat.add_assoc]

/-- Cuts a text at a byte offset, unless the offset is inside a character or past the end. -/
def splitBytes? : List Char → Nat → Option (List Char × List Char)
  | text, 0 => some ([], text)
  | [], _ + 1 => none
  | c :: rest, offset =>
    if c.utf8Size ≤ offset then
      (splitBytes? rest (offset - c.utf8Size)).map fun (front, back) => (c :: front, back)
    else none

/-- Whether a character starts at the offset, or the text ends there. -/
def isBoundary (text : List Char) (offset : Nat) : Bool :=
  (splitBytes? text offset).isSome

/-- The part of a text in a range, unless an end of the range is no boundary. -/
def slice? (text : List Char) (range : Range) : Option (List Char) := do
  let (_, back) ← splitBytes? text range.start
  if range.start ≤ range.stop then
    let (part, _) ← splitBytes? back (range.stop - range.start)
    return part
  else none

end Syntagm.Text
