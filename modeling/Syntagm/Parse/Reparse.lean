import Syntagm.Parse.Edit
import Syntagm.Parse.Parser

/-!
# Parsing again after an edit

After an edit most tokens are the old ones.  What a parse remembered of tokens in front of the
edit holds as it is, and what it remembered of tokens behind the edit holds as far behind as
these tokens have moved.  A new parse that begins with this gives the same result as one that
begins with nothing.

**What is unchanged.**  Old and new tokens are compared from both ends by kind, range and
fault.  A result of the first kind must not have looked past the tokens that agree in front.
One of the second kind must start where the trivia in front of its first token belongs to
what agrees behind.

If the edit does not fit the two texts, or no token agrees, nothing is used again.

Whether an edit fits is found out with differences of its offsets, which are formed before the
offsets are compared (`Edit.fits?`).  For an edit that ends in front of its start they are no words:
a program that checks its words stops there, and in one that goes on nothing comes of them.
-/

namespace Syntagm

namespace Edit

/-- Whether the edit can be one between texts of these lengths, as it is found out: the lengths of
what is taken out and of what is put in, as words of 32 bits, then how the offsets lie, and if they
lie well, the sum of the lengths in words of 64 bits.  Nothing if the program stops. -/
def fits? (edit : Edit) (arithmetic : Arithmetic) (oldLength newLength : Nat) : Option Bool := do
  let removed ← arithmetic.difference? UInt32.size edit.oldEnd edit.start
  let inserted ← arithmetic.difference? UInt32.size edit.newEnd edit.start
  if edit.start > edit.oldEnd ∨ edit.start > edit.newEnd ∨ edit.oldEnd > oldLength then
    return false
  let kept ← arithmetic.difference? UInt64.size oldLength removed
  return kept + inserted == newLength

/-- Whether the edit can be one between texts of these lengths.  This is what is found out if the
program goes on where a difference is no word. -/
def fits (edit : Edit) (oldLength newLength : Nat) : Bool :=
  edit.start ≤ edit.oldEnd && edit.start ≤ edit.newEnd && edit.oldEnd ≤ oldLength &&
    oldLength - (edit.oldEnd - edit.start) + (edit.newEnd - edit.start) == newLength

/-- Whether an old token in front of the edit agrees with a new one. -/
def agreesBefore (edit : Edit) (old new : Token) : Bool :=
  old.range.stop ≤ edit.start && old.range == new.range && old.kind == new.kind &&
    old.error == new.error

/-- Whether an old token behind the edit agrees with a new one. -/
def agreesBehind (edit : Edit) (old new : Token) : Bool :=
  edit.oldEnd ≤ old.range.start && edit.newEnd ≤ new.range.start &&
    (new.range.start : Int) - (old.range.start : Int) == edit.delta &&
    old.range.length == new.range.length && old.kind == new.kind && old.error == new.error

/-- How many tokens agree in front of the edit. -/
def unchangedBefore (edit : Edit) (old new : List Token) : Nat :=
  ((old.zip new).takeWhile fun (x, y) => edit.agreesBefore x y).length

/-- How many tokens agree behind the edit, of those that are not among the first `before`. -/
def unchangedBehind (edit : Edit) (old new : List Token) (before : Nat) : Nat :=
  let most := min old.length new.length - before
  (((old.reverse.zip new.reverse).take most).takeWhile fun (x, y) =>
    edit.agreesBehind x y).length

end Edit

namespace Tokens

/-- How many of the first tokens of a list are significant. -/
def significantBefore (tokens : List Token) (count : Nat) : Nat :=
  (tokens.take count).countP (!·.isExtra)

/-- How many places, of the significant tokens and the end of the input, lie behind the first
`count` tokens with all trivia in front of them: those after the first significant token that
is left, and the place of that token itself if the trivia in front of it starts there. -/
def placesBehind (tokens : List Token) (count : Nat) : Nat :=
  let rest := significantBefore (tokens.drop count) (tokens.length - count)
  let startsPlace := match (tokens.take count).getLast? with
    | some token => !token.isExtra
    | none => true
  if startsPlace then rest + 1 else rest

end Tokens

namespace MemoEntry

/-- A position, farther on or farther back. -/
def moved (shift : Int) (position : Nat) : Nat := ((position : Int) + shift).toNat

/-- What the entry says of input that has moved. -/
def shifted (entry : MemoEntry) (shift : Int) : MemoEntry where
  result := entry.result.map fun found => { found with stop := moved shift found.stop }
  failure := entry.failure.map fun failure =>
    { failure with position := moved shift failure.position }
  lookahead := moved shift entry.lookahead

end MemoEntry

namespace Parse

/-- What the parse of the old text remembered and what holds for new tokens: entries that
looked at no more than the first `before` significant tokens, and those from the place
`behind` on, which has moved by `shift`. -/
def carryOver (entries : List (MemoKey × MemoEntry)) (before behind : Nat) (shift : Int) :
    Memo :=
  entries.foldl (fun memo (key, entry) =>
    if entry.lookahead ≤ before then memo.insert key entry
    else if behind ≤ key.position then
      memo.insert { key with position := MemoEntry.moved shift key.position }
        (entry.shifted shift)
    else memo) ∅

/-- What may be used again of a parse after an edit that fits the texts. -/
def unchanged (old : Parse) (edit : Edit) (newTokens : Tokens) : Memo :=
  let oldList := old.tokens.list
  let newList := newTokens.list
  let before := edit.unchangedBefore oldList newList
  let behind := edit.unchangedBehind oldList newList before
  if before = 0 ∧ behind = 0 then ∅
  else
    let oldSize := Tokens.significantBefore oldList oldList.length
    let newSize := Tokens.significantBefore newList newList.length
    let places := min (Tokens.placesBehind oldList (oldList.length - behind))
      (Tokens.placesBehind newList (newList.length - behind))
    carryOver old.reuse (Tokens.significantBefore oldList before) (oldSize + 1 - places)
      ((newSize : Int) - (oldSize : Int))

/-- What may be used again of a parse after an edit. -/
def reusable (old : Parse) (edit : Edit) (newText : List Char) (newTokens : Tokens) : Memo :=
  if edit.fits old.tokens.textLength (Text.byteLength newText) then old.unchanged edit newTokens
  else ∅

/-- What may be used again of a parse after an edit, unless the program stops. -/
def reusable? (old : Parse) (arithmetic : Arithmetic) (edit : Edit) (newText : List Char)
    (newTokens : Tokens) : Option Memo := do
  let fits ← edit.fits? arithmetic old.tokens.textLength (Text.byteLength newText)
  return if fits then old.unchanged edit newTokens else ∅

end Parse

namespace Parser

variable (parser : Parser)

/-- What is known of the tokens of a text from the parse of the text before the edit.  The
parse must be of the same grammar. -/
def seed (old : Parse) (edit : Edit) (newText : List Char) (tokens : Tokens) : Memo :=
  if parser.compiled.sameGrammar old.compiled then old.reusable edit newText tokens else ∅

/-- Parses a text that has been cut into tokens, with what may be used again of the parse of
the text before the edit. -/
def reparseWith (old : Parse) (edit : Edit) (newText : List Char) (tokens : Tokens) : Parse :=
  parser.parseWith newText tokens (parser.seed old edit newText tokens)

/-- Parses the text that an edit has made. -/
def reparse (old : Parse) (edit : Edit) (newText : List Char) : Parse :=
  parser.reparseWith old edit newText (parser.compiled.tokenize newText)

/-- Parses the text that an edit has made and that has been cut into tokens.  Tokens that are
not those of the text are dropped, and the text is cut again. -/
def reparseTokens (old : Parse) (edit : Edit) (newText : List Char) (tokens : Tokens) : Parse :=
  if tokens.covers newText then parser.reparseWith old edit newText tokens
  else parser.reparse old edit newText

/-! ### In either arithmetic -/

variable (arithmetic : Arithmetic)

/-- What is known of the tokens of a text from the parse of the text before the edit, unless the
program stops. -/
def seed? (old : Parse) (edit : Edit) (newText : List Char) (tokens : Tokens) : Option Memo :=
  if parser.compiled.sameGrammar old.compiled then old.reusable? arithmetic edit newText tokens
  else some ∅

/-- Parses a text that has been cut into tokens, with what may be used again of the parse of
the text before the edit, unless the program stops. -/
def reparseWith? (old : Parse) (edit : Edit) (newText : List Char) (tokens : Tokens) :
    Option Parse := do
  let seed ← parser.seed? arithmetic old edit newText tokens
  parser.parseWith? arithmetic newText tokens seed

/-- Parses the text that an edit has made, unless the program stops. -/
def reparse? (old : Parse) (edit : Edit) (newText : List Char) : Option Parse :=
  parser.reparseWith? arithmetic old edit newText (parser.compiled.tokenize newText)

/-- Parses the text that an edit has made and that has been cut into tokens, unless the program
stops. -/
def reparseTokens? (old : Parse) (edit : Edit) (newText : List Char) (tokens : Tokens) :
    Option Parse :=
  if tokens.covers newText then parser.reparseWith? arithmetic old edit newText tokens
  else parser.reparse? arithmetic old edit newText

end Parser

end Syntagm
