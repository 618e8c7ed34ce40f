import Syntagm.Lexicon.Basic
import Syntagm.Text.Position
import Syntagm.Unicode.Property

/-!
# Recognizing a token

A matcher is run on the text that is left and says how many characters of it belong to the
token (`Matcher.scan?`).  A block or string that is not closed takes the whole text and
carries an error.  A token is never empty.

The scanners for blocks and strings walk over the text once.  Blocks inside blocks are
counted, not scanned by recursion, so depth costs nothing.
-/

namespace Syntagm

/-- What can run off the end of a text. -/
inductive Construct where
  | nestedComment
  | delimitedString
  | quotedString
  deriving DecidableEq, Repr, Inhabited, Hashable

def Construct.name : Construct → String
  | .nestedComment => "nested comment"
  | .delimitedString => "delimited string"
  | .quotedString => "quoted string"

/-- A block or string that is not closed. -/
structure Unterminated where
  construct : Construct
  opening : String
  closing : String
  deriving DecidableEq, Repr, Inhabited, Hashable

/-- What a matcher recognized: a number of characters, and whether an end was missing. -/
structure Scan where
  length : Nat
  error : Option Unterminated
  deriving DecidableEq, Repr, Inhabited

namespace Scan

/-- Whether a text starts with another one. -/
def startsWith (text start : List Char) : Bool := start.isPrefixOf text

/-- The number of characters up to where `depth` open blocks are closed, or nothing if the
text ends before.  A closing delimiter goes before an opening one. -/
def nestedLength? (opening closing : List Char) : (depth : Nat) → (text : List Char) → Option Nat
  | 0, _ => some 0
  | _ + 1, [] => none
  | depth + 1, c :: rest =>
    if startsWith (c :: rest) closing then
      (nestedLength? opening closing depth (rest.drop (closing.length - 1))).map
        (· + (closing.length - 1) + 1)
    else if startsWith (c :: rest) opening then
      (nestedLength? opening closing (depth + 2) (rest.drop (opening.length - 1))).map
        (· + (opening.length - 1) + 1)
    else (nestedLength? opening closing (depth + 1) rest).map (· + 1)
termination_by _ text => text.length
decreasing_by all_goals simp only [List.length_drop, List.length_cons]; omega

/-- The number of characters up to and with the closing delimiter, which a backslash in
front disarms. -/
def quotedLength? (closing : List Char) : (text : List Char) → Option Nat
  | [] => none
  | c :: rest =>
    if startsWith (c :: rest) closing then some closing.length
    else if c = '\\' then
      match rest with
      | [] => none
      | _ :: rest => (quotedLength? closing rest).map (· + 2)
    else (quotedLength? closing rest).map (· + 1)

/-- The number of characters up to and with the first occurrence of `ending`. -/
def lengthThrough? (ending : List Char) : (text : List Char) → Option Nat
  | [] => none
  | c :: rest =>
    if startsWith (c :: rest) ending then some ending.length
    else (lengthThrough? ending rest).map (· + 1)

/-- The bracket that closes another one. -/
def closingBracket? : Char → Option Char
  | '(' => some ')'
  | '[' => some ']'
  | '{' => some '}'
  | '<' => some '>'
  | _ => none

/-- The number of characters up to where all of `depth + 1` open brackets are closed and the
closing delimiter follows.  A last bracket without the delimiter after it is content. -/
def bracketedLength? (opening closing : Char) (ending : List Char) :
    (depth : Nat) → (text : List Char) → Option Nat
  | _, [] => none
  | depth, c :: rest =>
    if c = closing then
      match depth with
      | 0 =>
        if startsWith rest ending then some (ending.length + 1)
        else (bracketedLength? opening closing ending 0 rest).map (· + 1)
      | depth + 1 => (bracketedLength? opening closing ending depth rest).map (· + 1)
    else if c = opening then
      (bracketedLength? opening closing ending (depth + 1) rest).map (· + 1)
    else (bracketedLength? opening closing ending depth rest).map (· + 1)

/-- The number of characters up to and with the first occurrence of `ending` at the start of
a line. -/
def lengthThroughLine? (ending : List Char) : (atLineStart : Bool) → (text : List Char) →
    Option Nat
  | _, [] => none
  | atLineStart, c :: rest =>
    if atLineStart && startsWith (c :: rest) ending then some ending.length
    else
      match Text.lineBreak? (c :: rest) with
      | some length =>
        (lengthThroughLine? ending true (rest.drop (length - 1))).map (· + (length - 1) + 1)
      | none => (lengthThroughLine? ending false rest).map (· + 1)
termination_by _ text => text.length
decreasing_by all_goals simp only [List.length_drop, List.length_cons]; omega

/-- Whether a character belongs to the name that ends a string of lines. -/
def isNameCharacter (c : Char) : Bool := c == '_' || Unicode.isIdentifierContinue c

/-- The number of characters of a string of lines: a name, lines, and the name again at the
start of a line with the closing delimiter after it. -/
def linesLength? (closing : List Char) (text : List Char) : Option Nat := do
  let name := text.takeWhile isNameCharacter
  let rest := text.drop name.length
  let lineBreak ← Text.lineBreak? rest
  let length ← lengthThroughLine? (name ++ closing) true (rest.drop lineBreak)
  return name.length + lineBreak + length

/-- The number of characters of a delimited string after its opening delimiter.  The first
character decides: a bracket is closed by its partner, a character that begins a name begins
a string of lines, and any other character closes itself. -/
def delimitedLength? (closing : List Char) (text : List Char) : Option Nat :=
  match text with
  | [] => none
  | c :: rest =>
    match closingBracket? c with
    | some bracket => (bracketedLength? c bracket closing 0 rest).map (· + 1)
    | none =>
      if c = '_' ∨ Unicode.isIdentifierStart c then linesLength? closing (c :: rest)
      else (lengthThrough? (c :: closing) rest).map (· + 1)

/-- The scan of a construct that opens a text: `length?` finds its end behind the opening
delimiter. -/
def ofConstruct? (construct : Construct) (opening closing : String)
    (length? : List Char → Option Nat) (text : List Char) : Option Scan :=
  let start := opening.toList
  if startsWith text start then
    match length? (text.drop start.length) with
    | some length => some ⟨start.length + length, none⟩
    | none => some ⟨text.length, some ⟨construct, opening, closing⟩⟩
  else none

/-- The longer one of two scans, and of equally long ones the first. -/
def longer (first second : Option Scan) : Option Scan :=
  match first, second with
  | none, second => second
  | first, none => first
  | some first, some second => if first.length < second.length then some second else some first

/-- A scan that took something. -/
def unlessEmpty (scan : Option Scan) : Option Scan := scan.filter (0 < ·.length)

end Scan

namespace Matcher

mutual

/-- What the matcher recognizes at the start of a text. -/
def scan? (text : List Char) : Matcher → Option Scan
  | .literal content =>
    Scan.unlessEmpty
      (if Scan.startsWith text content.toList then some ⟨content.toList.length, none⟩ else none)
  | .pattern inner =>
    Scan.unlessEmpty ((inner.longest? Unicode.isWordCharacter text).map (⟨·, none⟩))
  | .nested opening closing =>
    Scan.unlessEmpty (Scan.ofConstruct? .nestedComment opening closing
      (Scan.nestedLength? opening.toList closing.toList 1) text)
  | .delimited opening closing =>
    Scan.unlessEmpty (Scan.ofConstruct? .delimitedString opening closing
      (Scan.delimitedLength? closing.toList) text)
  | .quoted opening closing =>
    Scan.unlessEmpty (Scan.ofConstruct? .quotedString opening closing
      (Scan.quotedLength? closing.toList) text)
  | .any alternatives => scanLongest? text alternatives

/-- The longest one of what several matchers recognize. -/
def scanLongest? (text : List Char) : List Matcher → Option Scan
  | [] => none
  | first :: rest => Scan.longer (first.scan? text) (scanLongest? text rest)

end

end Matcher

end Syntagm
