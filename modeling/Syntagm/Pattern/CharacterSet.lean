import Syntagm.Pattern.Basic
import Syntagm.Text.Digit
import Syntagm.Text.Remainder
import Syntagm.Unicode.CaseFolding
import Syntagm.Unicode.Property

/-!
# Reading sets of characters

The part of the pattern notation that stands for one character: escapes after a backslash,
and bracketed sets.

```text
set     = '[' '^'? operand (('&&' | '--' | '~~') operand)* ']'
operand = (character | character '-' character | escape | set | '[:' '^'? name ':]')*
```

**Operators.** They take the intersection, the difference and the symmetric difference of
the operands around them, from left to right.  Hyphens right after the opening and a closing
bracket that comes first stand for themselves.

**Case.** Where case does not count, every set is closed under case folding as soon as it is
read, in front of any negation, so that `[^a]` leaves out both cases of the letter
(`Settings.close`).

Readers return nothing for a malformed pattern and else what they read with the rest of the
text, which has become shorter.
-/

namespace Syntagm.Pattern

open Text (Shorter NotLonger)

/-- What flags such as `(?i)` change. -/
structure Settings where
  /-- Whether the cases of a letter count as the same. -/
  ignoreCase : Bool
  /-- Whether `^` and `$` stand for the borders of lines and not of the text. -/
  multiLine : Bool
  /-- Whether the dot includes the line feed. -/
  dotAll : Bool
  deriving DecidableEq, Repr, Inhabited

/-- The settings without flags. -/
def Settings.plain : Settings := ⟨false, false, false⟩

/-- A set of characters. -/
abbrev CharacterSet := Char → Bool

namespace CharacterSet

def nothing : CharacterSet := fun _ => false

def single (c : Char) : CharacterSet := (· == c)

def between (first last : Char) : CharacterSet := fun c => first ≤ c && c ≤ last

def union (a b : CharacterSet) : CharacterSet := fun c => a c || b c

def intersection (a b : CharacterSet) : CharacterSet := fun c => a c && b c

def difference (a b : CharacterSet) : CharacterSet := fun c => a c && !b c

def symmetricDifference (a b : CharacterSet) : CharacterSet := fun c => a c != b c

/-- The set itself, or all other characters if it is negated. -/
def negatedIf (negated : Bool) (a : CharacterSet) : CharacterSet := fun c => a c != negated

end CharacterSet

/-- The set with all characters that are equal to a member but for case, if case does not
count. -/
def Settings.close (settings : Settings) (members : CharacterSet) : CharacterSet :=
  if settings.ignoreCase then fun c => (Unicode.CaseFolding.orbit c).any members else members

/-! ### Escapes -/

/-- What an escape stands for. -/
inductive Escape where
  | character (c : Char)
  | set (members : CharacterSet)
  | place (kind : Anchor)

/-- What comes in front of the first occurrence of a separator, and what comes after it. -/
def splitAround? (separator : List Char) : List Char → Option (List Char × List Char)
  | [] => none
  | c :: rest =>
    if separator.isPrefixOf (c :: rest) then some ([], (c :: rest).drop separator.length)
    else (splitAround? separator rest).map fun (front, back) => (c :: front, back)

/-- Reads a character by code point: hexadecimal digits between braces, or just as many as
`count`. -/
def readCodePoint (count : Nat) (text : List Char) : Option (Char × NotLonger text) :=
  match text with
  | '{' :: rest => do
    let (digits, rest) ← Text.splitThrough? (· == '}') rest
    let c ← (Text.hexNumber? digits).bind Text.scalar?
    return (c, rest.cons.notLonger)
  | text =>
    if count ≤ text.length then
      ((Text.hexNumber? (text.take count)).bind Text.scalar?).map fun c =>
        (c, .drop count text)
    else none

/-- The set that a property stands for: a name, or a name and a value with `!=`, `:` or `=`
in between. -/
def propertySet? (property : List Char) : Option CharacterSet :=
  match splitAround? ['!', '='] property with
  | some (name, value) => (Unicode.valued? name value).map (CharacterSet.negatedIf true)
  | none =>
    match (splitAround? [':'] property).or (splitAround? ['='] property) with
    | some (name, value) => Unicode.valued? name value
    | none => Unicode.named? property

/-- Reads a property between braces, or one of a single letter. -/
def readProperty (text : List Char) : Option (CharacterSet × Shorter text) :=
  match text with
  | '{' :: rest => do
    let (property, rest) ← Text.splitThrough? (· == '}') rest
    return (← propertySet? property, rest.cons)
  | c :: rest =>
    if c = '\\' then none
    else (Unicode.named? [c]).map fun members => (members, .tail c rest)
  | [] => none

/-- What one letter after a backslash stands for.  Of the other characters, those of ASCII
that are neither letters nor digits nor angle brackets stand for themselves. -/
def escapedLetter? (c : Char) : Option Escape :=
  match c with
  | 'd' => some (.set Unicode.isDecimalDigit)
  | 'D' => some (.set (CharacterSet.negatedIf true Unicode.isDecimalDigit))
  | 's' => some (.set Unicode.isWhiteSpace)
  | 'S' => some (.set (CharacterSet.negatedIf true Unicode.isWhiteSpace))
  | 'w' => some (.set Unicode.isWordCharacter)
  | 'W' => some (.set (CharacterSet.negatedIf true Unicode.isWordCharacter))
  | 'a' => some (.character '\x07')
  | 'f' => some (.character '\x0c')
  | 't' => some (.character '\t')
  | 'n' => some (.character '\n')
  | 'r' => some (.character '\r')
  | 'v' => some (.character '\x0b')
  | 'A' => some (.place .start)
  | 'z' => some (.place .stop)
  | 'b' => some (.place .wordBoundary)
  | 'B' => some (.place .notWordBoundary)
  | c =>
    if c.toNat < 128 && !c.isAlphanum && c != '<' && c != '>' then some (.character c) else none

/-- Reads an escape by code point, after its first letter. -/
def readCodePointEscape (count : Nat) (text : List Char) : Option (Escape × NotLonger text) :=
  (readCodePoint count text).map fun (c, rest) => (.character c, rest)

/-- Reads an escape by property, after its first letter. -/
def readPropertyEscape (settings : Settings) (negated : Bool) (text : List Char) :
    Option (Escape × Shorter text) :=
  (readProperty text).map fun (members, rest) =>
    (.set ((settings.close members).negatedIf negated), rest)

/-- Reads an escape after its backslash. -/
def readEscape (settings : Settings) (text : List Char) : Option (Escape × Shorter text) :=
  match text with
  | 'x' :: rest => (readCodePointEscape 2 rest).map fun (escape, rest) => (escape, rest.behind)
  | 'u' :: rest => (readCodePointEscape 4 rest).map fun (escape, rest) => (escape, rest.behind)
  | 'U' :: rest => (readCodePointEscape 8 rest).map fun (escape, rest) => (escape, rest.behind)
  | 'p' :: rest =>
    (readPropertyEscape settings false rest).map fun (escape, rest) => (escape, rest.cons)
  | 'P' :: rest =>
    (readPropertyEscape settings true rest).map fun (escape, rest) => (escape, rest.cons)
  | c :: rest => (escapedLetter? c).map fun escape => (escape, .tail c rest)
  | [] => none

/-! ### Bracketed sets -/

/-- The sets of ASCII characters that have a name in brackets and colons. -/
def asciiSet? : String → Option CharacterSet
  | "alnum" => some Char.isAlphanum
  | "alpha" => some Char.isAlpha
  | "ascii" => some fun c => decide (c.toNat < 128)
  | "blank" => some fun c => c == '\t' || c == ' '
  | "cntrl" => some fun c => c < ' ' || c == '\x7f'
  | "digit" => some Char.isDigit
  | "graph" => some fun c => '!' ≤ c && c ≤ '~'
  | "lower" => some Char.isLower
  | "print" => some fun c => ' ' ≤ c && c ≤ '~'
  | "punct" => some fun c => '!' ≤ c && c ≤ '~' && !c.isAlphanum
  | "space" => some fun c => ('\t' ≤ c && c ≤ '\r') || c == ' '
  | "upper" => some Char.isUpper
  | "word" => some fun c => c.isAlphanum || c == '_'
  | "xdigit" => some fun c => (Text.hexDigit? c).isSome
  | _ => none

/-- Reads a named set after its opening bracket, if one is there. -/
def readNamedSet? (settings : Settings) (text : List Char) :
    Option (CharacterSet × Shorter text) :=
  match text with
  | ':' :: rest => do
    let (name, behindName) ← Text.splitThrough? (· == ':') rest
    let (negated, name) := match name with
      | '^' :: name => (true, name)
      | name => (false, name)
    let members ← asciiSet? (String.ofList name)
    let rest ← Text.afterFirst? ']' behindName.1
    return ((settings.close members).negatedIf negated, (behindName.trans rest).cons)
  | _ => none

/-- Reads a character or an escape in a bracketed set. -/
def readElement (settings : Settings) (text : List Char) : Option (Escape × Shorter text) :=
  match text with
  | '\\' :: rest => (readEscape settings rest).map fun (escape, rest) => (escape, rest.cons)
  | c :: rest => some (.character c, .tail c rest)
  | [] => none

/-- The text after a hyphen that makes a range of the elements around it. -/
def afterRangeMark? (text : List Char) : Option (Shorter text) :=
  match text with
  | '-' :: ']' :: _ | '-' :: '-' :: _ => none
  | '-' :: rest => some (.tail '-' rest)
  | _ => none

/-- Reads a range, a single character or an escape in a bracketed set. -/
def readItem (settings : Settings) (text : List Char) :
    Option (CharacterSet × Shorter text) := do
  let (first, rest) ← readElement settings text
  match afterRangeMark? rest.1 with
  | some behindMark =>
    let (last, further) ← readElement settings behindMark.1
    match first, last with
    | .character first, .character last =>
      if first ≤ last then
        return (settings.close (CharacterSet.between first last),
          rest.trans (behindMark.trans further))
      else none
    | _, _ => none
  | none =>
    match first with
    | .character c => return (settings.close (CharacterSet.single c), rest)
    | .set members => return (members, rest)
    | .place _ => none

/-- Reads the hyphens, or the closing bracket, that stand for themselves at the beginning of
a set. -/
def readLeading (settings : Settings) (text : List Char) : CharacterSet × NotLonger text :=
  match text with
  | '-' :: rest =>
    (settings.close (CharacterSet.single '-'), (Text.skipWhile (· == '-') rest).cons)
  | ']' :: rest => (settings.close (CharacterSet.single ']'), (NotLonger.whole rest).cons)
  | text => (CharacterSet.nothing, .whole text)

/-- Reads a caret and what stands for itself at the beginning of a set. -/
def readOpening (settings : Settings) (text : List Char) :
    Bool × CharacterSet × NotLonger text :=
  match text with
  | '^' :: rest =>
    let (members, rest) := readLeading settings rest
    (true, members, rest.cons)
  | text => (false, readLeading settings text)

/-- Reads the operator between two operands. -/
def readOperator? (text : List Char) :
    Option ((CharacterSet → CharacterSet → CharacterSet) × Shorter text) :=
  match text with
  | '&' :: '&' :: rest => some (.intersection, (Shorter.tail '&' rest).cons)
  | '-' :: '-' :: rest => some (.difference, (Shorter.tail '-' rest).cons)
  | '~' :: '~' :: rest => some (.symmetricDifference, (Shorter.tail '~' rest).cons)
  | _ => none

/-- Reads the rest of a set, up to and with its closing bracket.  The operand at hand has
the given members so far; `combine` joins it with what comes in front of it. -/
def readMembers (settings : Settings) (combine : CharacterSet → CharacterSet)
    (members : CharacterSet) (text : List Char) : Option (CharacterSet × Shorter text) :=
  match text with
  | [] => none
  | ']' :: rest => some (combine members, .tail ']' rest)
  | '[' :: rest =>
    match readNamedSet? settings rest with
    | some (named, behindSet) => do
      let (all, further) ←
        readMembers settings combine (members.union named) behindSet.1
      return (all, (behindSet.trans further).cons)
    | none => do
      let (negated, leading, behindOpening) := readOpening settings rest
      let (inner, behindSet) ← readMembers settings id leading behindOpening.1
      let behindSet := behindOpening.transShorter behindSet
      let (all, further) ←
        readMembers settings combine (members.union (inner.negatedIf negated)) behindSet.1
      return (all, (behindSet.trans further).cons)
  | c :: rest =>
    match readOperator? (c :: rest) with
    | some (operator, behindOperator) => do
      let (all, further) ←
        readMembers settings (operator (combine members)) .nothing behindOperator.1
      return (all, behindOperator.trans further)
    | none => do
      let (item, behindItem) ← readItem settings (c :: rest)
      let (all, further) ← readMembers settings combine (members.union item) behindItem.1
      return (all, behindItem.trans further)
termination_by text.length
decreasing_by
  · exact behindSet.cons.2
  · exact Nat.lt_succ_of_le behindOpening.2
  · exact behindSet.cons.2
  · exact behindOperator.2
  · exact behindItem.2

/-- Reads a bracketed set after its opening bracket. -/
def readSet (settings : Settings) (text : List Char) : Option (CharacterSet × Shorter text) := do
  let (negated, leading, rest) := readOpening settings text
  let (members, further) ← readMembers settings id leading rest.1
  return (members.negatedIf negated, rest.transShorter further)

end Syntagm.Pattern
