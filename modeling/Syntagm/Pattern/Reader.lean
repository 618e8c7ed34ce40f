import Syntagm.Pattern.CharacterSet

/-!
# Reading patterns

```text
pattern   = sequence ('|' sequence)*
sequence  = (flags | item operator*)*
item      = '(' pattern ')' | '(?' name '>' pattern ')' | '(?' flag* ':' pattern ')'
          | '.' | '^' | '$' | '\' escape | set | character
operator  = ('*' | '+' | '?' | '{' count '}' | '{' count ',' count? '}') '?'?
flags     = '(?' flag+ ')'
```

Flags in parentheses of their own hold up to the end of the group they stand in, beyond any
bar.  The flags are `i` (case does not count), `m` (`^` and `$` stand for the borders of
lines), `s` (the dot includes the line feed), and `U` and `u`, which have no meaning for
longest matches; those after a hyphen are switched off.  A question mark after an operator
has no meaning either.

Groups may have names.  They play no part in matching, but two groups of one pattern must not
share one, so the reader collects them (`Written`).

**Other libraries.**  This reader stands where a library of patterns is used, and it reads the part
of their notation above.  It refuses what they know beyond it, such as a verbose mode with comments,
half boundaries and further properties, and it knows no limit on the size of a pattern.  What the
translation of tokens needs of a library, whichever it is, is said in `Proofs.PatternLibrary`.
-/

namespace Syntagm.Pattern

open Text (Shorter NotLonger)

/-! ### Flags and groups -/

/-- The settings with a flag switched on or off. -/
def Settings.set (settings : Settings) (value : Bool) : Char → Settings
  | 'i' => { settings with ignoreCase := value }
  | 'm' => { settings with multiLine := value }
  | 's' => { settings with dotAll := value }
  | _ => settings

/-- The settings that flags such as `im-s` lead to.  No flag may stand there twice, at most
one hyphen, and none at the end. -/
def Settings.apply? (settings : Settings) (flags : List Char) : Option Settings :=
  let on := flags.takeWhile (· ≠ '-')
  let off := flags.drop (on.length + 1)
  let switches := flags.length ≠ on.length
  if decide (on ++ off).Nodup && on.all ['i', 'm', 's', 'U', 'u'].contains &&
      off.all ['i', 'm', 's', 'U'].contains && !(switches && off.isEmpty) then
    some (off.foldl (·.set false) (on.foldl (·.set true) settings))
  else none

/-- Whether a character can begin the name of a group. -/
def isNameStart (c : Char) : Bool := c == '_' || Unicode.isAlphabetic c

/-- Whether the name of a group can go on with a character. -/
def isNameRest (c : Char) : Bool :=
  isNameStart c || c == '.' || c == '[' || c == ']' || (Unicode.Category.of c).isNumber

/-- Whether a text can name a group. -/
def isGroupName : List Char → Bool
  | [] => false
  | first :: rest => isNameStart first && rest.all isNameRest

/-- What an opening parenthesis begins. -/
inductive Opening where
  /-- Flags for the rest of the group around it. -/
  | flags (settings : Settings)
  /-- A group, its name if it has one, and the settings inside. -/
  | group (name : Option (List Char)) (settings : Settings)

/-- The flags in front of the first colon or closing parenthesis, whether it is a colon, and
the text after it. -/
def splitFlags? : (text : List Char) → Option (List Char × Bool × Shorter text)
  | [] => none
  | ':' :: rest => some ([], true, .tail ':' rest)
  | ')' :: rest => some ([], false, .tail ')' rest)
  | c :: rest =>
    (splitFlags? rest).map fun (flags, colon, rest) => (c :: flags, colon, rest.cons)

/-- Reads the name of a group, up to and with the closing angle bracket. -/
def readGroupName (settings : Settings) (text : List Char) : Option (Opening × Shorter text) := do
  let (name, rest) ← Text.splitThrough? (· == '>') text
  if isGroupName name then return (.group (some name) settings, rest) else none

/-- Reads what follows an opening parenthesis, up to the contents of the group.  Groups that
look ahead or behind are no patterns. -/
def readGroupOpening (settings : Settings) (text : List Char) :
    Option (Opening × NotLonger text) :=
  match text with
  | '?' :: 'P' :: '<' :: rest => do
    let (opening, rest) ← readGroupName settings rest
    return (opening, rest.cons.cons.cons.notLonger)
  | '?' :: '<' :: rest => do
    let (opening, rest) ← readGroupName settings rest
    return (opening, rest.cons.cons.notLonger)
  | '?' :: rest => do
    let (flags, colon, rest) ← splitFlags? rest
    let changed ← settings.apply? flags
    if colon then return (.group none changed, rest.cons.notLonger)
    else if flags.isEmpty then none
    else return (.flags changed, rest.cons.notLonger)
  | text => some (.group none settings, .whole text)

/-! ### Operators -/

/-- Reads a count, a decimal number of 32 bits with white space around it. -/
def readCount (text : List Char) : Option (Nat × NotLonger text) :=
  let behindSpace := Text.skipWhile Unicode.isWhiteSpace text
  let (digits, behindDigits) := Text.splitDigits behindSpace.1
  let rest := Text.skipWhile Unicode.isWhiteSpace behindDigits.1
  let count := Text.decimalNumber digits
  if digits.isEmpty || UInt32.size ≤ count then none
  else some (count, behindSpace.trans (behindDigits.trans rest))

/-- Reads the bounds of a repetition, up to and with the closing brace. -/
def readBounds (text : List Char) : Option (Nat × Option Nat × NotLonger text) := do
  let (least, behindLeast) ← readCount text
  match Text.afterFirst? ',' behindLeast.1 with
  | none =>
    let rest ← Text.afterFirst? '}' behindLeast.1
    return (least, some least, (behindLeast.transShorter rest).notLonger)
  | some behindComma =>
    let behindComma := behindLeast.transShorter behindComma
    match Text.afterFirst? '}' behindComma.1 with
    | some rest => return (least, none, (behindComma.trans rest).notLonger)
    | none =>
      let (most, behindMost) ← readCount behindComma.1
      let rest ← Text.afterFirst? '}' behindMost.1
      if least ≤ most then
        return (least, some most, (behindComma.trans (behindMost.transShorter rest)).notLonger)
      else none

/-- Whether a character is a repetition operator or begins one. -/
def isOperator (c : Char) : Bool := c == '*' || c == '+' || c == '?' || c == '{'

/-- Reads the bounds that an operator gives, after its first character. -/
def readOperatorBounds (operator : Char) (text : List Char) :
    Option (Nat × Option Nat × NotLonger text) :=
  match operator with
  | '*' => some (0, none, .whole text)
  | '+' => some (1, none, .whole text)
  | '?' => some (0, some 1, .whole text)
  | _ => readBounds text

/-- The text after a question mark, if it starts with one. -/
def skipLazyMark (text : List Char) : NotLonger text :=
  match text with
  | '?' :: rest => (NotLonger.whole rest).cons
  | text => .whole text

/-- Reads the operators after an item. -/
def readOperators (item : Pattern) (text : List Char) : Option (Pattern × NotLonger text) :=
  match text with
  | [] => some (item, .whole [])
  | c :: rest =>
    if isOperator c then do
      let (least, most, behindBounds) ← readOperatorBounds c rest
      let behindMark := behindBounds.trans (skipLazyMark behindBounds.1)
      let (item, further) ← readOperators (.repetition least most item) behindMark.1
      return (item, (behindMark.trans further).cons)
    else some (item, .whole (c :: rest))
termination_by text.length
decreasing_by exact Nat.lt_succ_of_le behindMark.2

/-! ### Patterns -/

/-- Reads an item that is no group and starts with `c`. -/
def readSimpleItem (settings : Settings) (c : Char) (rest : List Char) :
    Option (Pattern × NotLonger rest) :=
  match c with
  | '[' => (readSet settings rest).map fun (members, rest) => (.set members, rest.notLonger)
  | '\\' => (readEscape settings rest).map fun (escape, rest) =>
      let item := match escape with
        | .character c => .set (settings.close (CharacterSet.single c))
        | .set members => .set members
        | .place kind => .anchor kind
      (item, rest.notLonger)
  | '.' => some (.set fun c => settings.dotAll || c != '\n', .whole rest)
  | '^' => some (.anchor (if settings.multiLine then .lineStart else .start), .whole rest)
  | '$' => some (.anchor (if settings.multiLine then .lineStop else .stop), .whole rest)
  | c => some (.set (settings.close (CharacterSet.single c)), .whole rest)

/-- A pattern that was read, and the names of its groups. -/
structure Written where
  pattern : Pattern
  groupNames : List (List Char)

mutual

/-- Reads sequences with bars between them. -/
def readAlternatives (settings : Settings) (text : List Char) :
    Option (List Pattern × List (List Char) × NotLonger text) := do
  let (items, names, settings, rest) ← readItems settings text
  match Text.afterFirst? '|' rest.1 with
  | some behindBar =>
    let behindBar := rest.transShorter behindBar
    let (others, otherNames, further) ← readAlternatives settings behindBar.1
    return (seqAll items :: others, names ++ otherNames,
      (behindBar.transNotLonger further).notLonger)
  | none => return ([seqAll items], names, rest)
termination_by 3 * text.length + 2
decreasing_by
  · exact Nat.lt_succ_self _
  · exact behindBar.rank_lt (by decide) _

/-- Reads the items of a sequence.  Also returns the settings at its end. -/
def readItems (settings : Settings) (text : List Char) :
    Option (List Pattern × List (List Char) × Settings × NotLonger text) :=
  match text with
  | [] => some ([], [], settings, .whole [])
  | '(' :: rest => do
    let (opening, behindOpening) ← readGroupOpening settings rest
    match opening with
    | .flags settings =>
      if behindOpening.1.head?.any isOperator then none
      else
        let (items, names, settings, further) ← readItems settings behindOpening.1
        return (items, names, settings, (behindOpening.trans further).cons)
    | .group name inside =>
      let (alternatives, innerNames, behindInner) ← readAlternatives inside behindOpening.1
      let behindGroup := (behindOpening.trans behindInner).transShorter
        (← Text.afterFirst? ')' behindInner.1)
      let (item, behindItem) ← readOperators (altAll alternatives) behindGroup.1
      let behindItem := behindGroup.transNotLonger behindItem
      let (items, names, settings, further) ← readItems settings behindItem.1
      return (item :: items, name.toList ++ innerNames ++ names, settings,
        (behindItem.transNotLonger further).cons.notLonger)
  | c :: rest =>
    if c = '|' ∨ c = ')' then some ([], [], settings, .whole (c :: rest))
    else if isOperator c then none
    else do
      let (item, behindItem) ← readSimpleItem settings c rest
      let (item, behindOperators) ← readOperators item behindItem.1
      let behindOperators := behindItem.trans behindOperators
      let (items, names, settings, further) ← readItems settings behindOperators.1
      return (item :: items, names, settings, (behindOperators.trans further).cons)
termination_by 3 * text.length + 1
decreasing_by
  · exact behindOpening.behind.rank_lt (by decide) _
  · exact behindOpening.behind.rank_lt (by decide) _
  · exact behindItem.cons.rank_lt (by decide) _
  · exact behindOperators.behind.rank_lt (by decide) _

end

/-- The pattern that a source text writes, if it is well formed. -/
def ofSource? (source : String) : Option Written := do
  let (alternatives, names, rest) ← readAlternatives .plain source.toList
  if rest.1.isEmpty && decide names.Nodup then return ⟨altAll alternatives, names⟩ else none

end Syntagm.Pattern
