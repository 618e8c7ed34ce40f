import Syntagm.Grammar.Basic
import Syntagm.Grammar.Notation.Escape
import Syntagm.Grammar.Notation.Token
import Syntagm.Text.LineIndex
import Syntagm.Text.Remainder

/-!
# Reading the grammar notation

```text
grammar     = (directive | rule)*
rule        = identifier ':' alternation ';'
alternation = sequence ('|' sequence)*
sequence    = postfix*
postfix     = primary ('*' | '+' | '?')*
primary     = string | pattern | identifier | builtin '(' arguments ')' | '(' alternation ')'
```

An identifier with a colon after it always starts a rule, so it ends the sequence in front of
it.  A sequence of one item is that item and an empty one matches nothing; an alternation of
one sequence is that sequence.

Each reader takes the tokens that are left and returns what it read with the tokens after it.
A fault keeps the tokens from the offending one on, which say where it is.
-/

namespace Syntagm.Notation

open Text (Shorter NotLonger)

/-- What is wrong, and the tokens from the offending one on. -/
structure Fault where
  fault : ReadingFault
  rest : List Located
  deriving Repr

/-- What reading gives. -/
abbrev Reading := Except Fault

/-! ### Single tokens -/

/-- Refuses the token that stands in front. -/
def refuse {α : Type} (tokens : List Located) (fault : ReadingFault) : Reading α :=
  .error ⟨fault, tokens⟩

/-- The tokens after the mark, if it stands in front. -/
def afterMark? (symbol : Char) (tokens : List Located) : Option (Shorter tokens) :=
  match tokens with
  | ⟨.mark found, offset⟩ :: rest =>
    if found = symbol then some (.tail ⟨.mark found, offset⟩ rest) else none
  | _ => none

/-- Reads a mark. -/
def readMark (symbol : Char) (tokens : List Located) : Reading (Shorter tokens) :=
  match afterMark? symbol tokens with
  | some rest => .ok rest
  | none => refuse tokens (.expected s!"'{symbol}'")

/-- Reads an identifier. -/
def readIdentifier (tokens : List Located) : Reading (String × Shorter tokens) :=
  match tokens with
  | ⟨.identifier name, offset⟩ :: rest =>
    .ok (name, .tail ⟨.identifier name, offset⟩ rest)
  | _ => refuse tokens (.expected "identifier")

/-- Reads a string and resolves its escapes. -/
def readString (tokens : List Located) : Reading (String × Shorter tokens) :=
  match tokens with
  | ⟨.string content, offset⟩ :: rest =>
    match unescapeString content.toList with
    | some text => .ok (String.ofList text, .tail ⟨.string content, offset⟩ rest)
    | none => refuse tokens .invalidEscape
  | _ => refuse tokens (.expected "string")

/-- Reads an identifier or a string. -/
def readNameOrString (tokens : List Located) : Reading (String × Shorter tokens) :=
  match tokens with
  | ⟨.string content, offset⟩ :: rest => readString (⟨.string content, offset⟩ :: rest)
  | tokens => readIdentifier tokens

/-- Reads a precedence level. -/
def readLevel (tokens : List Located) : Reading (Int × Shorter tokens) :=
  match tokens with
  | ⟨.integer negative digits, offset⟩ :: rest =>
    let size : Int := Text.decimalNumber digits.toList
    let level := if negative then -size else size
    if leastLevel ≤ level ∧ level ≤ greatestLevel then
      .ok (level, .tail ⟨.integer negative digits, offset⟩ rest)
    else refuse tokens .integerOutOfRange
  | _ => refuse tokens (.expected "integer")

/-- Whether a rule starts here: an identifier and a colon. -/
def atRule : List Located → Bool
  | ⟨.identifier _, _⟩ :: ⟨.mark ':', _⟩ :: _ => true
  | _ => false

/-- Whether an item of a sequence starts here. -/
def atPrimary (tokens : List Located) : Bool :=
  match tokens with
  | ⟨.string _, _⟩ :: _ | ⟨.pattern _, _⟩ :: _ | ⟨.mark '(', _⟩ :: _ => true
  | ⟨.identifier _, _⟩ :: _ => !atRule tokens
  | _ => false

/-! ### Expressions -/

/-- The identifiers that, with a parenthesis after them, are no references. -/
def builtins : List String :=
  ["token", "prec", "prec_left", "prec_right", "nested", "delimited", "quoted", "blank"]

/-- The associativity that the name of a precedence builtin stands for. -/
def associativityOf : String → Associativity
  | "prec_left" => .left
  | "prec_right" => .right
  | _ => .none

/-- The expression for the alternatives of an alternation. -/
def alternationOf : List Expression → Expression
  | [] => .blank
  | [single] => single
  | alternatives => .choice alternatives

/-- The expression for the items of a sequence. -/
def sequenceOf : List Expression → Expression
  | [] => .blank
  | [single] => single
  | items => .seq items

/-- Applies the postfix marks that follow an expression. -/
def readPostfixMarks (inner : Expression) (tokens : List Located) :
    Expression × NotLonger tokens :=
  match tokens with
  | ⟨.mark '*', _⟩ :: rest =>
    let (outer, rest) := readPostfixMarks (.repetition 0 inner) rest
    (outer, rest.cons)
  | ⟨.mark '+', _⟩ :: rest =>
    let (outer, rest) := readPostfixMarks (.repetition 1 inner) rest
    (outer, rest.cons)
  | ⟨.mark '?', _⟩ :: rest =>
    let (outer, rest) := readPostfixMarks (.optional inner) rest
    (outer, rest.cons)
  | tokens => (inner, .whole tokens)

/-- The block that a builtin with two strings stands for. -/
def blockOf (name opening closing : String) : Expression :=
  match name with
  | "nested" => .nested opening closing
  | "quoted" => .quoted opening closing
  | _ => .delimited opening closing

mutual

/-- Reads sequences with bars between them. -/
def readAlternation (tokens : List Located) : Reading (Expression × NotLonger tokens) := do
  let (alternatives, rest) ← readAlternatives tokens
  return (alternationOf alternatives, rest)
termination_by 7 * tokens.length + 5

/-- Reads the sequences of an alternation. -/
def readAlternatives (tokens : List Located) :
    Reading (List Expression × NotLonger tokens) := do
  let (items, rest) ← readItems tokens
  match afterMark? '|' rest.1 with
  | some behindBar =>
    let behindBar := rest.transShorter behindBar
    let (others, further) ← readAlternatives behindBar.1
    return (sequenceOf items :: others, (behindBar.transNotLonger further).notLonger)
  | none => return ([sequenceOf items], rest)
termination_by 7 * tokens.length + 4
decreasing_by
  · exact Nat.add_lt_add_left (by decide) _
  · exact behindBar.rank_lt (by decide) _

/-- Reads the items of a sequence. -/
def readItems (tokens : List Located) : Reading (List Expression × NotLonger tokens) := do
  if atPrimary tokens then
    let (item, rest) ← readPostfix tokens
    let (items, further) ← readItems rest.1
    return (item :: items, (rest.transNotLonger further).notLonger)
  else return ([], .whole tokens)
termination_by 7 * tokens.length + 3
decreasing_by
  · exact Nat.add_lt_add_left (by decide) _
  · exact rest.rank_lt (by decide) _

/-- Reads a primary expression and the postfix marks after it. -/
def readPostfix (tokens : List Located) : Reading (Expression × Shorter tokens) := do
  let (primary, rest) ← readPrimary tokens
  let (item, further) := readPostfixMarks primary rest.1
  return (item, rest.transNotLonger further)
termination_by 7 * tokens.length + 2

/-- Reads an expression that needs no neighbours. -/
def readPrimary (tokens : List Located) : Reading (Expression × Shorter tokens) :=
  match tokens with
  | ⟨.pattern content, offset⟩ :: rest =>
    .ok (.pattern (String.ofList (unescapePattern content.toList)),
      .tail ⟨.pattern content, offset⟩ rest)
  | ⟨.mark '(', _⟩ :: rest => do
    let (inner, behindInner) ← readAlternation rest
    let behindMark ← readMark ')' behindInner.1
    return (inner, (behindInner.transShorter behindMark).cons)
  | ⟨.identifier name, offset⟩ :: rest =>
    match (if builtins.contains name then afterMark? '(' rest else none) with
    | some behindMark => do
      let (inner, behindInner) ← readArguments name behindMark.1
      let further ← readMark ')' behindInner.1
      return (inner, (behindMark.trans (behindInner.transShorter further)).cons)
    | none => .ok (.reference name, .tail ⟨.identifier name, offset⟩ rest)
  | ⟨.string content, offset⟩ :: rest => do
    let (text, rest) ← readString (⟨.string content, offset⟩ :: rest)
    return (.literal text, rest)
  | tokens => refuse tokens (.expected "an expression")
termination_by 7 * tokens.length + 1
decreasing_by
  · exact (Shorter.tail _ rest).rank_lt (by decide) _
  · exact behindMark.cons.rank_lt (by decide) _

/-- Reads the arguments of a builtin. -/
def readArguments (name : String) (tokens : List Located) :
    Reading (Expression × NotLonger tokens) :=
  match name with
  | "blank" => return (.blank, .whole tokens)
  | "token" => do
    let (inner, rest) ← readAlternation tokens
    return (.token inner, rest)
  | "prec" | "prec_left" | "prec_right" => do
    let (level, behindLevel) ← readLevel tokens
    let behindComma ← readMark ',' behindLevel.1
    let behindComma := behindLevel.trans behindComma
    let (inner, rest) ← readAlternation behindComma.1
    return (.precedence level (associativityOf name) inner,
      (behindComma.transNotLonger rest).notLonger)
  | _ => do
    let (opening, behindOpening) ← readString tokens
    let behindComma ← readMark ',' behindOpening.1
    let (closing, rest) ← readString behindComma.1
    return (blockOf name opening closing,
      (behindOpening.trans (behindComma.trans rest)).notLonger)
termination_by 7 * tokens.length + 6
decreasing_by
  · exact Nat.add_lt_add_left (by decide) _
  all_goals exact behindComma.rank_lt (by decide) _

end

/-! ### Directives and rules -/

/-- Reads identifiers, and stops in front of a rule if `beforeRule` holds. -/
def readNames (beforeRule : Bool) (tokens : List Located) : List String × NotLonger tokens :=
  match tokens with
  | ⟨.identifier name, offset⟩ :: rest =>
    if beforeRule && atRule (⟨.identifier name, offset⟩ :: rest) then
      ([], .whole (⟨.identifier name, offset⟩ :: rest))
    else
      let (names, further) := readNames beforeRule rest
      (name :: names, further.cons)
  | tokens => ([], .whole tokens)

/-- Reads strings as long as there are any. -/
def readStrings (tokens : List Located) : Reading (List String × NotLonger tokens) :=
  match tokens with
  | ⟨.string content, offset⟩ :: rest => do
    let (text, rest) ← readString (⟨.string content, offset⟩ :: rest)
    let (texts, further) ← readStrings rest.1
    return (text :: texts, (rest.transNotLonger further).notLonger)
  | tokens => return ([], .whole tokens)
termination_by tokens.length
decreasing_by exact rest.2

/-- Reads lists of identifiers in parentheses. -/
def readNameSets (tokens : List Located) : Reading (List (List String) × NotLonger tokens) :=
  match afterMark? '(' tokens with
  | some behindMark => do
    let (names, behindNames) := readNames false behindMark.1
    let rest ← readMark ')' behindNames.1
    let rest := behindMark.trans (behindNames.transShorter rest)
    let (sets, further) ← readNameSets rest.1
    return (names :: sets, (rest.transNotLonger further).notLonger)
  | none => return ([], .whole tokens)
termination_by tokens.length
decreasing_by exact rest.2

/-- Reads the arguments of a directive and applies it.  `whole` is the directive with them,
for a fault that is about the directive itself. -/
def readDirective (name : String) (whole tokens : List Located) (grammar : Grammar) :
    Reading (Grammar × NotLonger tokens) := do
  match name with
  | "name" =>
    let (text, rest) ← readNameOrString tokens
    return (grammar.setName text, rest.notLonger)
  | "start" =>
    let (rule, rest) ← readIdentifier tokens
    return (grammar.setStart rule, rest.notLonger)
  | "word" =>
    let (rule, rest) ← readIdentifier tokens
    return (grammar.setWord rule, rest.notLonger)
  | "extras" =>
    let (rules, rest) := readNames true tokens
    return (rules.foldl Grammar.markExtra grammar, rest)
  | "hidden" =>
    let (rules, rest) := readNames true tokens
    return (rules.foldl Grammar.markHidden grammar, rest)
  | "sync" =>
    let (texts, rest) ← readStrings tokens
    return (texts.foldl Grammar.addSync grammar, rest)
  | "conflicts" =>
    let (sets, rest) ← readNameSets tokens
    return (sets.foldl Grammar.addConflict grammar, rest)
  | "end_markers" =>
    let (texts, rest) ← readStrings tokens
    return (grammar.setEndMarkers (texts.flatMap String.toList), rest)
  | _ => refuse whole (.unknownDirective name)

/-- Reads a definition after the name of its rule. -/
def readDefinition (name : String) (tokens : List Located) (grammar : Grammar) :
    Reading (Grammar × Shorter tokens) := do
  let behindColon ← readMark ':' tokens
  let (body, behindBody) ← readAlternation behindColon.1
  let rest ← readMark ';' behindBody.1
  return ({ grammar with rules := grammar.rules ++ [(name, body)] },
    behindColon.trans (behindBody.transShorter rest))

/-- Reads directives and rules up to the last token, adding to a grammar. -/
def readGrammar (grammar : Grammar) (tokens : List Located) : Reading Grammar :=
  match tokens with
  | [] => .ok grammar
  | ⟨.directive name, offset⟩ :: rest => do
    let (grammar, further) ← readDirective name (⟨.directive name, offset⟩ :: rest) rest grammar
    readGrammar grammar further.1
  | ⟨.identifier name, offset⟩ :: rest =>
    if grammar.declares name then
      refuse (⟨.identifier name, offset⟩ :: rest) (.definedTwice name)
    else do
      let (grammar, further) ← readDefinition name rest grammar
      readGrammar grammar further.1
  | tokens => refuse tokens (.expected "a rule or a directive")
termination_by tokens.length
decreasing_by
  · exact Nat.lt_succ_of_le further.2
  · exact Nat.lt_succ_of_lt further.2

/-- The grammar that a list of tokens describes.  The first rule is the start rule unless a
directive names another one. -/
def parse (tokens : List Located) : Reading Grammar := do
  let grammar ← readGrammar (Grammar.empty "grammar") tokens
  return if grammar.start.isSome then grammar else grammar.startAtFirstRule

/-- The error for a fault in a text: it is reported at the offending token, or at the end of
the text, with line and column counted from one. -/
def Fault.toError (fault : Fault) (text : List Char) : GrammarError :=
  let offset := match fault.rest with
    | located :: _ => located.offset
    | [] => Text.byteLength text
  let position := (Text.LineIndex.ofText text).position offset
  .malformedText (position.line + 1) (position.column + 1) fault.fault
    (fault.rest.head?.map fun located => located.token.spelling)

end Syntagm.Notation

namespace Syntagm.Grammar

/-- The grammar that a text in the grammar notation describes. -/
def ofNotation (text : String) : Except GrammarError Grammar :=
  match Notation.parse (Notation.tokenize text.toList) with
  | .ok grammar => .ok grammar
  | .error fault => .error (fault.toError text.toList)

end Syntagm.Grammar
