import Syntagm.Text.Quoted

/-!
# What can be wrong with a grammar

Errors are found while a grammar is put together, read or compiled, before any text is
parsed.  Each is a cause with the names it is about; the wording is in one function per type.
-/

namespace Syntagm

/-- Ways in which ordered choice cannot do what the rule says.  Alternatives are counted
from one. -/
inductive ConflictCause where
  /-- The alternative matches the empty text, so those after it are never reached. -/
  | shadows (alternative : Nat) (owner : String)
  /-- Two alternatives are the same. -/
  | identical (first second : Nat) (owner : String)
  /-- A repetition of something that can be empty. -/
  | emptyRepetition (owner : String)
  /-- A left-recursive alternative that adds nothing to what it continues. -/
  | emptyTail (alternative : Nat) (rule : String)
  deriving DecidableEq, Repr

def ConflictCause.message : ConflictCause → String
  | .shadows alternative owner =>
    s!"alternative {alternative} of `{owner}` matches the empty string, so the alternatives " ++
      "after it are never tried"
  | .identical first second owner =>
    s!"alternatives {first} and {second} of `{owner}` are identical"
  | .emptyRepetition owner => s!"a repetition in `{owner}` can match the empty string"
  | .emptyTail alternative rule =>
    s!"left-recursive alternative {alternative} of `{rule}` consumes nothing after `{rule}`"

/-- Ways in which a token expression is malformed. -/
inductive TokenFault where
  /-- A literal without characters. -/
  | emptyLiteral
  /-- A block or string with an empty delimiter. -/
  | emptyDelimiter
  /-- A token whose definition comes back to itself through the named rule. -/
  | selfReference (name : String)
  /-- A block or string as a part of a larger token. -/
  | combinedBlock
  /-- Patterns that are fine alone but name the same group twice when they are put together. -/
  | repeatedGroup
  /-- A literal that the lexical grammar does not know. -/
  | unknownLiteral (text : String)
  /-- A terminal that the lexical grammar does not know. -/
  | unknownTerminal
  deriving DecidableEq, Repr

def TokenFault.message : TokenFault → String
  | .emptyLiteral => "empty literal"
  | .emptyDelimiter => "delimiters must not be empty"
  | .selfReference name => s!"token refers to itself through `{name}`"
  | .combinedBlock =>
    "nested, delimited and quoted terminals cannot be combined inside token()"
  | .repeatedGroup => "error parsing pattern 0"
  | .unknownLiteral text => s!"literal {Text.quoted text} has no token"
  | .unknownTerminal => "inline terminal has no token"

/-- What a reader of grammar text did not find, or found and cannot use. -/
inductive ReadingFault where
  /-- Something else should stand here. -/
  | expected (what : String)
  /-- There is no directive of this name. -/
  | unknownDirective (name : String)
  /-- The rule has a definition already. -/
  | definedTwice (rule : String)
  /-- A number that does not fit a precedence level. -/
  | integerOutOfRange
  /-- A backslash in a string that starts no escape. -/
  | invalidEscape
  deriving DecidableEq, Repr

def ReadingFault.message : ReadingFault → String
  | .expected what => s!"expected {what}"
  | .unknownDirective name => s!"unknown directive `@{name}`"
  | .definedTwice rule => s!"rule `{rule}` is defined twice"
  | .integerOutOfRange => "integer out of range"
  | .invalidEscape => "invalid escape sequence"

/-- Everything that can be wrong with a grammar. -/
inductive GrammarError where
  /-- A second definition of a rule. -/
  | duplicateRule (name : String)
  /-- No start rule, or no rule at all. -/
  | emptyGrammar
  /-- A name that no rule has, and where it is used. -/
  | unresolved (user name : String)
  /-- Alternatives that ordered choice cannot tell apart. -/
  | conflict (rules : List String) (cause : ConflictCause)
  /-- Rules that call each other without reading a token, first and last the same. -/
  | leftRecursion (cycle : List String)
  /-- An extra that is no token. -/
  | invalidExtra (name : String)
  /-- A word rule that is no token. -/
  | invalidWord (name : String)
  /-- A malformed token expression in a rule. -/
  | invalidToken (rule : String) (fault : TokenFault)
  /-- A pattern that cannot be read, in a rule. -/
  | invalidPattern (rule pattern : String)
  /-- Grammar text that cannot be read, with line and column from one and the token that stood
  there, or nothing at the end of the text. -/
  | malformedText (line column : Nat) (fault : ReadingFault) (found : Option String)
  /-- A grammar document that cannot be read, as a whole or in the entry of one rule. -/
  | malformedDocument (rule : Option String)
  deriving DecidableEq, Repr

namespace GrammarError

/-- The text of an error. -/
def message : GrammarError → String
  | .duplicateRule name => s!"Duplicate rule: `{name}` is already defined"
  | .emptyGrammar => "Empty grammar: no start rule is set"
  | .unresolved user name => s!"Unresolved rule: `{name}` (referenced from `{user}`)"
  | .conflict rules cause =>
    let names := ", ".intercalate (rules.map fun rule => s!"`{rule}`")
    s!"Grammar conflict between {names}: {cause.message}"
  | .leftRecursion cycle => "Unsupported left recursion: " ++ " -> ".intercalate cycle
  | .invalidExtra name =>
    s!"Invalid extra `{name}`: extras must be tokens, but this rule has syntactic structure"
  | .invalidWord name => s!"Invalid word rule `{name}`: the word rule must be a token"
  | .invalidToken rule fault => s!"Invalid token in `{rule}`: {fault.message}"
  | .invalidPattern rule pattern => s!"Invalid pattern /{pattern}/ in `{rule}`"
  | .malformedText line column fault found =>
    let found := match found with
      | some text => s!"`{text}`"
      | none => "end of input"
    s!"Grammar notation error at {line}:{column}: {fault.message}, found {found}"
  | .malformedDocument none => "Grammar JSON error"
  | .malformedDocument (some rule) => s!"Grammar JSON error: rule `{rule}`"

/-- The rules an error is about. -/
def ruleNames : GrammarError → List String
  | .duplicateRule name => [name]
  | .unresolved user name => [user, name]
  | .conflict rules _ => rules
  | .leftRecursion cycle => cycle
  | .invalidExtra name | .invalidWord name => [name]
  | .invalidToken rule _ | .invalidPattern rule _ => [rule]
  | .emptyGrammar | .malformedText .. | .malformedDocument _ => []

end GrammarError

end Syntagm
