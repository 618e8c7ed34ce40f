import Syntagm.Grammar.Expression
import Syntagm.Kind.Set
import Syntagm.Pattern.Basic

/-!
# Terminals

A lexicon holds the terminals of a grammar: how each of them is recognized at the start of a
text (`Matcher`), which of them may stand between any two tokens, and which literals are
keywords, that is, are found by looking up what the word terminal matched.
-/

namespace Syntagm

/-- Ways to recognize a token at the start of a text. -/
inductive Matcher where
  /-- Exactly this text. -/
  | literal (text : String)
  /-- The longest match of a pattern. -/
  | pattern (pattern : Pattern)
  /-- A block between `opening` and `closing` with blocks of the same kind in it. -/
  | nested (opening closing : String)
  /-- A string that chooses its inner delimiter. -/
  | delimited (opening closing : String)
  /-- A string with backslash escapes. -/
  | quoted (opening closing : String)
  /-- The longest match of several matchers, of equally long ones the first. -/
  | any (alternatives : List Matcher)
  deriving Inhabited

def Matcher.isLiteral : Matcher → Bool
  | .literal _ => true
  | _ => false

/-- A terminal of a grammar. -/
structure Terminal where
  kind : Kind
  name : String
  matcher : Matcher
  /-- Whether the terminal may stand between any two tokens. -/
  isExtra : Bool
  /-- Whether the terminal is found through the word terminal only. -/
  isKeyword : Bool
  deriving Inhabited

/-- The terminals of a grammar in the order of their kinds, and how they are found. -/
structure Lexicon where
  terminals : List Terminal
  /-- The terminal that keywords are looked up under. -/
  word : Option Kind
  keywords : List (String × Kind)
  extras : KindSet
  endMarkers : List Char
  /-- The terminals that are rules, by name. -/
  named : List (String × Kind)
  /-- The terminals that are texts in other rules. -/
  literals : List (String × Kind)
  /-- The terminals that are written out in other rules. -/
  inline : List (Expression × Kind)
  deriving Inhabited

namespace Lexicon

/-- The lexicon without terminals. -/
def empty (endMarkers : List Char) : Lexicon where
  terminals := []
  word := none
  keywords := []
  extras := ∅
  endMarkers := endMarkers
  named := []
  literals := []
  inline := []

/-- The terminal of a kind. -/
def terminal? (lexicon : Lexicon) (kind : Kind) : Option Terminal :=
  lexicon.terminals.find? (·.kind = kind)

/-- Whether tokens of this kind are skipped by the parser. -/
def isExtra (lexicon : Lexicon) (kind : Kind) : Bool :=
  kind == Kind.endMarker || lexicon.extras.contains kind

/-- The terminal that is the rule of this name. -/
def named? (lexicon : Lexicon) (name : String) : Option Kind := lexicon.named.lookup name

/-- The terminal that is this text in a rule. -/
def literal? (lexicon : Lexicon) (text : String) : Option Kind := lexicon.literals.lookup text

/-- The terminal that is written out like this in a rule. -/
def inline? (lexicon : Lexicon) (expression : Expression) : Option Kind :=
  lexicon.inline.lookup expression

/-- The keyword with this text. -/
def keyword? (lexicon : Lexicon) (text : String) : Option Kind := lexicon.keywords.lookup text

end Lexicon

end Syntagm
