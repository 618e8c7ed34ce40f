import Syntagm.Parse.Recovery
import Syntagm.Token.Lexer
import Syntagm.Tree.SExpression
import Syntagm.Word

/-!
# Parsing

A parser cuts a text into tokens and matches them against the start rule of its grammar.  It
always gives a tree, which holds the whole text; what is wrong with the text is in the
diagnostics, in the order of the text (`Parse`).

Sums that are no words are formed modulo the size of the word (`Parser.parse`).  A program that
checks its sums stops there, and gives the same everywhere else (`Parser.parse?`).
-/

namespace Syntagm

/-- A compiled grammar and the options to parse with. -/
structure Parser where
  compiled : CompiledGrammar
  options : ParserOptions
  deriving Inhabited

/-- What parsing a text gave. -/
structure Parse where
  tree : Element
  /-- What is wrong with the text, by offset. -/
  diagnostics : List Diagnostic
  /-- The grammar it was parsed with. -/
  compiled : CompiledGrammar
  tokens : Tokens
  /-- What the next parse may use again, by significant token. -/
  reuse : List (MemoKey × MemoEntry)
  /-- How many remembered results the parse began with. -/
  reused : Nat
  deriving Inhabited

namespace Parse

/-- Whether nothing is wrong with the text. -/
def isOk (parse : Parse) : Bool := parse.diagnostics.isEmpty

/-- The text, from the tree. -/
def text (parse : Parse) : List Char := parse.tree.text

/-- The smallest element at an offset. -/
def at? (parse : Parse) (offset : Nat) : Option Element.Located := parse.tree.at? offset

/-- The tree as text. -/
def sExpression (parse : Parse) : String := parse.tree.sExpression parse.compiled

/-- Whether two parses agree on the tree and the diagnostics. -/
def sameResult (first second : Parse) : Bool :=
  first.tree == second.tree && first.diagnostics == second.diagnostics

end Parse

namespace Parser

variable (parser : Parser)

/-- A parser with the standard options. -/
def ofCompiled (compiled : CompiledGrammar) : Parser := ⟨compiled, .standard⟩

/-- What is parsed: the significant tokens of a text, with the grammar and the options. -/
def scope (text : List Char) (tokens : Tokens) : RecoveryScope :=
  ⟨parser.compiled, parser.options, Source.ofTokens text tokens⟩

/-- What parsing gave, once the tokens were matched. -/
def conclude (tokens : Tokens) (seed : Memo) (recovered : Recovered) : Parse where
  tree := recovered.tree
  diagnostics := (tokens.diagnostics ++ recovered.errors).mergeSort fun first second =>
    first.offset ≤ second.offset
  compiled := parser.compiled
  tokens := tokens
  reuse := recovered.reuse
  reused := seed.size

/-- Parses a text with given tokens.  `seed` is what is remembered of them. -/
def parseWith (text : List Char) (tokens : Tokens) (seed : Memo) : Parse :=
  parser.conclude tokens seed ((parser.scope text tokens).recover seed)

/-- Parses a text. -/
def parse (text : List Char) : Parse :=
  parser.parseWith text (parser.compiled.tokenize text) ∅

/-- Parses a text that has been cut into tokens.  Tokens that are not those of the text are
dropped, and the text is cut again. -/
def parseTokens (text : List Char) (tokens : Tokens) : Parse :=
  if tokens.covers text then parser.parseWith text tokens ∅ else parser.parse text

/-! ### In either arithmetic -/

variable (arithmetic : Arithmetic)

/-- Parses a text with given tokens, unless the program stops. -/
def parseWith? (text : List Char) (tokens : Tokens) (seed : Memo) : Option Parse :=
  let recovered := (parser.scope text tokens).recover seed
  arithmetic.result? recovered.strayed (parser.conclude tokens seed recovered)

/-- Parses a text, unless the program stops. -/
def parse? (text : List Char) : Option Parse :=
  parser.parseWith? arithmetic text (parser.compiled.tokenize text) ∅

/-- Parses a text that has been cut into tokens, unless the program stops. -/
def parseTokens? (text : List Char) (tokens : Tokens) : Option Parse :=
  if tokens.covers text then parser.parseWith? arithmetic text tokens ∅
  else parser.parse? arithmetic text

/-- Parses texts that have nothing to do with each other, unless the program stops at one. -/
def parseAll? (texts : List (List Char)) : Option (List Parse) :=
  texts.mapM (parser.parse? arithmetic)

end Parser

end Syntagm
