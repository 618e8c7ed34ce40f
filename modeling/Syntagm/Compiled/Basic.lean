import Syntagm.Grammar.Resolution
import Syntagm.Lexicon.OfGrammar
import Syntagm.Program.Conflict
import Syntagm.Program.LeftCorner
import Syntagm.Program.Lowering

/-!
# Compiled grammars

A compiled grammar has all that lexing and parsing need: the table of kinds, the terminals,
the program and its analysis.  Compiling finds every error in a grammar; after it, parsing
never fails.

The steps come in this order, and so do their errors: names are resolved, terminals and their
matchers are built, rules are lowered, cycles among left corners and conflicts are looked
for, and last the texts at which parsing resumes are looked up.
-/

namespace Syntagm

/-- A grammar and what it was compiled to. -/
structure CompiledGrammar where
  grammar : Grammar
  kinds : KindTable
  lexicon : Lexicon
  program : Program
  analysis : Analysis
  /-- The start rule. -/
  start : Nat
  /-- The kinds of token at which parsing resumes after an error. -/
  sync : KindSet
  warnings : List Warning
  deriving Inhabited

namespace Grammar

/-- The kind of a text at which parsing resumes: a literal, or the token rule of that
name. -/
def syncKind (lexicon : Lexicon) (text : String) : Except GrammarError Kind :=
  match (lexicon.literal? text).or (lexicon.named? text) with
  | some kind => .ok kind
  | none => .error (.unresolved "sync" text)

/-- Compiles a grammar. -/
def compile (grammar : Grammar) : Except GrammarError CompiledGrammar := do
  let start ← grammar.resolve
  let tokens := grammar.tokenRules
  let draft ← Lexicon.ofGrammar grammar tokens
  let lexicon := draft.lexicon
  let (program, kinds) ← Program.ofGrammar grammar tokens draft
  let analysis := program.analyze
  program.checkLeftCorners analysis
  let found ← program.checkConflicts grammar analysis kinds
  let some start := program.rule? start | throw (.unresolved "start" start)
  let sync ← grammar.sync.mapM (syncKind lexicon)
  return {
    grammar, kinds, lexicon, program, analysis, start
    sync := KindSet.ofList sync
    warnings := grammar.unreachable.map .unreachable ++ found }

end Grammar

namespace CompiledGrammar

/-- The fingerprint of the grammar. -/
def fingerprint (compiled : CompiledGrammar) : UInt64 := compiled.grammar.fingerprint

/-- Whether the grammar is the given one.  Different fingerprints settle it quickly. -/
def isCompiledFrom (compiled : CompiledGrammar) (grammar : Grammar) : Bool :=
  compiled.fingerprint == grammar.fingerprint && compiled.grammar == grammar

/-- Whether two compiled grammars come from the same grammar, so that their kinds and rules
agree. -/
def sameGrammar (first second : CompiledGrammar) : Bool :=
  first.isCompiledFrom second.grammar

/-- A kind in a message. -/
def kindName (compiled : CompiledGrammar) (kind : Kind) : String := compiled.kinds.display kind

/-- The kind of the root of every tree. -/
def startKind (compiled : CompiledGrammar) : Kind :=
  ((compiled.program.rules[compiled.start]?).map (·.kind)).getD Kind.error

/-- Whether tokens of this kind are skipped by the parser. -/
def isTrivia (compiled : CompiledGrammar) (kind : Kind) : Bool := compiled.lexicon.isExtra kind

end CompiledGrammar

end Syntagm
