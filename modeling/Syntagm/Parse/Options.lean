/-!
# Options of a parser

Limits bound the work on one text: how deep rules may call each other, and how much may be
tried to get past errors.
-/

namespace Syntagm

/-- What a parser may do. -/
structure ParserOptions where
  /-- Whether results of rule calls are kept; without it nothing is reused after an edit. -/
  memoize : Bool
  /-- How many rule calls may be active at once. -/
  maxDepth : Nat
  /-- How many runs may be spent on looking for repairs. -/
  maxTrials : Nat
  /-- How many repairs are made, each of which is one error. -/
  maxRepairs : Nat
  /-- How many tokens, or tokens to resume at, a skipped stretch may hold. -/
  syncWindow : Nat
  /-- How many tokens may be put in at one place. -/
  maxInsertions : Nat
  deriving DecidableEq, Repr

namespace ParserOptions

def standard : ParserOptions where
  memoize := true
  maxDepth := 4096
  maxTrials := 4096
  maxRepairs := 256
  syncWindow := 4
  maxInsertions := 4

instance : Inhabited ParserOptions := ⟨standard⟩

/-- No repairs: the first error ends the parse. -/
def strict : ParserOptions := { standard with maxRepairs := 0 }

end ParserOptions

end Syntagm
