import Syntagm.Kind.Set
import Syntagm.Program.Basic

/-!
# What operations can begin with

For each operation of a program: whether it can match nothing (it is *nullable*), and the
kinds of token that its matches can begin with (its *first set*).  A rule stands for the
operation its matches start with.

Both are least solutions of equations, one for each operation, in which the solutions for
other operations occur.  They are computed in rounds, from `false` and the empty set on; in
each round all equations are evaluated with what the round before gave.  What is derivable at
all has a derivation that uses no operation twice on a path, so as many rounds as there are
operations are enough; a round that changes nothing is the last.
-/

namespace Syntagm

/-- Applies a function until nothing changes, at most `rounds` times. -/
def stabilize {α : Type} [DecidableEq α] (step : α → α) : (rounds : Nat) → α → α
  | 0, current => current
  | rounds + 1, current =>
    let next := step current
    if next = current then current else stabilize step rounds next

/-- Nullability and first sets of the operations of a program. -/
structure Analysis where
  nullable : Array Bool
  first : Array KindSet
  deriving DecidableEq, Repr, Inhabited

namespace Program

/-- The operation that the matches of a rule start with. -/
def entry? (program : Program) (rule : Nat) : Option Nat :=
  (program.rules[rule]?).map (·.entry)

/-! ### Nullability -/

/-- Whether an operation is nullable, given which others are. -/
def nullableGiven (program : Program) (known : Array Bool) : Op Nat → Bool
  | .token _ => false
  | .blank | .optional _ => true
  | .seq items => items.all fun item => known.getD item false
  | .choice alternatives => alternatives.any fun alternative => known.getD alternative false
  | .repetition least inner => least == 0 || known.getD inner false
  | .call rule _ => (program.entry? rule).any fun entry => known.getD entry false

/-- Which operations are nullable. -/
def nullableOps (program : Program) : Array Bool :=
  stabilize (fun known => program.ops.map (program.nullableGiven known)) program.ops.size
    (program.ops.map fun _ => false)

/-! ### First sets -/

/-- The first set of a sequence: that of its first item, and, if that is nullable, that of
the rest. -/
def firstOfItems (nullable : Array Bool) (known : Array KindSet) : List Nat → KindSet
  | [] => ∅
  | item :: rest =>
    if nullable.getD item false then known.getD item ∅ ∪ firstOfItems nullable known rest
    else known.getD item ∅

/-- The first set of an operation, given those of others. -/
def firstGiven (program : Program) (nullable : Array Bool) (known : Array KindSet) :
    Op Nat → KindSet
  | .token kind => KindSet.single kind
  | .blank => ∅
  | .seq items => firstOfItems nullable known items
  | .choice alternatives =>
    alternatives.foldl (fun first alternative => first ∪ known.getD alternative ∅) ∅
  | .repetition _ inner | .optional inner => known.getD inner ∅
  | .call rule _ => ((program.entry? rule).map fun entry => known.getD entry ∅).getD ∅

/-- The first sets of all operations, given which are nullable. -/
def firstSets (program : Program) (nullable : Array Bool) : Array KindSet :=
  stabilize (fun known => program.ops.map (program.firstGiven nullable known)) program.ops.size
    (program.ops.map fun _ => ∅)

/-- Nullability and first sets of the operations of a program. -/
def analyze (program : Program) : Analysis :=
  let nullable := program.nullableOps
  ⟨nullable, program.firstSets nullable⟩

end Program

namespace Analysis

def isNullable (analysis : Analysis) (op : Nat) : Bool := analysis.nullable.getD op false

def firstSet (analysis : Analysis) (op : Nat) : KindSet := analysis.first.getD op ∅

end Analysis

namespace Program

/-- Whether a rule is nullable. -/
def isRuleNullable (program : Program) (analysis : Analysis) (rule : Nat) : Bool :=
  (program.entry? rule).any analysis.isNullable

/-- The first set of a rule. -/
def ruleFirstSet (program : Program) (analysis : Analysis) (rule : Nat) : KindSet :=
  ((program.entry? rule).map analysis.firstSet).getD ∅

/-- The tails of left-recursive rules that are nullable, each as a rule and the number of
the tail in it. -/
def nullableTails (program : Program) (analysis : Analysis) : List (Nat × Nat) :=
  program.rules.toList.zipIdx.flatMap fun (rule, number) =>
    match rule.body with
    | .plain _ => []
    | .leftRecursive _ tails =>
      tails.zipIdx.filterMap fun (tail, position) =>
        if analysis.isNullable tail.op then some (number, position) else none

end Program

end Syntagm
