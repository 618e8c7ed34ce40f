import Syntagm.Grammar.Error
import Syntagm.Program.Analysis

/-!
# Rules that begin with each other

A rule has another one in its left corner if it can call it before any token is read.  Direct
left recursion has been dissolved into base and tails, so every cycle that is left in this
graph would call rules without end, and is an error.

The search goes depth first through the rules in order.  The path it is on names the cycle as
soon as it comes back to a rule on it; a rule that was left again is on no cycle.
-/

namespace Syntagm.Program

/-- The rules that an operation can call before any token is read, in order and with
repeats. -/
def leftCalls (program : Program) (analysis : Analysis) (op : Nat) : List Nat :=
  match program.view op with
  | .token _ | .blank => []
  | .call rule _ => [rule]
  | .seq items =>
    let crossed := items.takeWhile fun item : Fin op => analysis.isNullable item
    (items.take (crossed.length + 1)).flatMap fun item : Fin op =>
      program.leftCalls analysis item
  | .choice alternatives =>
    alternatives.flatMap fun alternative : Fin op => program.leftCalls analysis alternative
  | .repetition _ inner => program.leftCalls analysis inner
  | .optional inner => program.leftCalls analysis inner
termination_by op
decreasing_by
  · exact item.isLt
  · exact alternative.isLt
  · exact inner.isLt
  · exact inner.isLt

/-- The left corner of each rule. -/
def leftCorners (program : Program) (analysis : Analysis) : Array (List Nat) :=
  program.rules.map fun rule => (program.leftCalls analysis rule.entry).eraseDups

/-- Visits a rule and all that it leads to, except for rules that are `done`.  Returns the
rules that are done afterwards, or the first cycle that is met.  `path` leads to the rule and
`depth` bounds the length of paths. -/
def visit (corners : Array (List Nat)) :
    (depth : Nat) → (path : List Nat) → (rule : Nat) → (done : List Nat) →
      Except (List Nat) (List Nat)
  | 0, _, _, done => .ok done
  | depth + 1, path, rule, done => do
    let path := path ++ [rule]
    let visitNext (done : List Nat) (next : Nat) : Except (List Nat) (List Nat) :=
      if path.contains next then .error (path.dropWhile (· ≠ next) ++ [next])
      else if done.contains next then .ok done
      else visit corners depth path next done
    let done ← (corners.getD rule []).foldlM visitNext done
    return rule :: done

/-- The first cycle among the left corners, with the rule it begins with also at its end. -/
def findCycle? (corners : Array (List Nat)) : Option (List Nat) :=
  let visitRoot (done : List Nat) (rule : Nat) : Except (List Nat) (List Nat) :=
    if done.contains rule then .ok done else visit corners corners.size [] rule done
  match (List.range corners.size).foldlM visitRoot [] with
  | .ok _ => none
  | .error cycle => some cycle

/-- Refuses a program whose rules begin with each other in a cycle. -/
def checkLeftCorners (program : Program) (analysis : Analysis) : Except GrammarError Unit :=
  match findCycle? (program.leftCorners analysis) with
  | some cycle => .error (.leftRecursion (cycle.map program.ruleName))
  | none => .ok ()

end Syntagm.Program
