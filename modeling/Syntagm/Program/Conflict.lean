import Syntagm.Grammar.Basic
import Syntagm.Kind.Set
import Syntagm.Program.Analysis

/-!
# What ordered choice cannot tell apart

Choice is ordered, so every text has one reading; but some shapes make the order senseless:
an alternative that matches nothing hides those after it, of two identical alternatives the
second is never chosen, and a repetition of something empty repeats nothing.  These are
conflicts.  A conflict is tolerated, with a warning, if one of the rules it is about belongs
to a declared set of conflicts, and else an error.

Two alternatives that can begin with the same token are only worth a warning.
-/

namespace Syntagm

/-- What is remarkable about a grammar but no error. -/
inductive Warning where
  /-- A rule that no text can lead to. -/
  | unreachable (rule : String)
  /-- Two alternatives, counted from one, that can begin with the same tokens. -/
  | orderedAmbiguity (rule : String) (first second : Nat) (tokens : List String)
  /-- A conflict that the grammar declares. -/
  | tolerated (rules : List String) (cause : ConflictCause)
  deriving DecidableEq, Repr

def Warning.message : Warning → String
  | .unreachable rule => s!"rule `{rule}` is unreachable"
  | .orderedAmbiguity rule first second tokens =>
    let tokens := ", ".intercalate tokens
    s!"alternatives {first} and {second} of `{rule}` both start with {tokens}; " ++
      s!"alternative {first} wins"
  | .tolerated rules cause =>
    let rules := ", ".intercalate rules
    s!"declared conflict in {rules}: {cause.message}"

namespace Program

/-- All pairs of elements of a list, an earlier one first, with their positions. -/
def pairs {α : Type} (xs : List α) : List ((Nat × α) × (Nat × α)) :=
  xs.zipIdx.flatMap fun (x, i) => (xs.zipIdx.drop (i + 1)).map fun (y, j) => ((i, x), (j, y))

/-- The rule that an operation calls, if that is all it does. -/
def calledRule? (program : Program) (op : Nat) : Option String :=
  match program.ops[op]? with
  | some (.call rule _) => some (program.ruleName rule)
  | _ => none

/-- The rules that compete in some alternatives: the owner, and those that an alternative
calls outright. -/
def competing (program : Program) (owner : String) (alternatives : List Nat) : List String :=
  (owner :: alternatives.filterMap program.calledRule?).eraseDups

/-- A conflict with the rules it is about. -/
abbrev Conflict := List String × ConflictCause

/-- The conflicts in a choice. -/
def choiceConflicts (program : Program) (analysis : Analysis) (owner : String)
    (alternatives : List Nat) : List Conflict :=
  let shadowing := alternatives.dropLast.zipIdx.filterMap fun (alternative, position) =>
    if analysis.isNullable alternative then
      some (program.competing owner (alternatives.drop position),
        ConflictCause.shadows (position + 1) owner)
    else none
  let identical := (pairs alternatives).filterMap fun ((i, first), (j, second)) =>
    if program.sameShape first second then
      some (program.competing owner [first, second],
        ConflictCause.identical (i + 1) (j + 1) owner)
    else none
  shadowing ++ identical

/-- The conflicts in an operation. -/
def opConflicts (program : Program) (analysis : Analysis) (number : Nat) : List Conflict :=
  let owner := program.ownerName number
  match program.ops[number]? with
  | some (.choice alternatives) => program.choiceConflicts analysis owner alternatives
  | some (.repetition _ inner) =>
    if analysis.isNullable inner then
      [(program.competing owner [inner], .emptyRepetition owner)]
    else []
  | _ => []

/-- All conflicts of a program, by operation, and then those of tails that match nothing. -/
def conflicts (program : Program) (analysis : Analysis) : List Conflict :=
  (List.range program.ops.size).flatMap (program.opConflicts analysis) ++
    (program.nullableTails analysis).map fun (rule, position) =>
      let name := program.ruleName rule
      ([name], .emptyTail (position + 1) name)

/-- The alternatives of a choice that can begin with the same tokens. -/
def choiceAmbiguities (program : Program) (analysis : Analysis) (kinds : KindTable)
    (number : Nat) : List Warning :=
  match program.ops[number]? with
  | some (.choice alternatives) =>
    (pairs alternatives).filterMap fun ((i, first), (j, second)) =>
      let shared := (analysis.firstSet first).intersection (analysis.firstSet second)
      if shared.isEmpty then none
      else
        let tokens := shared.toList.filterMap fun kind => (kinds.info? kind).map (·.display)
        some (.orderedAmbiguity (program.ownerName number) (i + 1) (j + 1) tokens)
  | _ => []

/-- All ambiguities of a program. -/
def ambiguities (program : Program) (analysis : Analysis) (kinds : KindTable) : List Warning :=
  (List.range program.ops.size).flatMap (program.choiceAmbiguities analysis kinds)

/-- The warnings about conflicts that the grammar declares; the first other conflict is an
error. -/
def toleratedConflicts (grammar : Grammar) (conflicts : List Conflict) :
    Except GrammarError (List Warning) :=
  conflicts.mapM fun (rules, cause) =>
    if rules.any grammar.inDeclaredConflict then .ok (.tolerated rules cause)
    else .error (.conflict rules cause)

/-- The warnings about conflicts and ambiguities. -/
def checkConflicts (program : Program) (grammar : Grammar) (analysis : Analysis)
    (kinds : KindTable) : Except GrammarError (List Warning) := do
  let tolerated ← toleratedConflicts grammar (program.conflicts analysis)
  return tolerated ++ program.ambiguities analysis kinds

end Program

end Syntagm
