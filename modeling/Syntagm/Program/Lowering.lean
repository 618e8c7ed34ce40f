import Syntagm.Lexicon.OfGrammar
import Syntagm.Program.Basic

/-!
# From rule bodies to operations

The body of a rule becomes operations, parts first.  References to rules become calls,
everything terminal becomes a token.

**Left recursion.**  A body is a choice of alternatives once precedence annotations and
choices inside choices are dissolved (`alternatives`); each keeps the annotation nearest to
it.  An alternative that begins with a reference to its own rule is a tail: what is left of it
without the reference is the tail's operation.  The other alternatives are the base.  A
reference to the rule at the end of an alternative calls it with a bound, the level of the
alternative, or one above it if the alternative groups to the left; so the operand it matches
takes no operator that the alternative has to leave to others.
-/

namespace Syntagm

/-! ### Operations under construction -/

/-- The operations so far, and the rule that each belongs to. -/
structure Arena where
  ops : Array (Op Nat)
  owners : Array Nat
  deriving Inhabited

namespace Arena

def empty : Arena := ⟨#[], #[]⟩

/-- Adds an operation, and returns its number. -/
def add (arena : Arena) (owner : Nat) (op : Op Nat) : Nat × Arena :=
  (arena.ops.size, ⟨arena.ops.push op, arena.owners.push owner⟩)

end Arena

/-- What is known where a rule is lowered: the terminals, the names of all rules in order,
and the rule itself. -/
structure LoweringScope where
  lexicon : Lexicon
  ruleNames : List String
  rule : Nat
  name : String

/-! ### Alternatives -/

/-- An alternative with the annotation nearest to it. -/
structure Alternative where
  expression : Expression
  level : Int
  associativity : Associativity
  deriving DecidableEq, Repr

namespace Expression

mutual

/-- The alternatives of a body that is annotated with a level. -/
def alternatives (level : Int) (associativity : Associativity) (body : Expression) :
    List Alternative :=
  match body with
  | .precedence level associativity inner => alternatives level associativity inner
  | .choice bodies => alternativesOfAll level associativity bodies
  | .literal text => [⟨.literal text, level, associativity⟩]
  | .pattern source => [⟨.pattern source, level, associativity⟩]
  | .seq items => [⟨.seq items, level, associativity⟩]
  | .repetition least inner => [⟨.repetition least inner, level, associativity⟩]
  | .optional inner => [⟨.optional inner, level, associativity⟩]
  | .reference name => [⟨.reference name, level, associativity⟩]
  | .blank => [⟨.blank, level, associativity⟩]
  | .token inner => [⟨.token inner, level, associativity⟩]
  | .nested opening closing => [⟨.nested opening closing, level, associativity⟩]
  | .delimited opening closing => [⟨.delimited opening closing, level, associativity⟩]
  | .quoted opening closing => [⟨.quoted opening closing, level, associativity⟩]

/-- The alternatives of the bodies of a list. -/
def alternativesOfAll (level : Int) (associativity : Associativity) :
    List Expression → List Alternative
  | [] => []
  | first :: rest =>
    alternatives level associativity first ++ alternativesOfAll level associativity rest

end

end Expression

namespace Alternative

/-- Whether the alternative begins with a reference to the rule of this name. -/
def isTail (name : String) (alternative : Alternative) : Bool :=
  match alternative.expression with
  | .seq items => items.head?.any (·.refersTo name)
  | other => other.refersTo name

/-- What a tail consists of after its leading reference. -/
def afterReference (alternative : Alternative) : List Expression :=
  match alternative.expression with
  | .seq items => items.tail
  | _ => []

/-- The bound for a reference to the rule itself at the end of the alternative. -/
def trailingBound (alternative : Alternative) : Int :=
  match alternative.associativity with
  | .left => min greatestLevel (alternative.level + 1)
  | .right | .none => alternative.level

end Alternative

/-! ### Lowering -/

namespace LoweringScope

mutual

/-- Lowers an expression. -/
def lower (scope : LoweringScope) (expression : Expression) (arena : Arena) :
    Except GrammarError (Nat × Arena) :=
  match expression with
  | .literal text =>
    match scope.lexicon.literal? text with
    | some kind => .ok (arena.add scope.rule (.token kind))
    | none => .error (.invalidToken scope.name (.unknownLiteral text))
  | .reference name =>
    match scope.ruleNames.idxOf? name with
    | some rule => .ok (arena.add scope.rule (.call rule leastLevel))
    | none =>
      match scope.lexicon.named? name with
      | some kind => .ok (arena.add scope.rule (.token kind))
      | none => .error (.unresolved scope.name name)
  | .seq items => do
    let (ops, arena) ← lowerAll scope items arena
    return arena.add scope.rule (if ops.isEmpty then .blank else .seq ops)
  | .choice bodies => do
    let (ops, arena) ← lowerAll scope bodies arena
    return arena.add scope.rule (.choice ops)
  | .repetition least inner => do
    let (op, arena) ← lower scope inner arena
    return arena.add scope.rule (.repetition least op)
  | .optional inner => do
    let (op, arena) ← lower scope inner arena
    return arena.add scope.rule (.optional op)
  | .blank => .ok (arena.add scope.rule .blank)
  | .precedence _ _ inner => lower scope inner arena
  | .pattern _ | .token _ | .nested .. | .delimited .. | .quoted .. =>
    match scope.lexicon.inline? expression with
    | some kind => .ok (arena.add scope.rule (.token kind))
    | none => .error (.invalidToken scope.name .unknownTerminal)

/-- Lowers the expressions of a list. -/
def lowerAll (scope : LoweringScope) (expressions : List Expression) (arena : Arena) :
    Except GrammarError (List Nat × Arena) :=
  match expressions with
  | [] => .ok ([], arena)
  | first :: rest => do
    let (op, arena) ← lower scope first arena
    let (ops, arena) ← lowerAll scope rest arena
    return (op :: ops, arena)

end

/-- Lowers the items of an alternative; a reference to the rule itself at the end becomes a
call with the given bound. -/
def lowerItems (scope : LoweringScope) (bound : Int) (items : List Expression) (arena : Arena) :
    Except GrammarError (List Nat × Arena) :=
  match items with
  | [] => .ok ([], arena)
  | item :: rest => do
    let (op, arena) ←
      if rest.isEmpty && item.refersTo scope.name then
        pure (arena.add scope.rule (.call scope.rule bound))
      else scope.lower item arena
    let (ops, arena) ← lowerItems scope bound rest arena
    return (op :: ops, arena)

/-- Lowers the items of an alternative to one operation. -/
def lowerSequence (scope : LoweringScope) (bound : Int) (items : List Expression)
    (arena : Arena) : Except GrammarError (Nat × Arena) := do
  let (ops, arena) ← scope.lowerItems bound items arena
  match ops with
  | [] => return arena.add scope.rule .blank
  | [single] => return (single, arena)
  | ops => return arena.add scope.rule (.seq ops)

/-- Lowers an alternative that belongs to the base. -/
def lowerBase (scope : LoweringScope) (alternative : Alternative) (arena : Arena) :
    Except GrammarError (Nat × Arena) :=
  match alternative.expression with
  | .seq items => scope.lowerSequence alternative.trailingBound items arena
  | other => scope.lower other arena

/-- Lowers alternatives in order, and sorts them into base and tails. -/
def lowerAlternatives (scope : LoweringScope) (alternatives : List Alternative)
    (arena : Arena) : Except GrammarError (List Nat × List Tail × Arena) :=
  match alternatives with
  | [] => .ok ([], [], arena)
  | first :: rest =>
    if first.isTail scope.name then do
      let (op, arena) ← scope.lowerSequence first.trailingBound first.afterReference arena
      let (base, tails, arena) ← lowerAlternatives scope rest arena
      return (base, ⟨first.level, first.associativity, op⟩ :: tails, arena)
    else do
      let (op, arena) ← scope.lowerBase first arena
      let (base, tails, arena) ← lowerAlternatives scope rest arena
      return (op :: base, tails, arena)

/-- Lowers the body of a rule. -/
def lowerBody (scope : LoweringScope) (body : Expression) (arena : Arena) :
    Except GrammarError (RuleBody × Arena) := do
  let alternatives := body.alternatives 0 .none
  if alternatives.any (·.isTail scope.name) then
    let (base, tails, arena) ← scope.lowerAlternatives alternatives arena
    match base with
    | [] => throw (.leftRecursion [scope.name, scope.name])
    | [single] => return (.leftRecursive single tails, arena)
    | base =>
      let (op, arena) := arena.add scope.rule (.choice base)
      return (.leftRecursive op tails, arena)
  else
    let (op, arena) ← scope.lower body arena
    return (.plain op, arena)

end LoweringScope

namespace Program

/-- The rules of a grammar that are no terminals. -/
def syntacticRules (grammar : Grammar) (tokens : List String) : List (String × Expression) :=
  grammar.rules.filter fun rule => !tokens.contains rule.1

/-- Whether a rule leaves no node; the start rule always does. -/
def leavesNoNode (grammar : Grammar) (name : String) : Bool :=
  grammar.isHidden name && grammar.start != some name

/-- Lowers the rules of a list, the first of which has the number `rule` and will have the
next kind of the table. -/
def lowerRules (grammar : Grammar) (lexicon : Lexicon) (names : List String) (rule : Nat)
    (rules : List (String × Expression)) (kinds : KindTable) (arena : Arena) :
    Except GrammarError (List Rule × KindTable × Arena) :=
  match rules with
  | [] => .ok ([], kinds, arena)
  | (name, body) :: rest => do
    let hidden := leavesNoNode grammar name
    let (lowered, arena) ← LoweringScope.lowerBody ⟨lexicon, names, rule, name⟩ body arena
    let (others, table, arena) ← lowerRules grammar lexicon names (rule + 1) rest
      (kinds.add name (.rule hidden)) arena
    return (⟨name, kinds.next, hidden, lowered⟩ :: others, table, arena)

/-- The program of a grammar with the given token rules, and the complete table of kinds. -/
def ofGrammar (grammar : Grammar) (tokens : List String) (draft : Lexicon.Draft) :
    Except GrammarError (Program × KindTable) := do
  let rules := syntacticRules grammar tokens
  let (rules, kinds, arena) ←
    lowerRules grammar draft.lexicon (rules.map (·.1)) 0 rules draft.kinds .empty
  return (⟨arena.ops, arena.owners, rules.toArray⟩, kinds)

end Program

end Syntagm
