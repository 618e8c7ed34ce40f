import Syntagm.Grammar.Expression
import Syntagm.Kind.Basic

/-!
# Programs

The rules of a grammar that are no terminals, in the form that is run.  A program is a list
of operations that name each other by number, and each rule points at the operation its body
starts with.  A rule that begins with itself is split: its *base* matches what such a rule
can begin with, and each of its *tails* matches what may follow a match of the rule to make a
longer one.

**Order.**  The parts of an operation come before it, which is why running one ends.  The
view of an operation (`Program.view`) builds this in: its parts are numbers below its own.
A rule that calls another one is no part of it, so rules may well call each other.
-/

namespace Syntagm

/-- An operation with parts of type `Part`. -/
inductive Op (Part : Type) where
  /-- A token of this kind. -/
  | token (kind : Kind)
  /-- All parts, one after the other. -/
  | seq (items : List Part)
  /-- The first part that matches. -/
  | choice (alternatives : List Part)
  /-- The part over and over, at least `least` times. -/
  | repetition (least : Nat) (inner : Part)
  /-- The part or nothing. -/
  | optional (inner : Part)
  /-- Nothing. -/
  | blank
  /-- A rule, of whose tails only those of level `bound` and above are tried. -/
  | call (rule : Nat) (bound : Int)
  deriving DecidableEq, Repr

namespace Op

instance {Part : Type} : Inhabited (Op Part) := ⟨.blank⟩

/-- The parts of an operation in order. -/
def parts {Part : Type} : Op Part → List Part
  | .seq items => items
  | .choice alternatives => alternatives
  | .repetition _ inner | .optional inner => [inner]
  | .token _ | .blank | .call .. => []

/-- A number as a number below a limit, if it is one. -/
def belowLimit? (limit part : Nat) : Option (Fin limit) :=
  if h : part < limit then some ⟨part, h⟩ else none

/-- The operation with its parts known to be below a limit, if they are. -/
def below? (limit : Nat) : Op Nat → Option (Op (Fin limit))
  | .token kind => some (.token kind)
  | .seq items => (items.mapM (belowLimit? limit)).map .seq
  | .choice alternatives => (alternatives.mapM (belowLimit? limit)).map .choice
  | .repetition least inner => (belowLimit? limit inner).map (.repetition least)
  | .optional inner => (belowLimit? limit inner).map .optional
  | .blank => some .blank
  | .call rule bound => some (.call rule bound)

end Op

/-- What may follow a match of a rule to make a longer match of it. -/
structure Tail where
  level : Int
  associativity : Associativity
  op : Nat
  deriving DecidableEq, Repr, Inhabited

/-- The body of a rule. -/
inductive RuleBody where
  | plain (op : Nat)
  | leftRecursive (base : Nat) (tails : List Tail)
  deriving DecidableEq, Repr, Inhabited

/-- A rule of a program. -/
structure Rule where
  name : String
  kind : Kind
  /-- Whether the rule leaves no node of its own. -/
  hidden : Bool
  body : RuleBody
  deriving DecidableEq, Repr, Inhabited

namespace Rule

def isLeftRecursive (rule : Rule) : Bool :=
  match rule.body with
  | .plain _ => false
  | .leftRecursive .. => true

/-- The operation that every match of the rule starts with. -/
def entry (rule : Rule) : Nat :=
  match rule.body with
  | .plain op | .leftRecursive op _ => op

end Rule

/-- Rules and their operations. -/
structure Program where
  ops : Array (Op Nat)
  /-- The rule that each operation belongs to. -/
  owners : Array Nat
  rules : Array Rule
  deriving DecidableEq, Repr, Inhabited

namespace Program

/-- The operation of a number, with parts below that number.  Where there is none, the choice
without alternatives stands in, which matches nothing. -/
def view (program : Program) (op : Nat) : Op (Fin op) :=
  ((program.ops[op]?).bind (Op.below? op)).getD (.choice [])

/-- The name of the rule that an operation belongs to. -/
def ownerName (program : Program) (op : Nat) : String :=
  (((program.owners[op]?).bind (program.rules[·]?)).map (·.name)).getD ""

/-- The name of a rule. -/
def ruleName (program : Program) (rule : Nat) : String :=
  ((program.rules[rule]?).map (·.name)).getD ""

/-- The rule of this name. -/
def rule? (program : Program) (name : String) : Option Nat :=
  program.rules.findIdx? (·.name == name)

/-- Whether two operations are the same but for the numbers of their parts. -/
def sameShape (program : Program) (first second : Nat) : Bool :=
  match program.view first, program.view second with
  | .seq xs, .seq ys | .choice xs, .choice ys =>
    xs.length == ys.length && (xs.zip ys).all fun (x, y) => program.sameShape x y
  | .repetition m x, .repetition n y => m == n && program.sameShape x y
  | .optional x, .optional y => program.sameShape x y
  | .token k, .token l => k == l
  | .blank, .blank => true
  | .call r b, .call s c => r == s && b == c
  | _, _ => false
termination_by first
decreasing_by all_goals exact x.isLt

end Program

end Syntagm
