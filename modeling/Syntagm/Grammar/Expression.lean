/-!
# Rule bodies

A rule body is an expression over texts, patterns and references to other rules.  A choice
is ordered: alternatives are tried as they are written and the first that matches wins.
References are names, resolved when a grammar is compiled, so rules that refer to each other
need no cyclic values.

An expression holds lists of expressions, so equality and hashing are defined by recursion
over both (`same`, `sameAll`), and `same_iff` shows that this is equality.
-/

namespace Syntagm

/-- How operators of one precedence level group. -/
inductive Associativity where
  | none
  | left
  | right
  deriving DecidableEq, Repr, Inhabited, Hashable

/-- The least precedence level. -/
def leastLevel : Int := -2147483648

/-- The greatest precedence level. -/
def greatestLevel : Int := 2147483647

/-- A rule body. -/
inductive Expression where
  /-- Exactly this text. -/
  | literal (text : String)
  /-- A text that the regular pattern matches. -/
  | pattern (source : String)
  /-- All items, one after the other. -/
  | seq (items : List Expression)
  /-- The first alternative that matches. -/
  | choice (alternatives : List Expression)
  /-- The inner expression over and over, at least `least` times. -/
  | repetition (least : Nat) (inner : Expression)
  /-- The inner expression or nothing. -/
  | optional (inner : Expression)
  /-- The rule of this name. -/
  | reference (name : String)
  /-- Nothing. -/
  | blank
  /-- One token, made of everything inside. -/
  | token (inner : Expression)
  /-- The inner expression as an alternative of this precedence. -/
  | precedence (level : Int) (associativity : Associativity) (inner : Expression)
  /-- A block between `opening` and `closing` that may hold further such blocks. -/
  | nested (opening closing : String)
  /-- A string between `opening` and `closing` whose inner delimiter the text itself chooses,
  as in `q"(...)"`, `q"/.../"`, or a name on lines of its own before and after. -/
  | delimited (opening closing : String)
  /-- A string between `opening` and `closing` in which a backslash escapes the character
  after it. -/
  | quoted (opening closing : String)
  deriving Repr, Inhabited

namespace Expression

/-! ### Equality and hashing -/

mutual

/-- Whether two expressions are the same. -/
def same : Expression → Expression → Bool
  | .literal s, .literal t => s == t
  | .pattern s, .pattern t => s == t
  | .seq xs, .seq ys => sameAll xs ys
  | .choice xs, .choice ys => sameAll xs ys
  | .repetition m x, .repetition n y => m == n && same x y
  | .optional x, .optional y => same x y
  | .reference s, .reference t => s == t
  | .blank, .blank => true
  | .token x, .token y => same x y
  | .precedence l a x, .precedence m b y => l == m && a == b && same x y
  | .nested o c, .nested p d => o == p && c == d
  | .delimited o c, .delimited p d => o == p && c == d
  | .quoted o c, .quoted p d => o == p && c == d
  | _, _ => false

/-- Whether two lists of expressions are the same. -/
def sameAll : List Expression → List Expression → Bool
  | [], [] => true
  | x :: xs, y :: ys => same x y && sameAll xs ys
  | _, _ => false

end

mutual

theorem same_iff : ∀ x y : Expression, same x y = true ↔ x = y
  | .literal _, y => by cases y <;> simp [same]
  | .pattern _, y => by cases y <;> simp [same]
  | .seq xs, y => by cases y <;> simp [same, sameAll_iff xs]
  | .choice xs, y => by cases y <;> simp [same, sameAll_iff xs]
  | .repetition _ x, y => by cases y <;> simp [same, same_iff x]
  | .optional x, y => by cases y <;> simp [same, same_iff x]
  | .reference _, y => by cases y <;> simp [same]
  | .blank, y => by cases y <;> simp [same]
  | .token x, y => by cases y <;> simp [same, same_iff x]
  | .precedence _ _ x, y => by cases y <;> simp [same, same_iff x, and_assoc]
  | .nested _ _, y => by cases y <;> simp [same]
  | .delimited _ _, y => by cases y <;> simp [same]
  | .quoted _ _, y => by cases y <;> simp [same]

theorem sameAll_iff : ∀ xs ys : List Expression, sameAll xs ys = true ↔ xs = ys
  | [], ys => by cases ys <;> simp [sameAll]
  | x :: xs, ys => by cases ys <;> simp [sameAll, same_iff x, sameAll_iff xs]

end

instance : DecidableEq Expression := fun x y => decidable_of_iff _ (same_iff x y)

mutual

/-- A number that equal expressions share. -/
def hashCode : Expression → UInt64
  | .literal text => mixHash 1 (hash text)
  | .pattern source => mixHash 2 (hash source)
  | .seq items => mixHash 3 (hashCodes items)
  | .choice alternatives => mixHash 4 (hashCodes alternatives)
  | .repetition least inner => mixHash 5 (mixHash (hash least) (hashCode inner))
  | .optional inner => mixHash 6 (hashCode inner)
  | .reference name => mixHash 7 (hash name)
  | .blank => 8
  | .token inner => mixHash 9 (hashCode inner)
  | .precedence level associativity inner =>
    mixHash 10 (mixHash (hash level) (mixHash (hash associativity) (hashCode inner)))
  | .nested opening closing => mixHash 11 (mixHash (hash opening) (hash closing))
  | .delimited opening closing => mixHash 12 (mixHash (hash opening) (hash closing))
  | .quoted opening closing => mixHash 13 (mixHash (hash opening) (hash closing))

/-- A number that equal lists of expressions share. -/
def hashCodes : List Expression → UInt64
  | [] => 17
  | first :: rest => mixHash (hashCode first) (hashCodes rest)

end

instance : Hashable Expression := ⟨hashCode⟩

/-! ### What an expression is made of -/

mutual

/-- The names an expression refers to, in order and with repeats. -/
def references : Expression → List String
  | .reference name => [name]
  | .seq items => referencesOfAll items
  | .choice alternatives => referencesOfAll alternatives
  | .repetition _ inner => references inner
  | .optional inner => references inner
  | .token inner => references inner
  | .precedence _ _ inner => references inner
  | .literal _ | .pattern _ | .blank | .nested .. | .delimited .. | .quoted .. => []

/-- The names that the expressions of a list refer to. -/
def referencesOfAll : List Expression → List String
  | [] => []
  | first :: rest => references first ++ referencesOfAll rest

end

/-- Whether the expression is a terminal of its own: one that is matched as a whole, by a
pattern or by a scanner for blocks and strings. -/
def isTerminal : Expression → Bool
  | .pattern _ | .token _ | .nested .. | .delimited .. | .quoted .. => true
  | _ => false

/-- The expression under all precedence annotations. -/
def withoutPrecedence : Expression → Expression
  | .precedence _ _ inner => withoutPrecedence inner
  | other => other

/-- Whether the expression is a reference to the rule of this name, annotations aside. -/
def refersTo (name : String) (expression : Expression) : Bool :=
  match expression.withoutPrecedence with
  | .reference target => target == name
  | _ => false

end Expression

end Syntagm
