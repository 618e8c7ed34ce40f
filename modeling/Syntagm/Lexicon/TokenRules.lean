import Syntagm.Grammar.Basic

/-!
# Which rules are terminals

A rule is a token rule when its body is matched as a whole: a pattern or block, a reference
to another token rule, or a choice of such parts.  For extras and the word rule a literal
will do as well.  The start rule is never a token rule.

Token rules may refer to each other, so the set of them is the least one that is closed under
the test.  It is reached by applying the test to all rules at once over and over, starting
from no token rules: each round but the last adds a rule.  So rules that are token rules only
because of each other are none.
-/

namespace Syntagm.Grammar

/-- Whether an expression is a part that a token rule can be made of, when `tokens` are the
token rules. -/
def isTokenPart (allowLiteral : Bool) (tokens : List String) (part : Expression) : Bool :=
  match part.withoutPrecedence with
  | .literal _ => allowLiteral
  | .reference name => tokens.contains name
  | other => other.isTerminal

/-- Whether an expression is the body of a token rule, when `tokens` are the token rules. -/
def isTokenBody (allowLiteral : Bool) (tokens : List String) (body : Expression) : Bool :=
  match body.withoutPrecedence with
  | .choice alternatives => alternatives.all (isTokenPart allowLiteral tokens)
  | other => isTokenPart allowLiteral tokens other

/-- Whether a rule may be a literal and still a token rule. -/
def allowsLiteral (grammar : Grammar) (name : String) : Bool :=
  grammar.extras.contains name || grammar.word == some name

/-- The rules that pass the test when `tokens` are the token rules. -/
def tokenRulesGiven (grammar : Grammar) (tokens : List String) : List String :=
  (grammar.rules.filter fun (name, body) =>
    grammar.start != some name && isTokenBody (grammar.allowsLiteral name) tokens body).map (·.1)

/-- Applies the test until nothing changes, at most `rounds` times. -/
def tokenRulesFrom (grammar : Grammar) : (rounds : Nat) → (tokens : List String) → List String
  | 0, tokens => tokens
  | rounds + 1, tokens =>
    let next := grammar.tokenRulesGiven tokens
    if next = tokens then tokens else grammar.tokenRulesFrom rounds next

/-- The names of the token rules. -/
def tokenRules (grammar : Grammar) : List String :=
  grammar.tokenRulesFrom grammar.ruleCount []

end Syntagm.Grammar
