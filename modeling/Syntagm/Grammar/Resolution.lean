import Syntagm.Grammar.Basic

/-!
# Whether all names resolve

Before a grammar is compiled, every name in it must be the name of a rule: the start rule,
the references in the bodies, and the names in the directives, which are looked at in this
order.  The first name that no rule has is an error.

A rule is reachable if references lead to it from the start rule, an extra or the word rule.
-/

namespace Syntagm.Grammar

/-- The first name of a list that no rule has is an error of its user. -/
def resolveAll (grammar : Grammar) (user : String) (names : List String) :
    Except GrammarError Unit :=
  match names.find? fun name => !grammar.declares name with
  | some name => .error (.unresolved user name)
  | none => .ok ()

/-- Resolves all names of a grammar, and returns the name of the start rule. -/
def resolve (grammar : Grammar) : Except GrammarError String := do
  match grammar.start with
  | none => throw .emptyGrammar
  | some start =>
    if grammar.rules.isEmpty then throw .emptyGrammar
    grammar.resolveAll "start" [start]
    grammar.rules.forM fun (name, body) => grammar.resolveAll name body.references
    grammar.resolveAll "extras" grammar.extras
    grammar.resolveAll "hidden" grammar.hidden
    grammar.resolveAll "word" grammar.word.toList
    grammar.resolveAll "conflicts" grammar.conflicts.flatten
    return start

/-! ### Reachability -/

/-- The names that the bodies of some rules refer to. -/
def referencesOf (grammar : Grammar) (names : List String) : List String :=
  names.flatMap fun name => ((grammar.rule? name).map (·.references)).getD []

/-- The names that references lead to from `reached`, in at most `rounds` steps; `fresh` are
those among them whose own references have not been followed. -/
def reachFrom (grammar : Grammar) :
    (rounds : Nat) → (reached fresh : List String) → List String
  | 0, reached, _ => reached
  | rounds + 1, reached, fresh =>
    let next := ((grammar.referencesOf fresh).filter (!reached.contains ·)).eraseDups
    if next.isEmpty then reached else grammar.reachFrom rounds (reached ++ next) next

/-- The rules that the start rule, the extras and the word rule lead to. -/
def reachable (grammar : Grammar) : List String :=
  let roots := (grammar.start.toList ++ grammar.extras ++ grammar.word.toList).eraseDups
  grammar.reachFrom grammar.ruleCount roots roots

/-- The rules that nothing leads to, as they are declared. -/
def unreachable (grammar : Grammar) : List String :=
  let reached := grammar.reachable
  (grammar.rules.map (·.1)).filter (!reached.contains ·)

end Syntagm.Grammar
