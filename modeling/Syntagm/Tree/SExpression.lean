import Syntagm.Tree.Query

/-!
# Trees as text

A tree is written in parentheses: `(a "a" (ERROR "c") (b (MISSING "b")))`.  A node is its name
and its children, a named token is its name in parentheses, and any other token its text
between quotes.  A missing token shows its kind.  Trivia is left out.
-/

namespace Syntagm.Element

/-- A token as text. -/
def tokenSExpression (compiled : CompiledGrammar) (kind : Kind) (text : List Char) : String :=
  match compiled.kinds.info? kind with
  | some ⟨name, .token false⟩ => "(" ++ name ++ ")"
  | _ => Text.quoted (String.ofList text)

/-- The kinds of the tokens in a node for a missing token, each after a blank. -/
def missingKinds (compiled : CompiledGrammar) (children : List Element) : String :=
  String.join (children.filterMap fun child =>
    match child with
    | .token kind _ => some (" " ++ compiled.kindName kind)
    | .node .. => none)

mutual

/-- An element as text. -/
def sExpression (compiled : CompiledGrammar) : Element → String
  | .token kind text => tokenSExpression compiled kind text
  | .node kind children =>
    let inner :=
      if kind = Kind.missing then missingKinds compiled children
      else sExpressions compiled children
    "(" ++ compiled.kinds.name kind ++ inner ++ ")"

/-- The elements of a list as text, each after a blank. -/
def sExpressions (compiled : CompiledGrammar) : List Element → String
  | [] => ""
  | first :: rest =>
    if first.isTrivia compiled then sExpressions compiled rest
    else " " ++ sExpression compiled first ++ sExpressions compiled rest

end

end Syntagm.Element
