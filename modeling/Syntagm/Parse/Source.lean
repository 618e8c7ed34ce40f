import Syntagm.Token.Basic
import Syntagm.Tree.Basic

/-!
# The tokens a parser sees

The parser works on the significant tokens of a text.  Each comes with the trivia in front of
it, so that no token is lost: the trivia behind the last one belongs to the end of the input,
which counts as one place more.
-/

namespace Syntagm

/-- A significant token and the trivia in front of it. -/
structure SourceToken where
  kind : Kind
  text : List Char
  range : Text.Range
  trivia : List Element
  deriving DecidableEq, Repr, Inhabited

/-- The token as an element of a tree. -/
def SourceToken.element (token : SourceToken) : Element := .token token.kind token.text

/-- The significant tokens of a text, and the trivia behind them. -/
structure Source where
  tokens : Array SourceToken
  trailing : List Element
  /-- The length of the text in bytes. -/
  length : Nat
  deriving DecidableEq, Repr, Inhabited

namespace Source

/-- Sorts tokens with their texts into significant tokens and trailing trivia; `trivia` is
what stands in front of the first one. -/
def collect (trivia : List Element) :
    List (Token × List Char) → List SourceToken × List Element
  | [] => ([], trivia)
  | (token, text) :: rest =>
    if token.isExtra then collect (trivia ++ [.token token.kind text]) rest
    else
      let (others, trailing) := collect [] rest
      (⟨token.kind, text, token.range, trivia⟩ :: others, trailing)

/-- The source for the tokens of a text. -/
def ofTokens (text : List Char) (tokens : Tokens) : Source :=
  let (significant, trailing) := collect [] (tokens.list.zip (Tokens.cut text tokens.list))
  ⟨significant.toArray, trailing, Text.byteLength text⟩

variable (source : Source)

/-- The number of significant tokens. -/
def size : Nat := source.tokens.size

/-- The kind of a significant token; past the last one the input ends. -/
def kind (index : Nat) : Kind := ((source.tokens[index]?).map (·.kind)).getD Kind.endOfInput

/-- The bytes a significant token takes; the end of the input takes none. -/
def range (index : Nat) : Text.Range :=
  ((source.tokens[index]?).map (·.range)).getD (Text.Range.empty source.length)

/-- A significant token as an element. -/
def element? (index : Nat) : Option Element := (source.tokens[index]?).map (·.element)

/-- The trivia in front of a significant token, or of the end of the input. -/
def trivia (index : Nat) : List Element :=
  ((source.tokens[index]?).map (·.trivia)).getD source.trailing

/-- All tokens in order. -/
def elements : List Element :=
  source.tokens.toList.flatMap (fun token => token.trivia ++ [token.element]) ++ source.trailing

/-- The error node around `count` significant tokens from `start` on and the trivia between
them. -/
def errorNode (start count : Nat) : Element :=
  let stretch := (source.tokens.toList.drop start).take count
  .node Kind.error (match stretch with
    | [] => []
    | first :: rest =>
      first.element :: rest.flatMap fun token => token.trivia ++ [token.element])

end Source

end Syntagm
