import Syntagm.Compiled.Basic
import Syntagm.Text.LineIndex
import Syntagm.Tree.Basic

/-!
# Questions about a tree

Which element is at an offset, which trivia stands in front of a token, and which nodes mark
errors.
-/

namespace Syntagm.Element

/-! ### The element at an offset -/

/-- Whether an element that starts at `start` is at an offset: it holds the byte there, or
takes no bytes and stands there. -/
def isAt (offset start : Nat) (element : Element) : Bool :=
  let range := Text.Range.ofLength start element.length
  range.contains offset || (range.isEmpty && start == offset)

/-- An element at its first byte. -/
abbrev Located := Nat × Element

mutual

/-- The smallest element at an offset in an element that is there itself. -/
def deepestAt (offset start : Nat) (element : Element) : Located :=
  match element with
  | .token kind text => (start, .token kind text)
  | .node kind children =>
    match deepestAmong offset start children with
    | some (_, found) => found
    | none => (start, .node kind children)

/-- The shortest element of a list that is at an offset, of equally short ones the last: its
length, and the smallest element at the offset in it. -/
def deepestAmong (offset start : Nat) (elements : List Element) : Option (Nat × Located) :=
  match elements with
  | [] => none
  | first :: rest =>
    let later := deepestAmong offset (start + first.length) rest
    if isAt offset start first then
      match later with
      | some (length, found) =>
        if length ≤ first.length then some (length, found)
        else some (first.length, deepestAt offset start first)
      | none => some (first.length, deepestAt offset start first)
    else later

end

/-- The smallest element at an offset, which for the end of the text is the root. -/
def at? (root : Element) (offset : Nat) : Option Located :=
  if isAt offset 0 root || offset == root.length then some (deepestAt offset 0 root) else none

/-! ### Trivia -/

/-- Whether an element is a token that the parser skips. -/
def isTrivia (compiled : CompiledGrammar) : Element → Bool
  | .token kind _ => compiled.isTrivia kind
  | .node .. => false

/-- The children of a node without trivia. -/
def significantChildren (compiled : CompiledGrammar) (element : Element) : List Element :=
  element.children.filter fun child => !child.isTrivia compiled

mutual

/-- The elements without children: tokens, and nodes that nothing is in. -/
def leaves : Element → List Element
  | .token kind text => [.token kind text]
  | .node kind [] => [.node kind []]
  | .node _ (first :: rest) => leaves first ++ leavesOfAll rest

/-- The leaves of the elements of a list. -/
def leavesOfAll : List Element → List Element
  | [] => []
  | first :: rest => leaves first ++ leavesOfAll rest

end

/-- Each of some leaves with the trivia directly in front of it.  `before` are the trivia in
front of the first one, the last of them first.  An empty node ends a run of trivia. -/
def withLeadingTrivia (compiled : CompiledGrammar) (before : List Element) :
    List Element → List (Element × List Element)
  | [] => []
  | leaf :: rest =>
    let after := if leaf.isTrivia compiled then leaf :: before else []
    (leaf, before.reverse) :: withLeadingTrivia compiled after rest

/-- The tokens of a tree, each with the trivia directly in front of it. -/
def tokensWithTrivia (compiled : CompiledGrammar) (root : Element) :
    List (Element × List Element) :=
  (withLeadingTrivia compiled [] root.leaves).filter fun entry => !entry.1.isNode

/-! ### Errors -/

/-- The nodes around input that fits nowhere and around tokens that are missing. -/
def errorNodes (root : Element) : List Placed :=
  root.outline.filter fun placed =>
    placed.element.isNode &&
      (placed.element.kind == Kind.error || placed.element.kind == Kind.missing)

end Syntagm.Element
