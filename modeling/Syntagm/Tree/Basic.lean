import Syntagm.Kind.Basic
import Syntagm.Text.Basic

/-!
# Trees

A tree is made of tokens, which hold their text, and nodes, which hold their children.  It
holds every character of the text it was made from: the texts of its tokens put together are
that text (`Element.text`).

Elements know nothing of where they are.  Offsets come in when a tree is walked from its root
(`Element.outline`), so equal subtrees are equal wherever they stand.
-/

namespace Syntagm

/-- A token or node of a tree. -/
inductive Element where
  | token (kind : Kind) (text : List Char)
  | node (kind : Kind) (children : List Element)
  deriving Repr, Inhabited

namespace Element

def kind : Element → Kind
  | .token kind _ | .node kind _ => kind

def isNode : Element → Bool
  | .token .. => false
  | .node .. => true

/-- The children of a node; a token has none. -/
def children : Element → List Element
  | .token .. => []
  | .node _ children => children

/-! ### Equality -/

mutual

/-- Whether two elements are the same. -/
def same : Element → Element → Bool
  | .token k s, .token l t => k == l && s == t
  | .node k xs, .node l ys => k == l && sameAll xs ys
  | _, _ => false

/-- Whether two lists of elements are the same. -/
def sameAll : List Element → List Element → Bool
  | [], [] => true
  | x :: xs, y :: ys => same x y && sameAll xs ys
  | _, _ => false

end

mutual

theorem same_iff : ∀ x y : Element, same x y = true ↔ x = y
  | .token _ _, y => by cases y <;> simp [same]
  | .node _ xs, y => by cases y <;> simp [same, sameAll_iff xs]

theorem sameAll_iff : ∀ xs ys : List Element, sameAll xs ys = true ↔ xs = ys
  | [], ys => by cases ys <;> simp [sameAll]
  | x :: xs, ys => by cases ys <;> simp [sameAll, same_iff x, sameAll_iff xs]

end

instance : DecidableEq Element := fun x y => decidable_of_iff _ (same_iff x y)

/-! ### Text -/

mutual

/-- The text an element stands for. -/
def text : Element → List Char
  | .token _ text => text
  | .node _ children => textOfAll children

/-- The text that the elements of a list stand for together. -/
def textOfAll : List Element → List Char
  | [] => []
  | first :: rest => text first ++ textOfAll rest

end

mutual

/-- The number of bytes an element takes. -/
def length : Element → Nat
  | .token _ text => Text.byteLength text
  | .node _ children => lengthOfAll children

/-- The number of bytes that the elements of a list take. -/
def lengthOfAll : List Element → Nat
  | [] => 0
  | first :: rest => length first + lengthOfAll rest

end

mutual

/-- The length of an element is that of its text. -/
theorem length_eq : ∀ element : Element, element.length = Text.byteLength element.text
  | .token .. => rfl
  | .node _ children => by simp only [length, text]; exact lengthOfAll_eq children

theorem lengthOfAll_eq : ∀ elements : List Element,
    lengthOfAll elements = Text.byteLength (textOfAll elements)
  | [] => rfl
  | first :: rest => by
    simp only [lengthOfAll, textOfAll, Text.byteLength_append, length_eq first,
      lengthOfAll_eq rest]

end

/-! ### Walking a tree -/

/-- An element at its place in a tree: its depth below the root and its first byte. -/
structure Placed where
  depth : Nat
  start : Nat
  element : Element
  deriving Repr, Inhabited

/-- The bytes a placed element takes. -/
def Placed.range (placed : Placed) : Text.Range :=
  Text.Range.ofLength placed.start placed.element.length

mutual

/-- An element and all below it, parents first and in order. -/
def outlineFrom (depth start : Nat) (element : Element) : List Placed :=
  ⟨depth, start, element⟩ ::
    match element with
    | .token .. => []
    | .node _ children => outlineOfAll (depth + 1) start children

/-- The elements of a list and all below them. -/
def outlineOfAll (depth start : Nat) : List Element → List Placed
  | [] => []
  | first :: rest =>
    outlineFrom depth start first ++ outlineOfAll depth (start + first.length) rest

end

/-- All elements of a tree, parents first and in order. -/
def outline (root : Element) : List Placed := outlineFrom 0 0 root

/-- Numbers about a tree. -/
structure Counts where
  nodes : Nat
  tokens : Nat
  /-- The greatest depth; the root has depth zero. -/
  depth : Nat
  errors : Nat
  missing : Nat
  length : Nat
  deriving DecidableEq, Repr

/-- Counts the elements of a tree. -/
def counts (root : Element) : Counts :=
  let all := root.outline
  let nodes := all.filter (·.element.isNode)
  { nodes := nodes.length
    tokens := all.length - nodes.length
    depth := (all.map (·.depth)).foldl max 0
    errors := nodes.countP (·.element.kind == Kind.error)
    missing := nodes.countP (·.element.kind == Kind.missing)
    length := root.length }

end Element

end Syntagm
