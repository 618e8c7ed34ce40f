import Syntagm.Kind.Basic

/-!
# Sets of kinds

A set of kinds is a list of words of 64 bits: the kind with index `64 * i + j` belongs to
the set when bit `j` of word `i` is set.  Adding a kind makes the list as long as it needs
to be, and nothing makes it shorter again but `clear`.  So two sets with the same members
can be different values: the words of an intersection may end in words without a bit.
-/

namespace Syntagm

/-- A set of kinds. -/
structure KindSet where
  words : List (BitVec 64)
  deriving DecidableEq, Repr, Inhabited

namespace KindSet

/-- The word with one bit. -/
def bit (position : Nat) : BitVec 64 := 1#64 <<< position

def empty : KindSet := ⟨[]⟩

instance : EmptyCollection KindSet := ⟨empty⟩

/-- Sets a bit in a word of a list, after as many empty words as are needed. -/
def insertBit (position : Nat) : (words : List (BitVec 64)) → (index : Nat) → List (BitVec 64)
  | [], 0 => [bit position]
  | [], index + 1 => 0#64 :: insertBit position [] index
  | word :: rest, 0 => (word ||| bit position) :: rest
  | word :: rest, index + 1 => word :: insertBit position rest index

/-- The set with a kind added. -/
def insert (set : KindSet) (kind : Kind) : KindSet :=
  ⟨insertBit (kind.index % 64) set.words (kind.index / 64)⟩

def contains (set : KindSet) (kind : Kind) : Bool :=
  (set.words[kind.index / 64]?).any fun word => word.getLsbD (kind.index % 64)

/-- The set with a kind added, and whether the kind is new. -/
def insertNew (set : KindSet) (kind : Kind) : KindSet × Bool :=
  (set.insert kind, !set.contains kind)

def single (kind : Kind) : KindSet := empty.insert kind

/-- The set of the kinds in a list. -/
def ofList (kinds : List Kind) : KindSet := kinds.foldl insert empty

/-- Joins two lists of words, word by word. -/
def unionWords : List (BitVec 64) → List (BitVec 64) → List (BitVec 64)
  | [], second => second
  | first, [] => first
  | x :: first, y :: second => (x ||| y) :: unionWords first second

def union (first second : KindSet) : KindSet := ⟨unionWords first.words second.words⟩

instance : Union KindSet := ⟨union⟩

/-- Whether the second list of words has a bit that the first one has not. -/
def addsBit : List (BitVec 64) → List (BitVec 64) → Bool
  | _, [] => false
  | [], second => second.any (· != 0#64)
  | x :: first, y :: second => (x ||| y) != x || addsBit first second

/-- The union of two sets, and whether the first one has grown. -/
def unionNew (first second : KindSet) : KindSet × Bool :=
  (first.union second, addsBit first.words second.words)

/-- The kinds that two sets share. -/
def intersection (first second : KindSet) : KindSet :=
  ⟨List.zipWith (· &&& ·) first.words second.words⟩

/-- Whether two sets share a kind. -/
def intersects (first second : KindSet) : Bool :=
  (List.zipWith (· &&& ·) first.words second.words).any (· != 0#64)

def isEmpty (set : KindSet) : Bool := set.words.all (· == 0#64)

/-- The positions of the bits of a word in ascending order. -/
def bits (word : BitVec 64) : List Nat := (List.range 64).filter word.getLsbD

/-- The kinds of a list of words, the first of which stands for the kinds from `base` on. -/
def kindsFrom (base : Nat) : List (BitVec 64) → List Kind
  | [] => []
  | word :: rest =>
    ((bits word).map fun position => ⟨base + position⟩) ++ kindsFrom (base + 64) rest

/-- The members in ascending order. -/
def toList (set : KindSet) : List Kind := kindsFrom 0 set.words

/-- The number of members. -/
def size (set : KindSet) : Nat := (set.words.flatMap bits).length

end KindSet

end Syntagm
