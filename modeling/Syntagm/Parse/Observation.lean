import Std.Data.HashMap
import Syntagm.Kind.Set
import Syntagm.Tree.Basic

/-!
# What a match is and what it depends on

Matching an operation at a position of a stream gives a match or none (`Match`), and says what
it took to find out (`Observation`): the farthest position where a token was not one of those
expected, the end of the tokens that were looked at, and whether calls were nested too deep.
Observations of steps that follow each other are put together with `Observation.followedBy`.

What a rule call gave is remembered for the rule, the position and the bound (`Memo`).  It
stays right as long as the tokens that were looked at stay the same.
-/

namespace Syntagm

/-! ### Matched input -/

/-- Matched input: what stands in front of its first token, and its elements. -/
structure Fragment where
  leading : List Element
  elements : List Element
  deriving DecidableEq, Repr, Inhabited

namespace Fragment

/-- No input. -/
def blank : Fragment := ⟨[], []⟩

def isBlank (fragment : Fragment) : Bool :=
  fragment.leading.isEmpty && fragment.elements.isEmpty

/-- Two fragments one after the other.  What stands in front of the second one comes between
them. -/
def append (first second : Fragment) : Fragment :=
  if first.isBlank then second
  else ⟨first.leading, first.elements ++ second.leading ++ second.elements⟩

instance : Append Fragment := ⟨append⟩

/-- The elements in a node; what stands in front of them stays in front of it. -/
def wrap (fragment : Fragment) (kind : Kind) : Fragment :=
  ⟨fragment.leading, [.node kind fragment.elements]⟩

end Fragment

/-- A match: what it took, and the position where it stops. -/
structure Match where
  fragment : Fragment
  stop : Nat
  deriving DecidableEq, Repr, Inhabited

namespace Match

/-- The match of nothing at a position. -/
def blank (position : Nat) : Match := ⟨.blank, position⟩

/-- Two matches one after the other. -/
def append (first second : Match) : Match := ⟨first.fragment ++ second.fragment, second.stop⟩

instance : Append Match := ⟨append⟩

end Match

/-! ### Observations -/

/-- The farthest position where a token was not as expected, and the kinds expected there. -/
structure Failure where
  position : Nat
  expected : KindSet
  deriving DecidableEq, Repr, Inhabited

/-- The failure at a position, if anything was expected there. -/
def Failure.of? (position : Nat) (expected : KindSet) : Option Failure :=
  if expected.isEmpty then none else some ⟨position, expected⟩

/-- The farther one of two failures, or both together if they are at the same position. -/
def Failure.join : Option Failure → Option Failure → Option Failure
  | none, second => second
  | first, none => first
  | some first, some second =>
    if first.position < second.position then some second
    else if second.position < first.position then some first
    else some ⟨first.position, first.expected ∪ second.expected⟩

/-- A call beyond the limit on depth. -/
structure Overflow where
  /-- The position of the call. -/
  position : Nat
  /-- The position of the call halfway to it.  Input in front of that nests at most half as
  deep as it may. -/
  halfway : Nat
  deriving DecidableEq, Repr, Inhabited

/-- What was seen on the way to a result. -/
structure Observation where
  failure : Option Failure
  /-- The position after the last one that was looked at. -/
  lookahead : Nat
  /-- The first call beyond the limit. -/
  overflow : Option Overflow
  deriving DecidableEq, Repr, Inhabited

namespace Observation

def nothing : Observation := ⟨none, 0, none⟩

/-- The token at a position was looked at. -/
def looked (position : Nat) : Observation := ⟨none, position + 1, none⟩

/-- The token at a position was none of the expected ones. -/
def failed (position : Nat) (expected : KindSet) : Observation :=
  ⟨Failure.of? position expected, 0, none⟩

/-- A call went beyond the limit. -/
def overflowed (overflow : Overflow) : Observation := ⟨none, 0, some overflow⟩

/-- What was seen in two steps, one after the other. -/
def followedBy (first second : Observation) : Observation where
  failure := Failure.join first.failure second.failure
  lookahead := max first.lookahead second.lookahead
  overflow := first.overflow.or second.overflow

end Observation

/-! ### Remembered results -/

/-- A rule call: the rule, the position, and the least level of tails to try. -/
structure MemoKey where
  rule : Nat
  position : Nat
  bound : Int
  deriving DecidableEq, Repr, Inhabited, Hashable

/-- What a call gave, and what that depends on. -/
structure MemoEntry where
  result : Option Match
  failure : Option Failure
  lookahead : Nat
  deriving DecidableEq, Repr, Inhabited

/-- What was seen when the entry was made. -/
def MemoEntry.seen (entry : MemoEntry) : Observation := ⟨entry.failure, entry.lookahead, none⟩

/-- What calls gave. -/
abbrev Memo := Std.HashMap MemoKey MemoEntry

end Syntagm
