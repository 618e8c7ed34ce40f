/-!
# Regular patterns

A pattern describes the texts that one token may have.  It is matched at the start of a text,
and what counts is the longest match, so the order of alternatives and the greed of
repetitions have no meaning here.

**Matching.** A cursor is a place in a text (`Cursor`).  `ends` maps a set of cursors to the
set of all cursors that the pattern can reach from them; sets are lists in ascending order.
A sequence is the composition of its parts, an alternative the union, and an unbounded
repetition the closure under one step (`closureFrom`), which always goes on from the earliest
cursor that is left and so ends at the end of the text.

**Context.** A pattern sees nothing in front of the text it is matched on: the first cursor
is the start of the text for every anchor.
-/

namespace Syntagm

/-- Places that a pattern can ask for. -/
inductive Anchor where
  /-- The start of the text. -/
  | start
  /-- The end of the text. -/
  | stop
  /-- The start of the text or the place after a line feed. -/
  | lineStart
  /-- The end of the text or the place in front of a line feed. -/
  | lineStop
  /-- A place with a word character on exactly one side. -/
  | wordBoundary
  /-- A place with a word character on both sides or on none. -/
  | notWordBoundary
  deriving DecidableEq, Repr

/-- A regular pattern. -/
inductive Pattern where
  /-- Nothing. -/
  | empty
  /-- One character of a set. -/
  | set (member : Char → Bool)
  /-- Nothing, at such a place. -/
  | anchor (kind : Anchor)
  /-- The first pattern, then the second. -/
  | seq (first second : Pattern)
  /-- One of the two patterns. -/
  | alt (first second : Pattern)
  /-- The inner pattern at least `least` times, and at most `most` times if that is given. -/
  | repetition (least : Nat) (most : Option Nat) (inner : Pattern)

instance : Inhabited Pattern := ⟨.empty⟩

namespace Pattern

/-- The pattern that matches exactly a text. -/
def ofText : List Char → Pattern
  | [] => .empty
  | [c] => .set (· == c)
  | c :: rest => .seq (.set (· == c)) (ofText rest)

/-- The patterns of a list one after the other. -/
def seqAll : List Pattern → Pattern
  | [] => .empty
  | [single] => single
  | first :: rest => .seq first (seqAll rest)

/-- One of the patterns of a list that is not empty; nothing for the empty list. -/
def altAll : List Pattern → Pattern
  | [] => .empty
  | [single] => single
  | first :: rest => .alt first (altAll rest)

end Pattern

/-! ### Cursors -/

/-- A place in a text: the number of characters in front of it, the last of them, and those
after it. -/
structure Cursor (text : List Char) where
  taken : Nat
  before : Option Char
  rest : List Char
  rest_eq : rest = text.drop taken
  before_eq : before = (text.take taken).getLast?
  taken_le : taken ≤ text.length

namespace Cursor

variable {text : List Char}

/-- The start of a text. -/
def start (text : List Char) : Cursor text where
  taken := 0
  before := none
  rest := text
  rest_eq := rfl
  before_eq := rfl
  taken_le := Nat.zero_le _

theorem length_rest (cursor : Cursor text) : cursor.rest.length = text.length - cursor.taken := by
  rw [cursor.rest_eq, List.length_drop]

/-- The place after the next character, with that character. -/
def next? (cursor : Cursor text) : Option (Char × Cursor text) :=
  match h : cursor.rest with
  | [] => none
  | c :: rest =>
    have hdrop : text.drop cursor.taken = c :: rest := by rw [← cursor.rest_eq, h]
    have hlt : cursor.taken < text.length := by
      have := congrArg List.length hdrop
      simp only [List.length_drop, List.length_cons] at this
      omega
    some (c, {
      taken := cursor.taken + 1
      before := some c
      rest := rest
      rest_eq := by rw [← List.drop_drop, hdrop]; rfl
      before_eq := by
        have hget : text[cursor.taken]? = some c := by
          rw [← List.head?_drop, hdrop]; rfl
        rw [List.take_add_one, hget]
        simp
      taken_le := hlt })

/-- Merges two sets of cursors. -/
def merge : List (Cursor text) → List (Cursor text) → List (Cursor text)
  | [], second => second
  | first, [] => first
  | x :: first, y :: second =>
    if x.taken < y.taken then x :: merge first (y :: second)
    else if y.taken < x.taken then y :: merge (x :: first) second
    else x :: merge first second
termination_by first second => first.length + second.length

end Cursor

/-! ### Matching -/

namespace Anchor

/-- Whether a cursor is such a place; `isWord` says which characters make words. -/
def holds (isWord : Char → Bool) {text : List Char} (cursor : Cursor text) : Anchor → Bool
  | .start => cursor.before.isNone
  | .stop => cursor.rest.isEmpty
  | .lineStart => cursor.before.isNone || cursor.before == some '\n'
  | .lineStop => cursor.rest.isEmpty || cursor.rest.head? == some '\n'
  | .wordBoundary => cursor.before.any isWord != cursor.rest.head?.any isWord
  | .notWordBoundary => cursor.before.any isWord == cursor.rest.head?.any isWord

end Anchor

namespace Pattern

variable {text : List Char}

/-- Every cursor that some number of steps reaches from `cursor` or from `later`, which are
in ascending order. -/
def closureFrom (step : List (Cursor text) → List (Cursor text)) (cursor : Cursor text)
    (later : List (Cursor text)) : List (Cursor text) :=
  match (Cursor.merge later (step [cursor])).filter (cursor.taken < ·.taken) with
  | [] => [cursor]
  | next :: later =>
    if _h : cursor.taken < next.taken then cursor :: closureFrom step next later else [cursor]
termination_by cursor.rest.length
decreasing_by
  have := next.taken_le
  rw [cursor.length_rest, next.length_rest]
  omega

/-- The closure of a set of cursors under a step. -/
def closure (step : List (Cursor text) → List (Cursor text)) :
    List (Cursor text) → List (Cursor text)
  | [] => []
  | cursor :: later => closureFrom step cursor later

/-- A step taken exactly `count` times. -/
def exactly (step : List (Cursor text) → List (Cursor text)) :
    (count : Nat) → List (Cursor text) → List (Cursor text)
  | 0, cursors => cursors
  | _ + 1, [] => []
  | count + 1, cursors => exactly step count (step cursors)

/-- A step taken at most `count` times. -/
def atMost (step : List (Cursor text) → List (Cursor text)) :
    (count : Nat) → List (Cursor text) → List (Cursor text)
  | 0, cursors => cursors
  | _ + 1, [] => []
  | count + 1, cursors => Cursor.merge cursors (atMost step count (step cursors))

/-- Every cursor that the pattern reaches from one of the given cursors. -/
def ends (isWord : Char → Bool) : Pattern → List (Cursor text) → List (Cursor text)
  | .empty, cursors => cursors
  | .set member, cursors =>
    cursors.filterMap fun cursor =>
      cursor.next?.bind fun (c, next) => if member c then some next else none
  | .anchor kind, cursors => cursors.filter fun cursor => kind.holds isWord cursor
  | .seq first second, cursors => second.ends isWord (first.ends isWord cursors)
  | .alt first second, cursors =>
    Cursor.merge (first.ends isWord cursors) (second.ends isWord cursors)
  | .repetition least most inner, cursors =>
    let reached := exactly (inner.ends isWord) least cursors
    match most with
    | none => closure (inner.ends isWord) reached
    | some most => atMost (inner.ends isWord) (most - least) reached

/-- The number of characters of the longest match at the start of a text. -/
def longest? (isWord : Char → Bool) (pattern : Pattern) (text : List Char) : Option Nat :=
  (pattern.ends isWord [Cursor.start text]).getLast?.map (·.taken)

end Pattern

end Syntagm
