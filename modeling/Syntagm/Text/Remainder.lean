/-!
# What is left to read

A reader takes a list, of characters or of tokens, and returns what it read with the rest of
the list.  The rest carries the fact that it is shorter than the list (`Shorter`), or not
longer (`NotLonger`).  That is why reading ends: a reader that is called on such a rest has
less to read.

The operations of this module say how the rest of a part is a rest of the whole.  `skipWhile` and
`spanWhile` are the dropping and taking of lists, with that fact.
-/

namespace Syntagm.Text

variable {α : Type}

/-- What is left of a list after something was read. -/
abbrev Shorter (list : List α) := { rest : List α // rest.length < list.length }

/-- What is left of a list after something, or nothing, was read. -/
abbrev NotLonger (list : List α) := { rest : List α // rest.length ≤ list.length }

namespace NotLonger

variable {x : α} {list : List α}

/-- Nothing was read. -/
def whole (list : List α) : NotLonger list := ⟨list, Nat.le_refl _⟩

/-- The first `count` elements were read. -/
def drop (count : Nat) (list : List α) : NotLonger list :=
  ⟨list.drop count, by rw [List.length_drop]; exact Nat.sub_le _ _⟩

/-- With one more element in front of the list, there is no more left. -/
def cons (rest : NotLonger list) : NotLonger (x :: list) := ⟨rest.1, Nat.le_succ_of_le rest.2⟩

/-- With one more element in front of the list, something was read. -/
def behind (rest : NotLonger list) : Shorter (x :: list) := ⟨rest.1, Nat.lt_succ_of_le rest.2⟩

/-- What is left of what is left. -/
def trans (rest : NotLonger list) (further : NotLonger rest.1) : NotLonger list :=
  ⟨further.1, Nat.le_trans further.2 rest.2⟩

/-- What is left of what is left, where the second step reads something. -/
def transShorter (rest : NotLonger list) (further : Shorter rest.1) : Shorter list :=
  ⟨further.1, Nat.lt_of_lt_of_le further.2 rest.2⟩

end NotLonger

namespace Shorter

variable {x : α} {list : List α}

/-- The first element was read. -/
def tail (x : α) (list : List α) : Shorter (x :: list) := ⟨list, Nat.lt_succ_self _⟩

/-- What is left after something was read is not longer. -/
def notLonger (rest : Shorter list) : NotLonger list := ⟨rest.1, Nat.le_of_lt rest.2⟩

/-- With one more element in front of the list, there is no more left. -/
def cons (rest : Shorter list) : Shorter (x :: list) := ⟨rest.1, Nat.lt_succ_of_lt rest.2⟩

/-- What is left of what is left. -/
def trans (rest : Shorter list) (further : Shorter rest.1) : Shorter list :=
  ⟨further.1, Nat.lt_trans further.2 rest.2⟩

/-- What is left of what is left, where the second step need not read anything. -/
def transNotLonger (rest : Shorter list) (further : NotLonger rest.1) : Shorter list :=
  ⟨further.1, Nat.lt_of_le_of_lt further.2 rest.2⟩

/-- **What descends where readers call each other**: the rest is shorter, whatever their ranks are
below `ranks`. -/
theorem rank_lt {ranks rank : Nat} (rest : Shorter list) (lt : rank < ranks) (other : Nat) :
    ranks * rest.1.length + rank < ranks * list.length + other := by
  have hlength := Nat.mul_le_mul_left ranks (Nat.succ_le_of_lt rest.2)
  rw [Nat.mul_succ] at hlength
  omega

end Shorter

/-- What is left behind `x`, if that comes first. -/
def afterFirst? [DecidableEq α] (x : α) : (list : List α) → Option (Shorter list)
  | [] => none
  | first :: rest => if first = x then some (.tail first rest) else none

/-- What is left behind the first elements for which `p` holds. -/
def skipWhile (p : α → Bool) : (list : List α) → NotLonger list
  | [] => .whole []
  | x :: rest => if p x then (skipWhile p rest).cons else .whole (x :: rest)

/-- The first elements for which `p` holds, and what is left behind them. -/
def spanWhile (p : α → Bool) : (list : List α) → List α × NotLonger list
  | [] => ([], .whole [])
  | x :: rest =>
    if p x then
      let (front, back) := spanWhile p rest
      (x :: front, back.cons)
    else ([], .whole (x :: rest))

/-- Skipping leaves what dropping leaves. -/
theorem skipWhile_val (p : α → Bool) (list : List α) :
    (skipWhile p list).val = list.dropWhile p := by
  induction list with
  | nil => rfl
  | cons x rest ih =>
    rw [skipWhile, List.dropWhile_cons]
    split
    · exact ih
    · rfl

/-- The elements in front of the first one for which `p` holds, and what is left behind
that one. -/
def splitThrough? (p : α → Bool) : (list : List α) → Option (List α × Shorter list)
  | [] => none
  | x :: rest =>
    if p x then some ([], .tail x rest)
    else (splitThrough? p rest).map fun (front, back) => (x :: front, back.cons)

end Syntagm.Text
