import Syntagm.Text.Digit

/-!
# Tables that give every code point a value

A property of characters is constant on long runs of code points, so a table lists only
where each run starts (`RunTable`).  Looking a code point up is a binary search for the
last run that starts at or before it.

Tables are written as text, one word per run, in the notation of the standard's own data
files: `41:Lu` starts a run at U+0041, `41-5A` is the range U+0041 to U+005A of a set,
`41-5A>61` maps such a range onto the one that starts at U+0061.
-/

namespace Syntagm.Unicode

/-- Runs in ascending order of their first code point. -/
structure RunTable (α : Type) where
  runs : Array (Nat × α)

/-- The words of a table: what stands between blanks and line ends. -/
def tableWords (text : String) : List String :=
  ((text.splitOn "
").flatMap (·.splitOn " ")).filter (· ≠ "")

namespace RunTable

variable {α : Type}

/-- The least index from `low` up to `high` whose run starts after `point`, or `high`. -/
def firstAbove (table : RunTable α) (point low high : Nat) : Nat :=
  if low < high then
    let middle := (low + high) / 2
    match table.runs[middle]? with
    | some (start, _) =>
      if start ≤ point then firstAbove table point (middle + 1) high
      else firstAbove table point low middle
    | none => low
  else low
termination_by high - low

/-- The value of the run that covers `point`. -/
def find? (table : RunTable α) (point : Nat) : Option α :=
  match firstAbove table point 0 table.runs.size with
  | 0 => none
  | index + 1 => (table.runs[index]?).map Prod.snd

/-- Reads the words `start:value`. -/
def ofWords (value : String → α) (text : String) : RunTable α :=
  ⟨((tableWords text).map fun word =>
    match word.splitOn ":" with
    | [start, name] => (Text.hexNumber start.toList, value name)
    | _ => (0, value word)).toArray⟩

end RunTable

/-- Reads `first-last` or `only`. -/
def rangeOfWord (word : String) : Nat × Nat :=
  match word.splitOn "-" with
  | [first, last] => (Text.hexNumber first.toList, Text.hexNumber last.toList)
  | _ => (Text.hexNumber word.toList, Text.hexNumber word.toList)

/-- Reads a set of code points, given as ascending ranges. -/
def rangeSet (text : String) : RunTable Bool :=
  ⟨((tableWords text).flatMap fun word =>
    let (first, last) := rangeOfWord word
    [(first, true), (last + 1, false)]).toArray⟩

/-- Whether a set of code points holds the character. -/
def RunTable.contains (table : RunTable Bool) (c : Char) : Bool :=
  (table.find? c.toNat).getD false

end Syntagm.Unicode
