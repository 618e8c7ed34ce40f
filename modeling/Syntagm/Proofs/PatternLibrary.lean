import Syntagm.Proofs.Hiding
import Syntagm.Proofs.PatternMatching

/-!
# Tokens over a library of patterns

What stands inside a token is handed to a library of patterns as one notation (`Grammar.sourceOf`):
texts as the library escapes them, written patterns and choices in groups, sequences and the bodies
of rules with nothing around them.

**The library.**  It is a parameter (`PatternLibrary`).  Which notations it takes, how it escapes a
text, and what it matches are its own.  What its documentation says of the notations that tokens
are put together of is the relation `PatternLibrary.Reads`.  Operators bind tighter than sequences,
and sequences tighter than bars, so the relation has three levels.

**What is required.**  A documented library (`PatternLibrary.Documented`) keeps to what `Reads` says
and searches for the longest match.  A written pattern does not have to keep its meaning in a group:
the requirement is for the patterns of a given set.  A pattern that ends in a comment is one that
does not, since its comment goes on behind it.

Nothing is put around sequences and bodies of rules.  That nothing has to be is the theorem
`Grammar.Lexical.exists_reads`.
-/

namespace Syntagm

open Computability

/-- The notation of a group without a name. -/
def Pattern.grouped (inner : List Char) : List Char := '(' :: '?' :: ':' :: (inner ++ [')'])

/-! ### Libraries -/

/-- **A library of patterns.** -/
structure PatternLibrary where
  /-- The notation of a text. -/
  escape : List Char → List Char
  /-- Whether a written pattern is valid. -/
  isValid : List Char → Bool
  /-- Whether a matcher can be made of a notation.  A valid pattern can be too large, and two
  groups with one name can come from two valid patterns. -/
  builds : List Char → Bool
  /-- The stretches that a notation matches. -/
  takes : List Char → Matching
  /-- The length of the match that a search at the start of a text finds. -/
  longest? : List Char → List Char → Option Nat

namespace PatternLibrary

open Pattern (IsLongest grouped)

variable (library : PatternLibrary)

/-- How tight the parts of a notation are bound. -/
inductive Level where
  /-- An operator behind it applies to all of it. -/
  | item
  /-- It goes on with what stands behind it, and no bar divides it. -/
  | sequence
  /-- Bars may divide it. -/
  | choice

/-- **What a notation says**, by the documentation, if the patterns of a set keep their meaning in a
group. -/
inductive Reads (patterns : Set String) : Level → List Char → Matching → Prop
  /-- A text that was escaped matches the text. -/
  | escape (text : List Char) : Reads patterns .sequence (library.escape text) (.spelled {text})
  /-- A valid pattern in a group matches what it matches alone. -/
  | pattern {source : String} (mem : source ∈ patterns) (valid : library.isValid source.toList) :
      Reads patterns .item (grouped source.toList) (library.takes source.toList)
  /-- A group is one item. -/
  | group {inner : List Char} {x : Matching} :
      Reads patterns .choice inner x → Reads patterns .item (grouped inner) x
  | star {item : List Char} {x : Matching} :
      Reads patterns .item item x → Reads patterns .sequence (item ++ ['*']) x∗
  | plus {item : List Char} {x : Matching} :
      Reads patterns .item item x → Reads patterns .sequence (item ++ ['+']) (x * x∗)
  | question {item : List Char} {x : Matching} :
      Reads patterns .item item x → Reads patterns .sequence (item ++ ['?']) (1 + x)
  | single {item : List Char} {x : Matching} :
      Reads patterns .item item x → Reads patterns .sequence item x
  | empty : Reads patterns .sequence [] 1
  /-- One sequence and the next are a sequence. -/
  | append {first second : List Char} {x y : Matching} :
      Reads patterns .sequence first x → Reads patterns .sequence second y →
      Reads patterns .sequence (first ++ second) (x * y)
  | alternative {source : List Char} {x : Matching} :
      Reads patterns .sequence source x → Reads patterns .choice source x
  /-- A bar stands between alternatives. -/
  | bar {first rest : List Char} {x y : Matching} :
      Reads patterns .sequence first x → Reads patterns .choice rest y →
      Reads patterns .choice (first ++ '|' :: rest) (x + y)

namespace Reads

variable {library} {patterns : Set String} {sources : List (List Char)} {xs : List Matching}

/-- Sequences one behind the other are a sequence. -/
theorem flatten (h : List.Forall₂ (library.Reads patterns .sequence) sources xs) :
    library.Reads patterns .sequence sources.flatten xs.prod := by
  induction h with
  | nil => exact .empty
  | cons first _ ih =>
    rw [List.flatten_cons, List.prod_cons]
    exact .append first ih

/-- Sequences with bars between them are a choice. -/
theorem intercalate (h : List.Forall₂ (library.Reads patterns .sequence) sources xs)
    (ne : sources ≠ []) :
    library.Reads patterns .choice (['|'].intercalate sources) xs.sum := by
  induction h with
  | nil => exact absurd rfl ne
  | cons first rest ih =>
    cases rest with
    | nil => simpa [List.intercalate] using Reads.alternative first
    | cons second others =>
      have hrest := ih (List.cons_ne_nil _ _)
      rw [List.sum_cons]
      simpa [List.intercalate] using Reads.bar first hrest

end Reads

/-- **A library that keeps to its documentation**: what is built from a notation matches what the
notation says, and a search at the start of a text finds the longest match there.  With all patterns
in the set, every valid pattern keeps its meaning in a group. -/
structure Documented (patterns : Set String) : Prop where
  takes_eq {inner : List Char} {x : Matching} : library.builds (grouped inner) = true →
    library.Reads patterns .choice inner x → library.takes (grouped inner) = x
  isLongest {source : List Char} (text : List Char) : library.builds source = true →
    IsLongest {length | ∃ there : Cursor text, library.takes source text (.start text) there ∧
      there.taken = length} (library.longest? source text)

/-- **The matcher of a token**: a notation in a group, which the library builds. -/
structure TokenPattern where
  source : List Char
  builds : library.builds source = true

/-- The matcher that is made of a notation, if the library builds it. -/
def tokenPattern? (source : List Char) : Option library.TokenPattern :=
  if builds : library.builds (grouped source) = true then some ⟨grouped source, builds⟩ else none

theorem source_of_tokenPattern? {library : PatternLibrary} {source : List Char}
    {token : library.TokenPattern} (h : library.tokenPattern? source = some token) :
    token.source = grouped source := by
  obtain ⟨_, hsome⟩ := Option.dite_none_right_eq_some.mp h
  obtain rfl := Option.some.inj hsome
  rfl

namespace TokenPattern

variable {library} (token : library.TokenPattern)

/-- The stretches that a token takes. -/
def takes : Matching := library.takes token.source

/-- The length of the longest match at the start of a text. -/
def longest? (text : List Char) : Option Nat := library.longest? token.source text

end TokenPattern

end PatternLibrary

/-! ### The notation of an expression -/

namespace Grammar

mutual

/-- The notation of an expression that stands in `rule`. -/
def sourceOf (grammar : Grammar) (library : PatternLibrary) (rule : String)
    (visiting : List String) (expression : Expression) : Except GrammarError (List Char) :=
  match expression with
  | .literal text => .ok (library.escape text.toList)
  | .pattern source =>
    if library.isValid source.toList then .ok (Pattern.grouped source.toList)
    else .error (.invalidPattern rule source)
  | .seq items => do return (← sourcesOf grammar library rule visiting items).flatten
  | .choice alternatives => do
    let sources ← sourcesOf grammar library rule visiting alternatives
    return Pattern.grouped (['|'].intercalate sources)
  | .repetition least inner => do
    let source ← sourceOf grammar library rule visiting inner
    return Pattern.grouped source ++ [if least = 0 then '*' else '+']
  | .optional inner => do
    return Pattern.grouped (← sourceOf grammar library rule visiting inner) ++ ['?']
  | .blank => .ok []
  | .token inner | .precedence _ _ inner => sourceOf grammar library rule visiting inner
  | .reference name => do
    let ⟨body, _⟩ ← referenced grammar rule visiting name
    sourceOf grammar library name (name :: visiting) body
  | .nested .. | .delimited .. | .quoted .. => .error (.invalidToken rule .combinedBlock)
termination_by grammar.effort visiting (sizeOf expression)
decreasing_by
  all_goals first
    | exact effort_body_lt ‹_›
    | exact effort_lt (by simp only [Expression.seq.sizeOf_spec,
        Expression.choice.sizeOf_spec, Expression.repetition.sizeOf_spec,
        Expression.optional.sizeOf_spec, Expression.token.sizeOf_spec,
        Expression.precedence.sizeOf_spec]; omega)

/-- The notations of the expressions of a list. -/
def sourcesOf (grammar : Grammar) (library : PatternLibrary) (rule : String)
    (visiting : List String) (expressions : List Expression) :
    Except GrammarError (List (List Char)) :=
  match expressions with
  | [] => .ok []
  | first :: rest => do
    let first ← sourceOf grammar library rule visiting first
    let rest ← sourcesOf grammar library rule visiting rest
    return first :: rest
termination_by grammar.effort visiting (sizeOf expressions)
decreasing_by
  all_goals exact effort_lt (by simp only [List.cons.sizeOf_spec]; omega)

end

end Grammar

end Syntagm
