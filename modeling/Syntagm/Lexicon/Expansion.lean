import Syntagm.Grammar.Basic
import Syntagm.Lexicon.Basic
import Syntagm.Pattern.Reader

/-!
# From token expressions to matchers

The body of a token rule becomes a matcher, and what stands inside a token becomes one
pattern: sequences, choices and repetitions of expressions are those of patterns, and a
reference stands for the body of its rule.  Each pattern that is written in the grammar has
to be well formed alone, and all those that make up one token must not name a group twice.

References are expanded along a list of the rules that are being expanded, so a rule that
comes back to itself is found.  As no rule is on the list twice, expansion ends
(`unvisited`).  An error names the rule in which the faulty expression stands.
-/

namespace Syntagm.Grammar

open Pattern (Written)

/-- The number of rules that are not being expanded. -/
def unvisited (grammar : Grammar) (visiting : List String) : Nat :=
  (grammar.rules.filter fun rule => !visiting.contains rule.1).length

private theorem length_filter_lt {α : Type} {p q : α → Bool} {xs : List α} {x : α}
    (hle : ∀ y, p y = true → q y = true) (hx : x ∈ xs) (hp : p x = false) (hq : q x = true) :
    (xs.filter p).length < (xs.filter q).length := by
  have weak : ∀ ys : List α, (ys.filter p).length ≤ (ys.filter q).length := by
    intro ys
    induction ys with
    | nil => simp
    | cons y ys ih =>
      by_cases hy : p y = true
      · simp [hy, hle y hy, ih]
      · by_cases hy' : q y = true
        · simp [hy, hy']; omega
        · simp [hy, hy', ih]
  induction xs with
  | nil => simp at hx
  | cons y ys ih =>
    rcases List.mem_cons.1 hx with rfl | hx
    · simp [hp, hq]
      have := weak ys
      omega
    · have := ih hx
      by_cases hy : p y = true
      · simp [hy, hle y hy]; omega
      · by_cases hy' : q y = true
        · simp [hy, hy']; omega
        · simp [hy, hy']; omega

/-- Expanding a further rule leaves fewer rules. -/
theorem unvisited_cons_lt {grammar : Grammar} {visiting : List String} {name : String}
    (fresh : visiting.contains name = false) (declared : (grammar.rule? name).isSome) :
    grammar.unvisited (name :: visiting) < grammar.unvisited visiting := by
  obtain ⟨body, h⟩ := Option.isSome_iff_exists.1 declared
  have hmem : ∃ rule ∈ grammar.rules, rule.1 = name := by
    unfold rule? at h
    generalize grammar.rules = rules at h
    induction rules with
    | nil => simp at h
    | cons rule rules ih =>
      rw [List.lookup_cons] at h
      split at h
      · next heq => exact ⟨rule, by simp, (beq_iff_eq.1 heq).symm⟩
      · obtain ⟨found, hfound, hname⟩ := ih h
        exact ⟨found, List.mem_cons_of_mem _ hfound, hname⟩
  obtain ⟨rule, hrule, rfl⟩ := hmem
  refine length_filter_lt (fun other => ?_) hrule ?_ ?_
  · simp
  · simp
  · simp only [fresh, Bool.not_false]

/-- The body of a rule is smaller than all rules together. -/
theorem sizeOf_lt_of_rule? {grammar : Grammar} {name : String} {body : Expression}
    (declared : grammar.rule? name = some body) : sizeOf body < sizeOf grammar.rules := by
  unfold rule? at declared
  generalize grammar.rules = rules at declared
  induction rules with
  | nil => cases declared
  | cons rule rules ih =>
    rw [List.lookup_cons] at declared
    rw [List.cons.sizeOf_spec, Prod.mk.sizeOf_spec]
    split at declared
    · obtain rfl := Option.some.inj declared
      omega
    · have := ih declared
      omega

/-- **What descends** while references are expanded: the number of the rules that are left, and
then the size of what is expanded, as one number. -/
@[irreducible]
noncomputable def effort (grammar : Grammar) (visiting : List String) (size : Nat) : Nat :=
  grammar.unvisited visiting * sizeOf grammar.rules + size

theorem effort_lt {grammar : Grammar} {visiting : List String} {part whole : Nat}
    (lt : part < whole) : grammar.effort visiting part < grammar.effort visiting whole := by
  unfold effort
  exact Nat.add_lt_add_left lt _

/-- Going on with the body of a further rule takes less effort, whatever its size. -/
theorem effort_body_lt {grammar : Grammar} {visiting : List String} {name : String}
    {body : Expression} {size : Nat}
    (h : grammar.unvisited (name :: visiting) < grammar.unvisited visiting ∧
      sizeOf body < sizeOf grammar.rules) :
    grammar.effort (name :: visiting) (sizeOf body) < grammar.effort visiting size := by
  have hrules := Nat.mul_le_mul_right (sizeOf grammar.rules) (Nat.succ_le_of_lt h.1)
  rw [Nat.succ_mul] at hrules
  unfold effort
  omega

/-- The body that a reference in a rule stands for: the rule must exist and must not be one
that is being expanded. -/
def referenced (grammar : Grammar) (rule : String) (visiting : List String) (name : String) :
    Except GrammarError { body : Expression //
      grammar.unvisited (name :: visiting) < grammar.unvisited visiting ∧
        sizeOf body < sizeOf grammar.rules } :=
  if fresh : visiting.contains name = false then
    match declared : grammar.rule? name with
    | some body =>
      .ok ⟨body, unvisited_cons_lt fresh (by simp [declared]), sizeOf_lt_of_rule? declared⟩
    | none => .error (.unresolved rule name)
  else .error (.invalidToken rule (.selfReference name))

theorem rule?_of_referenced {grammar : Grammar} {rule : String} {visiting : List String}
    {name : String} {found} (h : grammar.referenced rule visiting name = .ok found) :
    grammar.rule? name = some found.1 := by
  unfold referenced at h
  split at h
  · split at h
    · rename_i declared
      exact Except.ok.inj h ▸ declared
    · cases h
  · cases h

/-- A reference is refused as one of a rule to itself only if its rule is being expanded. -/
theorem mem_of_referenced {grammar : Grammar} {rule faulty : String} {visiting : List String}
    {name other : String}
    (h : grammar.referenced rule visiting name =
      .error (.invalidToken faulty (.selfReference other))) :
    name = other ∧ name ∈ visiting := by
  unfold referenced at h
  split at h
  · split at h <;> cases h
  · rename_i met
    cases h
    exact ⟨rfl, by simpa using met⟩

/-! ### Patterns -/

/-- The patterns of a list one after the other. -/
def joinSeq (parts : List Written) : Written :=
  ⟨Pattern.seqAll (parts.map (·.pattern)), parts.flatMap (·.groupNames)⟩

/-- One of the patterns of a list. -/
def joinAlt (parts : List Written) : Written :=
  ⟨Pattern.altAll (parts.map (·.pattern)), parts.flatMap (·.groupNames)⟩

mutual

/-- The pattern of an expression that stands in `rule`. -/
def patternOf (grammar : Grammar) (rule : String) (visiting : List String)
    (expression : Expression) : Except GrammarError Written :=
  match expression with
  | .literal text => .ok ⟨Pattern.ofText text.toList, []⟩
  | .pattern source =>
    match Pattern.ofSource? source with
    | some written => .ok written
    | none => .error (.invalidPattern rule source)
  | .seq items => do return joinSeq (← patternsOf grammar rule visiting items)
  | .choice alternatives => do return joinAlt (← patternsOf grammar rule visiting alternatives)
  | .repetition least inner => do
    let inner ← patternOf grammar rule visiting inner
    return { inner with pattern := .repetition (min least 1) none inner.pattern }
  | .optional inner => do
    let inner ← patternOf grammar rule visiting inner
    return { inner with pattern := .repetition 0 (some 1) inner.pattern }
  | .blank => .ok ⟨.empty, []⟩
  | .token inner | .precedence _ _ inner => patternOf grammar rule visiting inner
  | .reference name => do
    let ⟨body, _⟩ ← referenced grammar rule visiting name
    patternOf grammar name (name :: visiting) body
  | .nested .. | .delimited .. | .quoted .. => .error (.invalidToken rule .combinedBlock)
termination_by grammar.effort visiting (sizeOf expression)
decreasing_by
  all_goals first
    | exact effort_body_lt ‹_›
    | exact effort_lt (by simp only [Expression.seq.sizeOf_spec,
        Expression.choice.sizeOf_spec, Expression.repetition.sizeOf_spec,
        Expression.optional.sizeOf_spec, Expression.token.sizeOf_spec,
        Expression.precedence.sizeOf_spec]; omega)

/-- The patterns of the expressions of a list. -/
def patternsOf (grammar : Grammar) (rule : String) (visiting : List String)
    (expressions : List Expression) : Except GrammarError (List Written) :=
  match expressions with
  | [] => .ok []
  | first :: rest => do
    let first ← patternOf grammar rule visiting first
    let rest ← patternsOf grammar rule visiting rest
    return first :: rest
termination_by grammar.effort visiting (sizeOf expressions)
decreasing_by
  all_goals exact effort_lt (by simp only [List.cons.sizeOf_spec]; omega)

end

/-! ### Matchers -/

/-- Refuses empty delimiters. -/
def checkDelimiters (rule opening closing : String) : Except GrammarError Unit :=
  if opening.isEmpty || closing.isEmpty then .error (.invalidToken rule .emptyDelimiter)
  else .ok ()

mutual

/-- The matcher of an expression that stands in `rule`. -/
def matcherOf (grammar : Grammar) (rule : String) (visiting : List String)
    (expression : Expression) : Except GrammarError Matcher :=
  match expression with
  | .precedence _ _ inner => matcherOf grammar rule visiting inner
  | .literal text => .ok (.literal text)
  | .nested opening closing => do
    checkDelimiters rule opening closing
    return .nested opening closing
  | .quoted opening closing => do
    checkDelimiters rule opening closing
    return .quoted opening closing
  | .delimited opening closing => do
    checkDelimiters rule opening closing
    return .delimited opening closing
  | .choice alternatives => do return .any (← matchersOf grammar rule visiting alternatives)
  | .reference name => do
    let ⟨body, _⟩ ← referenced grammar rule visiting name
    matcherOf grammar name (name :: visiting) body
  | .pattern _ | .seq _ | .repetition .. | .optional _ | .blank | .token _ => do
    let written ← patternOf grammar rule visiting expression
    if written.groupNames.Nodup then return .pattern written.pattern
    else .error (.invalidToken rule .repeatedGroup)
termination_by grammar.effort visiting (sizeOf expression)
decreasing_by
  all_goals first
    | exact effort_body_lt ‹_›
    | exact effort_lt (by simp only [Expression.choice.sizeOf_spec,
        Expression.precedence.sizeOf_spec]; omega)

/-- The matchers of the expressions of a list. -/
def matchersOf (grammar : Grammar) (rule : String) (visiting : List String)
    (expressions : List Expression) : Except GrammarError (List Matcher) :=
  match expressions with
  | [] => .ok []
  | first :: rest => do
    let first ← matcherOf grammar rule visiting first
    let rest ← matchersOf grammar rule visiting rest
    return first :: rest
termination_by grammar.effort visiting (sizeOf expressions)
decreasing_by
  all_goals exact effort_lt (by simp only [List.cons.sizeOf_spec]; omega)

end

/-- The matcher of a terminal that stands in `rule`, or is the body of that rule. -/
def terminalMatcher (grammar : Grammar) (rule : String) (expression : Expression) :
    Except GrammarError Matcher :=
  grammar.matcherOf rule [rule] expression

end Syntagm.Grammar
