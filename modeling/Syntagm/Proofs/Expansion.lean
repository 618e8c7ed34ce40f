import Mathlib.Data.Prod.Lex
import Syntagm.Proofs.CallTrees
import Syntagm.Proofs.Classification
import Syntagm.Proofs.Lexicon

/-!
# Token expressions are expanded to the end

A reference in a token stands for the body of its rule, in which there may be further references.
Matchers and patterns are made by two functions that follow references through whatever graph the
rules make up, and the list of the rules that are being expanded is all that keeps them from going
on for ever.

**They end.**  Here they are given by call trees (`Expansion.activation`) that take the list along:
a reference puts its rule on the list, calls for the body of the rule, and takes off what is then in
front.  Nothing in a tree sees to it that the recursion ends or that what is taken off was put on.
Calls descend in the lexicographic order of two numbers (`Expansion.Query.measure`): how many rules
are not on the list, and the size of what is expanded.  A reference takes down the first one, since
its rule is declared and new on the list, and a part of an expression the second one.  So running
the trees returns what the functions give, and the list as it was (`Expansion.returns_outcome`).

**Cycles.**  An expansion that succeeds has followed all references down to rules without any, so
they are well-founded.  One that is refused for a rule that is on the list has followed references
from this rule to where it stands again (`Grammar.Follows`).  So an expression whose references lead
to a cycle is never expanded, and only of such an expression is it said that it refers to itself.
-/

namespace Syntagm

open Pattern (Written)

/-! ### Calls that are left open -/

namespace Expansion

/-- What is to be made of expressions. -/
inductive Task where
  | pattern (expression : Expression)
  | patterns (expressions : List Expression)
  | matcher (expression : Expression)
  | matchers (expressions : List Expression)

/-- A call: what is to be made, the rule in which it stands, and the rules that are being expanded,
the innermost first. -/
structure Query where
  task : Task
  rule : String
  visiting : List String

/-- What is made of expressions. -/
inductive Product where
  | pattern (written : Written)
  | patterns (parts : List Written)
  | matcher (matcher : Matcher)
  | matchers (alternatives : List Matcher)

namespace Product

def pattern? : Product → Option Written
  | .pattern written => some written
  | _ => none

def patterns? : Product → Option (List Written)
  | .patterns parts => some parts
  | _ => none

def matcher? : Product → Option Matcher
  | .matcher made => some made
  | _ => none

def matchers? : Product → Option (List Matcher)
  | .matchers alternatives => some alternatives
  | _ => none

end Product

/-- What a call returns: what it made, or why it could not, and the rules that are being expanded as
it leaves them. -/
structure Reply where
  outcome : Except GrammarError Product
  visiting : List String

/-- Calls, and goes on with what the call made and with the list as the call left it.  An error is
handed on. -/
def callThen {α : Type} (query : Query) (read : Product → Option α)
    (next : α → List String → CallTree Query Reply) : CallTree Query Reply :=
  .call query fun reply =>
    match reply.outcome with
    | .error _ => .done reply
    | .ok product =>
      match read product with
      | some made => next made reply.visiting
      | none => .stuck

/-- Expands a reference: its rule is put on the list, and what is in front of the list after the
call is taken off. -/
def treeOfReference (grammar : Grammar) (task : Expression → Task) (rule : String)
    (visiting : List String) (name : String) : CallTree Query Reply :=
  if visiting.contains name then
    .done ⟨.error (.invalidToken rule (.selfReference name)), visiting⟩
  else
    match grammar.rule? name with
    | none => .done ⟨.error (.unresolved rule name), visiting⟩
    | some body =>
      .call ⟨task body, name, name :: visiting⟩ fun reply =>
        .done ⟨reply.outcome, reply.visiting.tail⟩

/-- Makes the pattern of an expression. -/
def treeOfPattern (grammar : Grammar) (rule : String) (visiting : List String) :
    Expression → CallTree Query Reply
  | .literal text => .done ⟨.ok (.pattern ⟨Pattern.ofText text.toList, []⟩), visiting⟩
  | .pattern source =>
    match Pattern.ofSource? source with
    | some written => .done ⟨.ok (.pattern written), visiting⟩
    | none => .done ⟨.error (.invalidPattern rule source), visiting⟩
  | .seq items =>
    callThen ⟨.patterns items, rule, visiting⟩ Product.patterns? fun parts visiting =>
      .done ⟨.ok (.pattern (Grammar.joinSeq parts)), visiting⟩
  | .choice alternatives =>
    callThen ⟨.patterns alternatives, rule, visiting⟩ Product.patterns? fun parts visiting =>
      .done ⟨.ok (.pattern (Grammar.joinAlt parts)), visiting⟩
  | .repetition least inner =>
    callThen ⟨.pattern inner, rule, visiting⟩ Product.pattern? fun inner visiting =>
      let pattern := .repetition (min least 1) none inner.pattern
      .done ⟨.ok (.pattern { inner with pattern := pattern }), visiting⟩
  | .optional inner =>
    callThen ⟨.pattern inner, rule, visiting⟩ Product.pattern? fun inner visiting =>
      let pattern := .repetition 0 (some 1) inner.pattern
      .done ⟨.ok (.pattern { inner with pattern := pattern }), visiting⟩
  | .blank => .done ⟨.ok (.pattern ⟨.empty, []⟩), visiting⟩
  | .token inner | .precedence _ _ inner => .call ⟨.pattern inner, rule, visiting⟩ .done
  | .reference name => treeOfReference grammar .pattern rule visiting name
  | .nested .. | .delimited .. | .quoted .. =>
    .done ⟨.error (.invalidToken rule .combinedBlock), visiting⟩

/-- Makes the matcher of a block or string. -/
def treeOfBlock (rule : String) (visiting : List String) (opening closing : String)
    (matcher : Matcher) : CallTree Query Reply :=
  if opening.isEmpty || closing.isEmpty then
    .done ⟨.error (.invalidToken rule .emptyDelimiter), visiting⟩
  else .done ⟨.ok (.matcher matcher), visiting⟩

/-- Makes the matcher of an expression. -/
def treeOfMatcher (grammar : Grammar) (rule : String) (visiting : List String)
    (expression : Expression) : CallTree Query Reply :=
  match expression with
  | .precedence _ _ inner => .call ⟨.matcher inner, rule, visiting⟩ .done
  | .literal text => .done ⟨.ok (.matcher (.literal text)), visiting⟩
  | .nested opening closing =>
    treeOfBlock rule visiting opening closing (.nested opening closing)
  | .quoted opening closing =>
    treeOfBlock rule visiting opening closing (.quoted opening closing)
  | .delimited opening closing =>
    treeOfBlock rule visiting opening closing (.delimited opening closing)
  | .choice alternatives =>
    callThen ⟨.matchers alternatives, rule, visiting⟩ Product.matchers? fun made visiting =>
      .done ⟨.ok (.matcher (.any made)), visiting⟩
  | .reference name => treeOfReference grammar .matcher rule visiting name
  | .pattern _ | .seq _ | .repetition .. | .optional _ | .blank | .token _ =>
    callThen ⟨.pattern expression, rule, visiting⟩ Product.pattern? fun written visiting =>
      if written.groupNames.Nodup then .done ⟨.ok (.matcher (.pattern written.pattern)), visiting⟩
      else .done ⟨.error (.invalidToken rule .repeatedGroup), visiting⟩

/-- **One activation**, with the calls that it makes left open. -/
def activation (grammar : Grammar) : Query → CallTree Query Reply
  | ⟨.pattern expression, rule, visiting⟩ => treeOfPattern grammar rule visiting expression
  | ⟨.matcher expression, rule, visiting⟩ => treeOfMatcher grammar rule visiting expression
  | ⟨.patterns [], _, visiting⟩ => .done ⟨.ok (.patterns []), visiting⟩
  | ⟨.patterns (first :: rest), rule, visiting⟩ =>
    callThen ⟨.pattern first, rule, visiting⟩ Product.pattern? fun part visiting =>
      callThen ⟨.patterns rest, rule, visiting⟩ Product.patterns? fun parts visiting =>
        .done ⟨.ok (.patterns (part :: parts)), visiting⟩
  | ⟨.matchers [], _, visiting⟩ => .done ⟨.ok (.matchers []), visiting⟩
  | ⟨.matchers (first :: rest), rule, visiting⟩ =>
    callThen ⟨.matcher first, rule, visiting⟩ Product.matcher? fun matcher visiting =>
      callThen ⟨.matchers rest, rule, visiting⟩ Product.matchers? fun others visiting =>
        .done ⟨.ok (.matchers (matcher :: others)), visiting⟩

/-- The references in what is to be expanded. -/
def Task.references : Task → List String
  | .pattern expression | .matcher expression => expression.references
  | .patterns expressions | .matchers expressions => Expression.referencesOfAll expressions

/-! ### What is answered -/

/-- What is made for a call. -/
def Query.outcome (grammar : Grammar) : Query → Except GrammarError Product
  | ⟨.pattern expression, rule, visiting⟩ =>
    (grammar.patternOf rule visiting expression).map .pattern
  | ⟨.patterns expressions, rule, visiting⟩ =>
    (grammar.patternsOf rule visiting expressions).map .patterns
  | ⟨.matcher expression, rule, visiting⟩ =>
    (grammar.matcherOf rule visiting expression).map .matcher
  | ⟨.matchers expressions, rule, visiting⟩ =>
    (grammar.matchersOf rule visiting expressions).map .matchers

/-- The answer for a call: the list is as it was. -/
def Query.answer (grammar : Grammar) (query : Query) : Reply :=
  ⟨query.outcome grammar, query.visiting⟩

/-- The size of what is expanded.  The matcher of an expression may ask for its pattern. -/
noncomputable def Task.size : Task → Nat
  | .pattern expression => 2 * sizeOf expression
  | .patterns expressions => 2 * sizeOf expressions
  | .matcher expression => 2 * sizeOf expression + 1
  | .matchers expressions => 2 * sizeOf expressions + 1

/-- **What descends**: the number of the rules that are not being expanded, and then the size of
what is expanded. -/
noncomputable def Query.measure (grammar : Grammar) (query : Query) : Nat ×ₗ Nat :=
  toLex (grammar.unvisited query.visiting, query.task.size)

/-- A call that is smaller. -/
def Below (grammar : Grammar) (query other : Query) : Prop :=
  other.measure grammar < query.measure grammar

/-- One activation is done with the answer, if it calls for nothing but what is smaller and these
calls are answered. -/
def Settled (grammar : Grammar) (query : Query) : Prop :=
  CallTree.Answered (Below grammar query) (Query.answer grammar) (activation grammar query)
    (query.answer grammar)

section Steps
variable {grammar : Grammar} {rule : String} {visiting : List String}

theorem below_of_size {task part : Task} (lt : part.size < task.size) :
    Below grammar ⟨task, rule, visiting⟩ ⟨part, rule, visiting⟩ :=
  Prod.Lex.toLex_lt_toLex.mpr (.inr ⟨rfl, lt⟩)

theorem map_bind {α β γ : Type} (x : Except GrammarError α) (f : α → Except GrammarError β)
    (g : β → γ) : (x >>= f).map g = x >>= fun a => (f a).map g := by
  cases x <;> rfl

/-- A call and what comes behind it are answered, one after the other. -/
theorem answered_callThen {α : Type} {may : Query → Prop} {query : Query}
    {read : Product → Option α} {next : α → List String → CallTree Query Reply}
    {made : Except GrammarError α} {product : α → Product} {f : α → Except GrammarError Product}
    (allowed : may query) (outcome : query.outcome grammar = made.map product)
    (reads : ∀ a, read (product a) = some a)
    (behind : ∀ a, CallTree.Answered may (Query.answer grammar) (next a query.visiting)
      ⟨f a, query.visiting⟩) :
    CallTree.Answered may (Query.answer grammar) (callThen query read next)
      ⟨made >>= f, query.visiting⟩ := by
  refine .call allowed ?_
  simp only [Query.answer, outcome]
  cases made with
  | error fault => exact .done
  | ok a =>
    simp only [Except.map, reads]
    exact behind a

/-- **A reference is answered** with what is made of the body of its rule, and the list is as it was
before the rule was put on it. -/
theorem answered_treeOfReference {α : Type} {caller : Task} {task : Expression → Task}
    {name : String} {product : α → Product}
    {f : String → List String → Expression → Except GrammarError α}
    (outcome : ∀ body, (⟨task body, name, name :: visiting⟩ : Query).outcome grammar =
      (f name (name :: visiting) body).map product) :
    CallTree.Answered (Below grammar ⟨caller, rule, visiting⟩) (Query.answer grammar)
      (treeOfReference grammar task rule visiting name)
      ⟨(grammar.referenced rule visiting name >>= fun found =>
        f name (name :: visiting) found.1).map product, visiting⟩ := by
  rw [treeOfReference, Grammar.referenced]
  split
  · rename_i met
    rw [dif_neg (by simpa using met)]
    exact .done
  · rename_i fresh
    have hfresh : visiting.contains name = false := Bool.not_eq_true _ ▸ fresh
    rw [dif_pos hfresh]
    split
    · rename_i missing
      split
      · rename_i declared
        rw [missing] at declared
        cases declared
      · exact .done
    · rename_i body declared
      have hlt := Grammar.unvisited_cons_lt hfresh (Option.isSome_of_eq_some declared)
      refine .call (Prod.Lex.toLex_lt_toLex.mpr (.inl hlt)) ?_
      simp only [Query.answer, outcome, List.tail_cons]
      split
      · rename_i body' declared'
        obtain rfl := Option.some.inj (declared.symm.trans declared')
        exact .done
      · rename_i missing
        rw [missing] at declared
        cases declared

theorem settled_pattern (expression : Expression) :
    Settled grammar ⟨.pattern expression, rule, visiting⟩ := by
  simp only [Settled, activation, Query.answer, Query.outcome]
  cases expression with
  | literal | blank | nested | delimited | quoted =>
    rw [Grammar.patternOf]
    exact .done
  | pattern source =>
    rw [Grammar.patternOf, treeOfPattern]
    cases Pattern.ofSource? source <;> exact .done
  | seq | choice =>
    rw [Grammar.patternOf, map_bind, treeOfPattern]
    refine answered_callThen (below_of_size ?_) rfl (fun _ => rfl) fun _ => ?_
    · simp only [Task.size, Expression.seq.sizeOf_spec, Expression.choice.sizeOf_spec]
      omega
    · exact .done
  | repetition | optional =>
    rw [Grammar.patternOf, map_bind, treeOfPattern]
    refine answered_callThen (below_of_size ?_) rfl (fun _ => rfl) fun _ => ?_
    · simp only [Task.size, Expression.repetition.sizeOf_spec, Expression.optional.sizeOf_spec]
      omega
    · exact .done
  | token | precedence =>
    rw [Grammar.patternOf]
    refine .call (below_of_size ?_) .done
    simp only [Task.size, Expression.token.sizeOf_spec, Expression.precedence.sizeOf_spec]
    omega
  | reference name =>
    rw [Grammar.patternOf]
    exact answered_treeOfReference fun _ => rfl

theorem answered_treeOfBlock {may : Query → Prop} (opening closing : String) (matcher : Matcher) :
    CallTree.Answered may (Query.answer grammar)
      (treeOfBlock rule visiting opening closing matcher)
      ⟨(Grammar.checkDelimiters rule opening closing >>= fun _ => pure matcher).map .matcher,
        visiting⟩ := by
  rw [treeOfBlock, Grammar.checkDelimiters]
  split <;> exact .done

theorem settled_matcher (expression : Expression) :
    Settled grammar ⟨.matcher expression, rule, visiting⟩ := by
  simp only [Settled, activation, Query.answer, Query.outcome]
  cases expression with
  | literal =>
    rw [Grammar.matcherOf]
    exact .done
  | nested | delimited | quoted =>
    rw [Grammar.matcherOf]
    exact answered_treeOfBlock ..
  | choice alternatives =>
    rw [Grammar.matcherOf, map_bind, treeOfMatcher]
    refine answered_callThen (below_of_size ?_) rfl (fun _ => rfl) fun _ => ?_
    · simp only [Task.size, Expression.choice.sizeOf_spec]
      omega
    · exact .done
  | precedence =>
    rw [Grammar.matcherOf]
    refine .call (below_of_size ?_) .done
    simp only [Task.size, Expression.precedence.sizeOf_spec]
    omega
  | reference name =>
    rw [Grammar.matcherOf]
    exact answered_treeOfReference fun _ => rfl
  | pattern | seq | repetition | optional | blank | token =>
    rw [Grammar.matcherOf, map_bind, treeOfMatcher]
    refine answered_callThen (below_of_size ?_) rfl (fun _ => rfl) fun written => ?_
    · exact Nat.lt_succ_self _
    · split <;> exact .done

theorem settled_patterns (expressions : List Expression) :
    Settled grammar ⟨.patterns expressions, rule, visiting⟩ := by
  simp only [Settled, Query.answer, Query.outcome]
  cases expressions with
  | nil =>
    rw [Grammar.patternsOf]
    exact .done
  | cons first rest =>
    rw [Grammar.patternsOf, map_bind, activation]
    refine answered_callThen (below_of_size ?_) rfl (fun _ => rfl) fun part => ?_
    · simp only [Task.size, List.cons.sizeOf_spec]
      omega
    · rw [map_bind]
      refine answered_callThen (below_of_size ?_) rfl (fun _ => rfl) fun _ => ?_
      · simp only [Task.size, List.cons.sizeOf_spec]
        omega
      · exact .done

theorem settled_matchers (expressions : List Expression) :
    Settled grammar ⟨.matchers expressions, rule, visiting⟩ := by
  simp only [Settled, Query.answer, Query.outcome]
  cases expressions with
  | nil =>
    rw [Grammar.matchersOf]
    exact .done
  | cons first rest =>
    rw [Grammar.matchersOf, map_bind, activation]
    refine answered_callThen (below_of_size ?_) rfl (fun _ => rfl) fun part => ?_
    · simp only [Task.size, List.cons.sizeOf_spec]
      omega
    · rw [map_bind]
      refine answered_callThen (below_of_size ?_) rfl (fun _ => rfl) fun _ => ?_
      · simp only [Task.size, List.cons.sizeOf_spec]
        omega
      · exact .done

/-- **One activation is done with the answer**, if what it calls for is answered. -/
theorem settled (query : Query) : Settled grammar query := by
  obtain ⟨task, rule, visiting⟩ := query
  cases task with
  | pattern expression => exact settled_pattern expression
  | patterns expressions => exact settled_patterns expressions
  | matcher expression => exact settled_matcher expression
  | matchers expressions => exact settled_matchers expressions

end Steps

/-- Running the expansion for the first call calls for the second one. -/
def Invokes (grammar : Grammar) (caller callee : Query) : Prop :=
  CallTree.Calls (activation grammar) (activation grammar caller) callee

/-- **Expansion ends**, with what the functions make and the list as it was, and every call on the
way is smaller than its caller. -/
theorem returns_outcome (grammar : Grammar) (query : Query) :
    CallTree.Returns (activation grammar) (activation grammar query) (query.answer grammar) ∧
      ∀ callee, Invokes grammar query callee → callee.measure grammar < query.measure grammar :=
  CallTree.returns_of_smaller (Query.measure grammar) settled query

end Expansion

namespace Grammar

/-! ### Cycles of references -/

/-- The body of a rule refers to another rule. -/
def RefersTo (grammar : Grammar) (rule other : String) : Prop :=
  ∃ body, grammar.rule? rule = some body ∧ other ∈ body.references

/-- **Names that lead to a cycle**: references lead from one of them to a rule, and from this rule
back to itself. -/
def Circular (grammar : Grammar) (names : List String) : Prop :=
  ∃ first ∈ names, ∃ name, Relation.ReflTransGen grammar.RefersTo first name ∧
    Relation.TransGen grammar.RefersTo name name

/-- **What has followed references**: with success, if they are well-founded; and if it was refused
for a reference to a rule, references lead to this rule, and it is being expanded or leads back to
itself. -/
structure Follows (grammar : Grammar) (visiting names : List String) {α : Type}
    (result : Except GrammarError α) : Prop where
  grounded : ∀ a, result = .ok a → ∀ name ∈ names, Acc (Function.swap grammar.RefersTo) name
  refused : ∀ rule name, result = .error (.invalidToken rule (.selfReference name)) →
    ∃ first ∈ names, Relation.ReflTransGen grammar.RefersTo first name ∧
      (name ∈ visiting ∨ Relation.TransGen grammar.RefersTo name name)

namespace Follows

variable {grammar : Grammar} {visiting names others : List String} {α β : Type}

/-- Where there is no reference, and none is refused, there is nothing to follow. -/
theorem nil {result : Except GrammarError α}
    (other : ∀ rule name, result ≠ .error (.invalidToken rule (.selfReference name))) :
    grammar.Follows visiting [] result :=
  ⟨fun _ _ => List.forall_mem_nil _, fun rule name h => absurd h (other rule name)⟩

theorem bind {x : Except GrammarError α} {f : α → Except GrammarError β}
    (h : grammar.Follows visiting names x) (h' : ∀ a, grammar.Follows visiting others (f a)) :
    grammar.Follows visiting (names ++ others) (x >>= f) where
  grounded b hb := by
    obtain ⟨a, hx, hf⟩ := bind_eq_ok.mp hb
    exact List.forall_mem_append.mpr ⟨h.grounded a hx, (h' a).grounded b hf⟩
  refused rule name herror := by
    rcases bind_eq_error.mp herror with hx | ⟨a, -, hf⟩
    · obtain ⟨first, hfirst, hleads⟩ := h.refused rule name hx
      exact ⟨first, List.mem_append_left _ hfirst, hleads⟩
    · obtain ⟨first, hfirst, hleads⟩ := (h' a).refused rule name hf
      exact ⟨first, List.mem_append_right _ hfirst, hleads⟩

/-- What comes behind without a reference changes nothing. -/
theorem andThen {x : Except GrammarError α} {f : α → Except GrammarError β}
    (h : grammar.Follows visiting names x)
    (other : ∀ a rule name, f a ≠ .error (.invalidToken rule (.selfReference name))) :
    grammar.Follows visiting names (x >>= f) := by
  have hbind : grammar.Follows visiting (names ++ []) (x >>= f) := h.bind fun a => nil (other a)
  rwa [List.append_nil] at hbind

theorem map {x : Except GrammarError α} (h : grammar.Follows visiting names x) (f : α → β) :
    grammar.Follows visiting names (x.map f) := by
  have hthen := h.andThen (f := fun a => .ok (f a)) nofun
  cases x <;> exact hthen

/-- **A reference is followed** into the body of its rule. -/
theorem reference {rule name : String}
    {expand : { body : Expression //
      grammar.unvisited (name :: visiting) < grammar.unvisited visiting ∧
        sizeOf body < sizeOf grammar.rules } → Except GrammarError α}
    (h : ∀ body, grammar.Follows (name :: visiting) body.1.references (expand body)) :
    grammar.Follows visiting [name] (grammar.referenced rule visiting name >>= expand) where
  grounded a ha := by
    obtain ⟨body, hbody, hexpand⟩ := bind_eq_ok.mp ha
    have hdeclared := rule?_of_referenced hbody
    refine List.forall_mem_singleton.mpr (.intro name fun other ⟨body', declared, hmem⟩ => ?_)
    obtain rfl := Option.some.inj (hdeclared.symm.trans declared)
    exact (h body).grounded a hexpand other hmem
  refused rule' name' herror := by
    rcases bind_eq_error.mp herror with hrefused | ⟨body, hbody, hexpand⟩
    · obtain ⟨rfl, hmem⟩ := mem_of_referenced hrefused
      exact ⟨name, List.mem_singleton_self _, .refl, .inl hmem⟩
    · obtain ⟨first, hfirst, hleads, hcases⟩ := (h body).refused rule' name' hexpand
      have hstep : grammar.RefersTo name first := ⟨body.1, rule?_of_referenced hbody, hfirst⟩
      refine ⟨name, List.mem_singleton_self _, .head hstep hleads, ?_⟩
      rcases hcases with hmem | hcycle
      · -- the rule that is met again is the one that was put on the list, or it was there before
        rcases List.mem_cons.mp hmem with rfl | hmem
        · exact .inr (.head' hstep hleads)
        · exact .inl hmem
      · exact .inr hcycle

/-- **What succeeds has met no cycle.** -/
theorem not_circular {result : Except GrammarError α} (h : grammar.Follows visiting names result)
    {a : α} (ok : result = .ok a) : ¬ grammar.Circular names := by
  rintro ⟨first, hfirst, name, hleads, hcycle⟩
  have hname : Acc (Function.swap grammar.RefersTo) name := by
    clear hcycle
    induction hleads with
    | refl => exact h.grounded a ok first hfirst
    | tail _ step ih => exact ih.inv step
  have hacc := hname.transGen
  clear hname hleads
  induction hacc with
  | intro name _ ih => exact ih name (Relation.transGen_swap.mpr hcycle) hcycle

/-- **A rule that is refused within itself** leads to a cycle. -/
theorem circular {result : Except GrammarError α} {rule : String}
    (h : grammar.Follows [rule] names result) (refers : ∀ name ∈ names, grammar.RefersTo rule name)
    {faulty name : String}
    (refused : result = .error (.invalidToken faulty (.selfReference name))) :
    grammar.Circular names := by
  obtain ⟨first, hfirst, hleads, hcases⟩ := h.refused faulty name refused
  refine ⟨first, hfirst, name, hleads, ?_⟩
  rcases hcases with hmem | hcycle
  · obtain rfl := List.mem_singleton.mp hmem
    exact .head' (refers first hfirst) hleads
  · exact hcycle

end Follows

section
variable (grammar : Grammar)

mutual

/-- **Making a pattern follows the references.** -/
theorem follows_patternOf (rule : String) (visiting : List String) (expression : Expression) :
    grammar.Follows visiting expression.references
      (grammar.patternOf rule visiting expression) := by
  cases expression with
  | literal | blank | nested | delimited | quoted =>
    rw [patternOf]
    exact .nil nofun
  | pattern source =>
    rw [patternOf]
    refine .nil fun _ _ => ?_
    split <;> nofun
  | seq items =>
    rw [patternOf]
    exact (follows_patternsOf rule visiting items).andThen nofun
  | choice alternatives =>
    rw [patternOf]
    exact (follows_patternsOf rule visiting alternatives).andThen nofun
  | repetition _ inner =>
    rw [patternOf]
    exact (follows_patternOf rule visiting inner).andThen nofun
  | optional inner =>
    rw [patternOf]
    exact (follows_patternOf rule visiting inner).andThen nofun
  | token inner | precedence _ _ inner =>
    rw [patternOf]
    exact follows_patternOf rule visiting inner
  | reference name =>
    rw [patternOf]
    refine .reference fun body => ?_
    have hlt := body.2
    exact follows_patternOf name (name :: visiting) body.1
termination_by grammar.effort visiting (sizeOf expression)
decreasing_by
  all_goals first
    | exact effort_body_lt ‹_›
    | exact effort_lt (by simp only [Expression.seq.sizeOf_spec,
        Expression.choice.sizeOf_spec, Expression.repetition.sizeOf_spec,
        Expression.optional.sizeOf_spec, Expression.token.sizeOf_spec,
        Expression.precedence.sizeOf_spec]; omega)

theorem follows_patternsOf (rule : String) (visiting : List String)
    (expressions : List Expression) :
    grammar.Follows visiting (Expression.referencesOfAll expressions)
      (grammar.patternsOf rule visiting expressions) := by
  cases expressions with
  | nil =>
    rw [patternsOf]
    exact .nil nofun
  | cons first rest =>
    rw [patternsOf]
    exact (follows_patternOf rule visiting first).bind fun _ =>
      (follows_patternsOf rule visiting rest).andThen nofun
termination_by grammar.effort visiting (sizeOf expressions)
decreasing_by
  all_goals exact effort_lt (by simp only [List.cons.sizeOf_spec]; omega)

end

theorem checkDelimiters_ne (rule opening closing faulty name : String) :
    checkDelimiters rule opening closing ≠
      .error (.invalidToken faulty (.selfReference name)) := by
  unfold checkDelimiters
  split <;> nofun

mutual

/-- **Making a matcher follows the references.** -/
theorem follows_matcherOf (rule : String) (visiting : List String) (expression : Expression) :
    grammar.Follows visiting expression.references
      (grammar.matcherOf rule visiting expression) := by
  cases expression with
  | literal =>
    rw [matcherOf]
    exact .nil nofun
  | nested | delimited | quoted =>
    rw [matcherOf]
    exact (Follows.nil (checkDelimiters_ne rule _ _)).andThen nofun
  | choice alternatives =>
    rw [matcherOf]
    exact (follows_matchersOf rule visiting alternatives).andThen nofun
  | precedence _ _ inner =>
    rw [matcherOf]
    exact follows_matcherOf rule visiting inner
  | reference name =>
    rw [matcherOf]
    refine .reference fun body => ?_
    have hlt := body.2
    exact follows_matcherOf name (name :: visiting) body.1
  | pattern | seq | repetition | optional | blank | token =>
    rw [matcherOf]
    refine (grammar.follows_patternOf rule visiting _).andThen fun written _ _ => ?_
    split <;> nofun
termination_by grammar.effort visiting (sizeOf expression)
decreasing_by
  all_goals first
    | exact effort_body_lt ‹_›
    | exact effort_lt (by simp only [Expression.choice.sizeOf_spec,
        Expression.precedence.sizeOf_spec]; omega)

theorem follows_matchersOf (rule : String) (visiting : List String)
    (expressions : List Expression) :
    grammar.Follows visiting (Expression.referencesOfAll expressions)
      (grammar.matchersOf rule visiting expressions) := by
  cases expressions with
  | nil =>
    rw [matchersOf]
    exact .nil nofun
  | cons first rest =>
    rw [matchersOf]
    exact (follows_matcherOf rule visiting first).bind fun _ =>
      (follows_matchersOf rule visiting rest).andThen nofun
termination_by grammar.effort visiting (sizeOf expressions)
decreasing_by
  all_goals exact effort_lt (by simp only [List.cons.sizeOf_spec]; omega)

end

/-- **Expansion follows the references.** -/
theorem follows_outcome (query : Expansion.Query) :
    grammar.Follows query.visiting query.task.references (query.outcome grammar) := by
  obtain ⟨task, rule, visiting⟩ := query
  cases task with
  | pattern expression => exact (grammar.follows_patternOf rule visiting expression).map _
  | patterns expressions => exact (grammar.follows_patternsOf rule visiting expressions).map _
  | matcher expression => exact (grammar.follows_matcherOf rule visiting expression).map _
  | matchers expressions => exact (grammar.follows_matchersOf rule visiting expressions).map _

end

/-! ### Token rules and their expansion -/

/-- **Token rules are sorted out and expanded to the end**, in every grammar.

* The token rules are the least set of rules other than the start rule that is closed under the
  test.  Looking at the rules in place comes to an end too.  In whatever order the rules are
  declared, both give the same set.
* Making patterns and matchers, of any expression in any rule and whatever rules are being expanded,
  returns what the functions give and nothing else, with the list of these rules as it was, also
  where it fails.  Every call on the way is smaller than its caller.
* What stands in a rule is reported to refer to itself only if its references lead to a cycle, and
  what has references that do is never expanded. -/
theorem tokenRules_least_expansion_ends (grammar : Grammar) :
    grammar.LeastTokenRules grammar.tokenRules ∧
    (∃ settled, grammar.Sorts [] settled) ∧
    (∀ rules, rules.Perm grammar.rules →
      let reordered := { grammar with rules := rules }
      (∀ name, name ∈ reordered.tokenRules ↔ name ∈ grammar.tokenRules) ∧
      ∀ settled, reordered.Sorts [] settled →
        ∀ name, name ∈ settled ↔ name ∈ grammar.tokenRules) ∧
    (∀ query : Expansion.Query,
      let body := Expansion.activation grammar
      let reply : Expansion.Reply := ⟨query.outcome grammar, query.visiting⟩
      CallTree.Returns body (body query) reply ∧
      (∀ other, CallTree.Returns body (body query) other → other = reply) ∧
      ∀ callee, Expansion.Invokes grammar query callee →
        callee.measure grammar < query.measure grammar) ∧
    (∀ task rule, (∀ name ∈ task.references, grammar.RefersTo rule name) →
      ∀ faulty name, Expansion.Query.outcome grammar ⟨task, rule, [rule]⟩ =
        .error (.invalidToken faulty (.selfReference name)) → grammar.Circular task.references) ∧
    ∀ query : Expansion.Query, grammar.Circular query.task.references →
      ∀ product, query.outcome grammar ≠ .ok product := by
  have hleast := grammar.leastTokenRules_tokenRules
  refine ⟨hleast, grammar.exists_sorts [], fun rules perm => ?_, fun query => ?_,
    fun task rule refers faulty name refused => ?_, fun query circular product made => ?_⟩
  · have hreordered := { grammar with rules := rules }.leastTokenRules_tokenRules
    exact ⟨(hreordered.of_perm perm).mem_iff hleast, fun settled sorts =>
      ((sorts.leastTokenRules .nil).of_perm perm).mem_iff hleast⟩
  · obtain ⟨hreturns, hsmaller⟩ := Expansion.returns_outcome grammar query
    exact ⟨hreturns, fun other hother => hother.unique hreturns, hsmaller⟩
  · exact (grammar.follows_outcome ⟨task, rule, [rule]⟩).circular refers refused
  · exact (grammar.follows_outcome query).not_circular made circular

/-- A grammar with a word whose tail may be the word again. -/
def knot : Grammar :=
  { Grammar.empty "knot" with
    rules := [("text", .reference "word"), ("tail", .choice [.pattern "-", .reference "word"]),
      ("word", .token (.seq [.literal "w", .reference "tail"]))]
    start := some "text" }

/-- The word and its tail are token rules, which two rounds find, or one in place if the word comes
first.  Expanding the word comes back to it in the tail. -/
theorem tokenRules_least_expansion_ends_knot :
    let reordered := { knot with rules := knot.rules.reverse }
    let word := Expression.token (.seq [.literal "w", .reference "tail"])
    knot.rules.reverse.Perm knot.rules ∧ reordered.Sorts [] ["tail", "word"] ∧
      (∀ name, name ∈ ["tail", "word"] ↔ name ∈ knot.tokenRules) ∧
      (∀ name ∈ word.references, knot.RefersTo "word" name) ∧
      knot.terminalMatcher "word" word =
        .error (.invalidToken "tail" (.selfReference "word")) ∧
      knot.Circular word.references ∧
      ∀ product, Expansion.Query.outcome knot ⟨.matcher word, "word", ["word"]⟩ ≠ .ok product := by
  intro reordered word
  have hperm : knot.rules.reverse.Perm knot.rules := List.reverse_perm _
  have hsorts : reordered.Sorts [] ["tail", "word"] := .again rfl (.done rfl)
  have hrefers : ∀ name ∈ word.references, knot.RefersTo "word" name :=
    fun name hname => ⟨word, rfl, hname⟩
  have hfault : (knot.terminalMatcher "word" word).map (fun _ => ()) =
      .error (.invalidToken "tail" (.selfReference "word")) := by with_unfolding_all decide
  have hmatcher : knot.terminalMatcher "word" word =
      .error (.invalidToken "tail" (.selfReference "word")) := by
    cases hmade : knot.terminalMatcher "word" word with
    | ok matcher =>
      rw [hmade] at hfault
      cases hfault
    | error fault =>
      rw [hmade] at hfault
      exact congrArg Except.error (Except.error.inj hfault)
  have hrefused : Expansion.Query.outcome knot ⟨.matcher word, "word", ["word"]⟩ =
      .error (.invalidToken "tail" (.selfReference "word")) := congrArg (Except.map _) hmatcher
  obtain ⟨-, -, horder, -, honly, hnever⟩ := tokenRules_least_expansion_ends knot
  have hcircular := honly (.matcher word) "word" hrefers "tail" "word" hrefused
  exact ⟨hperm, hsorts, (horder _ hperm).2 _ hsorts, hrefers, hmatcher, hcircular,
    hnever ⟨.matcher word, "word", ["word"]⟩ hcircular⟩

end Grammar

end Syntagm

