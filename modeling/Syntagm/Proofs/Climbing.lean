import Syntagm.Proofs.Derivation
import Syntagm.Proofs.Growth
import Syntagm.Proofs.Pruning

/-!
# Precedence climbing

An alternative of a left-recursive rule that begins with the rule is an operator: its tail makes a
match of the rule longer.  If the alternative ends in a reference to the rule, too, then its tail
calls the rule for the operand at the end.  The bound of this call is the level of the operator, or
the level above if the operator groups to the left.

So two loops meet where the operand stops.  The inner one, which makes the operand grow, stops there
because none of the tails of its bound and above matches some input.  The outer one then tries tails
at the same place, and what a tail matches there does not depend on the loop that tries it.  Hence
it applies only tails below the bound of the operand (`LeftRecursiveRule.operatorNests`).  This is
why operators of one level nest to one side, and why an operand has no operator that is looser than
the one it belongs to (`Nests`).

**Memory.**  The operand may be remembered, from a call at its place with its bound.  How it grew is
a matter of this place and this bound (`Grown.unique`), so it does not matter who made it.
-/

namespace Syntagm

variable {grammar : Grammar} {compiled : CompiledGrammar} {tokens : Array StreamToken}

/-! ### Operands at the end -/

namespace Goal.Matches

variable {op position : Nat} {found : Match}

/-- What a match of an operation is made of. -/
theorem of_view (h : (Goal.op op).Matches compiled tokens position found) :
    match compiled.program.view op with
    | .seq items => (Goal.all items).Matches compiled tokens position found
    | .choice alternatives =>
      (Goal.first (Engine.kindAt tokens position) alternatives).Matches compiled tokens position
        found
    | .call rule bound => (Goal.call rule bound).Matches compiled tokens position found
    | _ => True := by
  obtain ⟨seen, heval, huncut⟩ := h
  cases heval with
  | seq view all =>
    rw [view]
    exact ⟨seen, all, huncut⟩
  | choice view first =>
    rw [view]
    exact ⟨_, first, ((Observation.followedBy_overflow_eq_none ..).mp huncut).2⟩
  | callOp view call =>
    rw [view]
    exact ⟨seen, call, huncut⟩
  | token view | repetition view | optional view | blank view =>
    rw [view]
    trivial

/-- What matches is viewed as what it is. -/
theorem view (h : (Goal.op op).Matches compiled tokens position found) {what : Op Nat}
    (is : compiled.program.ops[op]? = some what) :
    (compiled.program.view op).withoutLimit = what := by
  refine (Program.view_of_getElem? is).resolve_right fun hview => ?_
  have hnothing := h.of_view
  rw [hview] at hnothing
  obtain ⟨_, heval, -⟩ := hnothing
  cases heval

/-- The last one of several items. -/
theorem all_concat {limit : Nat} {items : List (Fin limit)} {last : Fin limit}
    (h : (Goal.all (items ++ [last])).Matches compiled tokens position found) :
    ∃ front operand, (Goal.all items).Matches compiled tokens position front ∧
      (Goal.op last).Matches compiled tokens front.stop operand ∧ found = front ++ operand := by
  induction items generalizing position found with
  | nil =>
    obtain ⟨seen, heval, huncut⟩ := h
    generalize hresult : some found = result at heval
    cases heval with
    | allFail => cases hresult
    | @allCons _ _ _ _ operand _ rest _ head others =>
      obtain ⟨hhead, -⟩ := (Observation.followedBy_overflow_eq_none ..).mp huncut
      -- the last item is in front of nothing
      cases others
      rw [Option.map_some, Match.append_blank] at hresult
      obtain rfl := Option.some.inj hresult
      exact ⟨.blank position, found, ⟨_, .allNil, rfl⟩, ⟨_, head, hhead⟩, rfl⟩
  | cons item items ih =>
    obtain ⟨seen, heval, huncut⟩ := h
    generalize hresult : some found = result at heval
    cases heval with
    | allFail => cases hresult
    | @allCons _ _ _ _ first _ rest _ head others =>
      obtain ⟨hhead, hothers⟩ := (Observation.followedBy_overflow_eq_none ..).mp huncut
      obtain ⟨whole, rfl, rfl⟩ := Option.map_eq_some_iff.mp hresult.symm
      obtain ⟨front, operand, ⟨_, hfront, huncut'⟩, hoperand, rfl⟩ := ih ⟨_, others, hothers⟩
      refine ⟨first ++ front, operand, ⟨_, .allCons head hfront, ?_⟩, hoperand, ?_⟩
      · exact (Observation.followedBy_overflow_eq_none ..).mpr ⟨hhead, huncut'⟩
      · exact (Match.append_assoc ..).symm

end Goal.Matches

/-- **The operand at the end of a match**: the operation ends in a call, which began at `start` and
matched `operand`. -/
inductive TrailingOperand (compiled : CompiledGrammar) (tokens : Array StreamToken) (rule : Nat)
    (bound : Int) (op position : Nat) : Match → Nat → Match → Prop where
  | call {operand} (view : compiled.program.view op = .call rule bound)
      (call : (Goal.call rule bound).Matches compiled tokens position operand) :
      TrailingOperand compiled tokens rule bound op position operand position operand
  | seq {items} {last : Fin op} {front operand}
      (view : compiled.program.view op = .seq (items ++ [last]))
      (before : (Goal.all items).Matches compiled tokens position front)
      (viewLast : compiled.program.view last = .call rule bound)
      (call : (Goal.call rule bound).Matches compiled tokens front.stop operand) :
      TrailingOperand compiled tokens rule bound op position (front ++ operand) front.stop operand

theorem Op.eq_call_of_withoutLimit {limit : Nat} {op : Op (Fin limit)} {rule : Nat} {bound : Int}
    (h : op.withoutLimit = .call rule bound) : op = .call rule bound := by
  cases op <;> cases h
  rfl

theorem Op.eq_seq_of_withoutLimit {limit : Nat} {op : Op (Fin limit)} {parts : List Nat}
    (h : op.withoutLimit = .seq parts) : ∃ items, op = .seq items ∧ items.map (·.val) = parts := by
  cases op <;> cases h
  exact ⟨_, rfl, rfl⟩

theorem Op.eq_choice_of_withoutLimit {limit : Nat} {op : Op (Fin limit)} {parts : List Nat}
    (h : op.withoutLimit = .choice parts) :
    ∃ items, op = .choice items ∧ items.map (·.val) = parts := by
  cases op <;> cases h
  exact ⟨_, rfl, rfl⟩

section Operands
variable {op position number : Nat} {bound : Int} {found operand : Match} {start : Nat}

/-- A match of a call is the match of a call. -/
theorem Goal.Matches.of_call (h : (Goal.op op).Matches compiled tokens position found)
    (is : compiled.program.ops[op]? = some (.call number bound)) :
    compiled.program.view op = .call number bound ∧
      (Goal.call number bound).Matches compiled tokens position found := by
  have hview := Op.eq_call_of_withoutLimit (h.view is)
  have hcall := h.of_view
  rw [hview] at hcall
  exact ⟨hview, hcall⟩

/-- **A match of an operation that ends in a call has an operand at its end.** -/
theorem Goal.Matches.exists_operand (h : (Goal.op op).Matches compiled tokens position found)
    (ends : EndsInCall compiled.program.ops number bound op) :
    ∃ start operand,
      TrailingOperand compiled tokens number bound op position found start operand := by
  cases ends with
  | call is =>
    obtain ⟨hview, hcall⟩ := h.of_call is
    exact ⟨position, found, .call hview hcall⟩
  | seq is isLast =>
    obtain ⟨items, hview, hitems⟩ := Op.eq_seq_of_withoutLimit (h.view is)
    have hall := h.of_view
    rw [hview] at hall
    obtain ⟨before, final, rfl, rfl, hfinal⟩ := List.map_eq_append_iff.mp hitems
    obtain ⟨item, rfl, rfl⟩ := List.map_eq_singleton_iff.mp hfinal
    obtain ⟨first, operand, hbefore, hlast, rfl⟩ := hall.all_concat
    obtain ⟨hviewLast, hcall⟩ := hlast.of_call isLast
    exact ⟨first.stop, operand, .seq hview hbefore hviewLast hcall⟩

namespace TrailingOperand

/-- The operand stops where the whole match does. -/
theorem stop_eq
    (h : TrailingOperand compiled tokens number bound op position found start operand) :
    operand.stop = found.stop := by
  cases h <;> rfl

theorem matches_call
    (h : TrailingOperand compiled tokens number bound op position found start operand) :
    (Goal.call number bound).Matches compiled tokens start operand := by
  cases h with
  | call _ call => exact call
  | seq _ _ _ call => exact call

end TrailingOperand

/-- A match of a choice is the match of one of its alternatives. -/
theorem Goal.Matches.exists_of_first {current : Kind} {limit : Nat} {items : List (Fin limit)}
    (h : (Goal.first current items).Matches compiled tokens position found) :
    ∃ item ∈ items, (Goal.op item).Matches compiled tokens position found := by
  obtain ⟨seen, heval, huncut⟩ := h
  induction items generalizing seen with
  | nil => cases heval
  | cons item items ih =>
    cases heval with
    | firstPruned _ others =>
      obtain ⟨other, hmem, hother⟩ := ih _ others
        ((Observation.followedBy_overflow_eq_none ..).mp huncut).2
      exact ⟨other, List.mem_cons_of_mem _ hmem, hother⟩
    | firstFound _ head => exact ⟨item, List.mem_cons_self, seen, head, huncut⟩
    | firstNext _ _ others =>
      obtain ⟨other, hmem, hother⟩ := ih _ others
        ((Observation.followedBy_overflow_eq_none ..).mp huncut).2
      exact ⟨other, List.mem_cons_of_mem _ hmem, hother⟩

/-- A match of an operation that takes one of several others is a match of one of these. -/
theorem Goal.Matches.exists_of_offers {parts : List Nat}
    (h : (Goal.op op).Matches compiled tokens position found)
    (offers : Offers compiled.program.ops op parts) :
    ∃ part ∈ parts, (Goal.op part).Matches compiled tokens position found := by
  cases offers with
  | single => exact ⟨op, List.mem_singleton_self op, h⟩
  | choice is =>
    obtain ⟨items, hview, rfl⟩ := Op.eq_choice_of_withoutLimit (h.view is)
    have hfirst := h.of_view
    rw [hview] at hfirst
    obtain ⟨item, hmem, hitem⟩ := hfirst.exists_of_first
    exact ⟨item, List.mem_map_of_mem hmem, hitem⟩

end Operands

/-! ### Operators and their operands -/

/-- The bound for the operand at the end of an operator of this level. -/
def Associativity.trailingBound (associativity : Associativity) (level : Int) : Int :=
  Alternative.trailingBound ⟨.blank, level, associativity⟩

/-- **An operator and the operand at its end.**  The operand was grown by the tails of `inner`, and
`next` is the tail that is applied behind the operator, if there is one. -/
structure Nests (level : Int) (associativity : Associativity) (inner : List Growth)
    (next : Option Growth) : Prop where
  bounded : ∀ growth ∈ inner, associativity.trailingBound level ≤ growth.tail.level
  leaves : ∀ growth ∈ next, growth.tail.level < associativity.trailingBound level
  /-- Operators of a level that groups to the left nest to the left. -/
  toLeft : associativity = .left → level < greatestLevel →
    ∀ growth ∈ inner, level < growth.tail.level
  /-- Operators of the other levels nest to the right. -/
  toRight : associativity ≠ .left → ∀ growth ∈ next, growth.tail.level < level
  /-- No operator in the operand is looser than the one that it is an operand of. -/
  notLooser : level ≤ greatestLevel → ∀ growth ∈ inner, level ≤ growth.tail.level

/-- How operators nest is a matter of the bound. -/
theorem Nests.of_bound {level : Int} {associativity : Associativity} {inner : List Growth}
    {next : Option Growth}
    (bounded : ∀ growth ∈ inner, associativity.trailingBound level ≤ growth.tail.level)
    (leaves : ∀ growth ∈ next, growth.tail.level < associativity.trailingBound level) :
    Nests level associativity inner next := by
  refine ⟨bounded, leaves, fun hleft hlevel growth hmem => ?_, fun hright growth hmem => ?_,
    fun hlevel growth hmem => ?_⟩
  · subst hleft
    have hle : min greatestLevel (level + 1) ≤ growth.tail.level := bounded growth hmem
    omega
  · have hlt := leaves growth hmem
    cases associativity with
    | left => contradiction
    | right | none => exact hlt
  · have hle := bounded growth hmem
    cases associativity with
    | left =>
      have hle : min greatestLevel (level + 1) ≤ growth.tail.level := hle
      omega
    | right | none => exact hle

/-- **A left-recursive rule** of a compiled grammar. -/
structure LeftRecursiveRule (compiled : CompiledGrammar) where
  number : Nat
  definition : Rule
  base : Nat
  tails : List Tail
  lookup : compiled.program.rules[number]? = some definition
  body : definition.body = .leftRecursive base tails

namespace LeftRecursiveRule

variable (rule : LeftRecursiveRule compiled)

/-- What is known where the rule is lowered. -/
def scope (grammar : Grammar) : LoweringScope :=
  ⟨compiled.lexicon, grammar.ruleNames, rule.number, rule.definition.name⟩

/-- **What the rule is made of**: each tail of an alternative that begins with the rule, the base of
the others.  A reference to the rule at the end of an alternative is a call with its bound. -/
structure Lowered (grammar : Grammar) (declared : Expression) : Prop where
  declares : (Program.syntacticRules grammar grammar.tokenRules)[rule.number]? =
    some (rule.definition.name, declared)
  tails : List.Forall₂ ((rule.scope grammar).TailOf compiled.program.ops) rule.tails
    ((declared.alternatives 0 .none).filter (·.isTail rule.definition.name))
  bases : ∃ parts, Offers compiled.program.ops rule.base parts ∧
    List.Forall₂ ((rule.scope grammar).Trails compiled.program.ops) parts
      ((declared.alternatives 0 .none).filter (!·.isTail rule.definition.name))

theorem lowered {declared : Expression}
    (declares : compiled.Declares grammar rule.number rule.definition declared) :
    rule.Lowered grammar declared := by
  have himplements := declares.body
  rw [rule.body] at himplements
  cases himplements with
  | leftRecursive _ tails bases => exact ⟨declares.declared, tails, bases⟩

/-- **How the operand at the end of a match grew.**  It is the match of a call of the rule with a
bound. -/
def OperandGrown (tokens : Array StreamToken) (bound : Int) (op position : Nat) (found : Match)
    (inner : List Growth) : Prop :=
  ∃ start first,
    TrailingOperand compiled tokens rule.number bound op position found start
        (Engine.closedMatch rule.definition (inner.foldl (Engine.grownBy rule.definition) first)) ∧
      Grown compiled tokens rule.base rule.tails bound start first inner

/-- **A match of an operator nests as precedence asks**: if the operator ends in a call of the rule
with the bound of its level, there is an operand at the end, and it nests with this one. -/
def OperatorNests (tokens : Array StreamToken) (level : Int) (associativity : Associativity)
    (op position : Nat) (found : Match) (next : Option Growth) : Prop :=
  EndsInCall compiled.program.ops rule.number (associativity.trailingBound level) op →
    ∃ inner,
      rule.OperandGrown tokens (associativity.trailingBound level) op position found inner ∧
        Nests level associativity inner next

/-- **Climbing**: the match of the base is made longer by tails of the level of the bound and above,
one after the other.  What tails match nests as precedence asks, and so does what the base matches,
which may be an operator in front of its operand. -/
structure Climbs (tokens : Array StreamToken) (bound : Int) (position : Nat) (first : Match)
    (growths : List Growth) : Prop where
  grown : Grown compiled tokens rule.base rule.tails bound position first growths
  levels : ∀ growth ∈ growths, growth.tail ∈ rule.tails ∧ bound ≤ growth.tail.level
  nests : ∀ front growth back, growths = front ++ growth :: back →
    rule.OperatorNests tokens growth.tail.level growth.tail.associativity growth.tail.op
      growth.start growth.found back.head?
  base : ∀ parts, Offers compiled.program.ops rule.base parts →
    ∃ part ∈ parts, (Goal.op part).Matches compiled tokens position first ∧
      ∀ level associativity,
        rule.OperatorNests tokens level associativity part position first growths.head?

variable {rule} {bound : Int} {op position : Nat} {found : Match}

/-- A match of a call of the rule grew. -/
theorem exists_grown (h : (Goal.call rule.number bound).Matches compiled tokens position found) :
    ∃ first growths, Grown compiled tokens rule.base rule.tails bound position first growths ∧
      found = Engine.closedMatch rule.definition
        (growths.foldl (Engine.grownBy rule.definition) first) := by
  obtain ⟨seen, heval, huncut⟩ := h
  generalize hresult : some found = result at heval
  cases heval with
  | noRule => cases hresult
  | tooDeep => cases hresult
  | call lookup inside =>
    obtain rfl := Option.some.inj (rule.lookup.symm.trans lookup)
    obtain ⟨whole, rfl, rfl⟩ := Option.map_eq_some_iff.mp hresult.symm
    -- only rules that are not left-recursive are called with another bound
    have hbound : Engine.effectiveBound rule.definition bound = bound :=
      if_pos (by rw [Rule.isLeftRecursive, rule.body])
    rw [hbound] at inside
    obtain ⟨first, growths, hgrown, rfl⟩ :=
      Goal.Matches.exists_grown ⟨seen, inside, huncut⟩ rule.body
    exact ⟨first, growths, hgrown, rfl⟩

/-- **The loop that grows the operand leaves to the outer loop what is below its bound.**  Both try
tails at the place where the operand stops.  The inner one tried all tails of its bound and above
there, and none matched some input, so the outer one cannot apply one of these. -/
theorem operatorNests {outer level : Int} {associativity : Associativity} {back : List Growth}
    (matched : (Goal.op op).Matches compiled tokens position found)
    (others : Grows compiled tokens (rule.tails.filter (outer ≤ ·.level)) found.stop back) :
    rule.OperatorNests tokens level associativity op position found back.head? := by
  intro hends
  obtain ⟨start, operand, hoperand⟩ := matched.exists_operand hends
  obtain ⟨first, inner, hgrown, rfl⟩ := exists_grown hoperand.matches_call
  refine ⟨inner, ⟨start, first, hoperand, hgrown⟩,
    .of_bound (fun growth hmem => (hgrown.le_level growth hmem).2) fun growth hhead => ?_⟩
  cases others with
  | done => cases hhead
  | more takes _ =>
    obtain rfl := Option.some.inj hhead
    obtain ⟨hmem, hmatches, hmoved⟩ := takes.spec
    -- else the tail would be one that the inner loop tried last, at the same place
    by_contra hlevel
    have hstop : (inner.foldl (Engine.grownBy rule.definition) first).stop = found.stop :=
      hoperand.stop_eq
    have hfails := hgrown.grows.fails_end rule.definition
    rw [hstop] at hfails
    refine hmoved (stop_eq_of_fails hfails (List.mem_filter.mpr ⟨?_, ?_⟩) hmatches)
    · exact (List.mem_filter.mp hmem).1
    · exact decide_eq_true (Int.not_lt.mp hlevel)

/-- Every match that grew is made by climbing. -/
theorem climbs {first : Match} {growths : List Growth}
    (grown : Grown compiled tokens rule.base rule.tails bound position first growths) :
    rule.Climbs tokens bound position first growths := by
  refine ⟨grown, grown.le_level, ?_, fun parts hoffers => ?_⟩
  · rintro front growth back rfl
    obtain ⟨htakes, hothers⟩ := grown.grows.split
    exact operatorNests htakes.spec.2.1 hothers
  · obtain ⟨part, hpart, hmatches⟩ := grown.entry.exists_of_offers hoffers
    exact ⟨part, hpart, hmatches, fun _ _ => operatorNests hmatches grown.grows⟩

end LeftRecursiveRule

/-- **Precedence climbing is correct.**  Where the engine matches the body of a left-recursive rule
and no call goes too deep, the match is that of the base with the tails applied that the loop
applies.  These are of the level of the bound and above, and they nest with their operands as
precedence asks. -/
theorem Engine.climbs_matchBody (done : grammar.compile = .ok compiled)
    (rule : LeftRecursiveRule compiled) (bound : Int) (memoize : Bool) (depth : Nat)
    (frames : List Nat) (position : Nat) {memo : Memo} (valid : memo.Valid compiled tokens)
    {found : Match} :
    let ops := evaluate compiled tokens (callRule compiled tokens memoize depth frames)
    let reply := matchBody ops tokens.size rule.definition bound position memo
    let applied := growths ops tokens.size rule.definition bound position memo
    reply.result = some found → reply.seen.overflow = none →
      (∃ declared, rule.Lowered grammar declared) ∧
        ∃ first, found = applied.foldl (grownBy rule.definition) first ∧
          rule.Climbs tokens bound position first applied := by
  intro ops reply applied success uncut
  obtain ⟨declared, hdeclares⟩ := (Grammar.realizes_compile done).declares rule.lookup
  obtain ⟨first, hgrown, hfound⟩ := grown_matchBody
    (sound_evaluate fun number bound => sound_callRule memoize depth frames number bound) rule.body
    valid success uncut
  exact ⟨⟨declared, rule.lowered hdeclares⟩, first, hfound, LeftRecursiveRule.climbs hgrown⟩

/-! ### Operators of three levels -/

/-- The grammar of sums that group to the left, powers that group to the right, and signs that bind
most tightly. -/
def Grammar.operators : Grammar :=
  { Grammar.empty "operators" with
    rules := [
      ("e", .choice [
        .precedence 1 .left (.seq [.reference "e", .literal "+", .reference "e"]),
        .precedence 2 .right (.seq [.reference "e", .literal "^", .reference "e"]),
        .precedence 3 .none (.seq [.literal "-", .reference "e"]),
        .literal "n"])]
    start := some "e" }

/-- What it is compiled to. -/
def CompiledGrammar.operators : CompiledGrammar := Grammar.operators.compile.toOption.getD default

theorem Grammar.compile_operators : Grammar.operators.compile = .ok CompiledGrammar.operators :=
  Grammar.compile_eq_getD (by with_unfolding_all decide)

/-- Its rule. -/
def LeftRecursiveRule.operators : LeftRecursiveRule .operators where
  number := 0
  definition := ⟨"e", ⟨9⟩, false, .leftRecursive 10 [⟨1, .left, 2⟩, ⟨2, .right, 5⟩]⟩
  base := 10
  tails := [⟨1, .left, 2⟩, ⟨2, .right, 5⟩]
  lookup := by with_unfolding_all decide
  body := rfl

theorem LeftRecursiveRule.endsInCall_operators :
    ∀ tail ∈ operators.tails, EndsInCall CompiledGrammar.operators.program.ops operators.number
      (tail.associativity.trailingBound tail.level) tail.op := by
  intro tail hmem
  rcases List.mem_pair.mp hmem with rfl | rfl
  · exact EndsInCall.seq (show CompiledGrammar.operators.program.ops[2]? = some (.seq ([0] ++ [1]))
      by with_unfolding_all decide) (by with_unfolding_all decide)
  · exact EndsInCall.seq (show CompiledGrammar.operators.program.ops[5]? = some (.seq ([3] ++ [4]))
      by with_unfolding_all decide) (by with_unfolding_all decide)

/-- The text `-n+n^n+n`: the engine matches all of it, and each tail that is applied nests with its
operand. -/
theorem Engine.climbs_matchBody_operators :
    let rule := LeftRecursiveRule.operators
    let tokens := CompiledGrammar.operators.streamOf ['-', 'n', '+', 'n', '^', 'n', '+', 'n']
    let ops := evaluate .operators tokens (callRule .operators tokens false 8 [])
    let reply := matchBody ops tokens.size rule.definition leastLevel 0 ∅
    let applied := growths ops tokens.size rule.definition leastLevel 0 ∅
    reply.result.map (·.stop) = some 8 ∧ reply.seen.overflow = none ∧
      ∀ front growth back, applied = front ++ growth :: back → ∃ inner,
        rule.OperandGrown tokens (growth.tail.associativity.trailingBound growth.tail.level)
            growth.tail.op growth.start growth.found inner ∧
          Nests growth.tail.level growth.tail.associativity inner back.head? := by
  intro rule tokens ops reply applied
  obtain ⟨hresult, hseen⟩ := matchBody_afresh 8 [] rule.definition leastLevel 0 Memo.blank_empty
  have hstop : reply.result.map (·.stop) = some 8 := by
    rw [← hresult]
    with_unfolding_all decide
  have huncut : reply.seen.overflow = none := by
    rw [← hseen]
    with_unfolding_all decide
  obtain ⟨found, hfound, -⟩ := Option.map_eq_some_iff.mp hstop
  obtain ⟨-, first, -, hclimbs⟩ := climbs_matchBody Grammar.compile_operators rule leastLevel false
    8 [] 0 Memo.valid_empty hfound huncut
  refine ⟨hstop, huncut, fun front growth back hsplit => ?_⟩
  have hmem : growth ∈ applied := hsplit ▸ by simp
  exact hclimbs.nests front growth back hsplit
    (LeftRecursiveRule.endsInCall_operators _ (hclimbs.levels growth hmem).1)

end Syntagm
