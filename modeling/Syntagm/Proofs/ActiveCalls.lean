import Mathlib.Data.List.Nodup
import Mathlib.Data.List.ProdSigma
import Syntagm.Proofs.Comparison
import Syntagm.Proofs.LeftCorner
import Syntagm.Proofs.MemoValidity
import Syntagm.Proofs.Pruning

/-!
# No call inside itself

A call that is made inside another one starts farther on, or at the same position; then the rule is
in the left corner of the other one (`Calls.located`), as far as bases take input.  Left corners of
a compiled grammar are well founded, so a rule is never called where it is active already, and
there are never more active calls than rules and positions (`Nested`).

**Watching the engine.**  What the engine does on the way cannot be read off what it gives.  So
there is an engine that looks at the active calls before it goes into another one, and answers
with something else if it is alarmed (`Engine.callWatched`).  That it gives what the engine gives,
whatever it would answer, says that it is never alarmed: what it would remember then would still be
there in the end.
-/

namespace Syntagm

open Program (Corner)

/-! ### Where calls start -/

/-- The rules that a goal can call at its own position, by the analysis.  For tails there is
nothing to say, as they come behind a base. -/
def Goal.LeftCalls (program : Program) (analysis : Analysis) (rule : Nat) : Goal → Prop
  | .op number => rule ∈ program.leftCalls analysis number
  | @all limit items =>
    let crossed := items.takeWhile fun item : Fin limit => analysis.isNullable item
    rule ∈ (items.take (crossed.length + 1)).flatMap fun item : Fin limit =>
      program.leftCalls analysis item
  | .first _ alternatives =>
    ∃ alternative ∈ alternatives, rule ∈ program.leftCalls analysis alternative
  | .many _ inner => rule ∈ program.leftCalls analysis inner
  | .body whole _ => rule ∈ program.leftCalls analysis whole.entry
  | .tail _ | .grow .. | .call .. => True

section Places
variable {compiled : CompiledGrammar} {analysis : Analysis} {tokens : Array StreamToken}
  {goal : Goal} {position rule place : Nat} {bound : Int}

/-- **A call starts farther on, or it is one at the left.** -/
theorem Calls.located (closed : compiled.program.Closed analysis)
    (h : Calls compiled tokens goal position rule bound place) (own : goal.Consumes analysis) :
    position ≤ place ∧ (place = position → goal.LeftCalls compiled.program analysis rule) := by
  induction h with
  | seq view _ ih =>
    refine ⟨(ih trivial).1, fun still => ?_⟩
    rw [Goal.LeftCalls, Program.leftCalls, view]
    exact (ih trivial).2 still
  | choice view _ ih =>
    refine ⟨(ih trivial).1, fun still => ?_⟩
    rw [Goal.LeftCalls, Program.leftCalls, view]
    exact List.mem_flatMap.mpr ((ih trivial).2 still)
  | repetition view _ ih | optional view _ ih =>
    refine ⟨(ih trivial).1, fun still => ?_⟩
    rw [Goal.LeftCalls, Program.leftCalls, view]
    exact (ih trivial).2 still
  | call view =>
    refine ⟨Nat.le_refl _, fun _ => ?_⟩
    rw [Goal.LeftCalls, Program.leftCalls, view]
    exact List.mem_singleton_self _
  | allHead _ ih =>
    refine ⟨(ih trivial).1, fun still => ?_⟩
    exact List.mem_flatMap.mpr ⟨_, List.mem_cons_self, (ih trivial).2 still⟩
  | @allRest _ item items position found _ _ _ place head _ ih =>
    have hhead := head.confined.le_stop found rfl
    have hrest := ih trivial
    refine ⟨Nat.le_trans hhead hrest.1, fun still => ?_⟩
    -- the item in front matches nothing, so it counts as crossed
    have hstill : found.stop = position := by omega
    have hnullable : analysis.isNullable item = true := head.nullable closed found rfl hstill
    have hcall := hrest.2 (by omega)
    simp only [Goal.LeftCalls, List.takeWhile_cons, hnullable, if_true, List.length_cons,
      List.take_succ_cons, List.flatMap_cons, List.mem_append] at hcall ⊢
    exact .inr hcall
  | first mem _ ih => exact ⟨(ih trivial).1, fun still => ⟨_, mem, (ih trivial).2 still⟩⟩
  | manyRound _ ih => exact ih trivial
  | manyRest _ moved _ ih =>
    have hrest := (ih trivial).1
    exact ⟨by omega, fun still => absurd still (by omega)⟩
  | tail _ _ ih => exact ⟨(ih trivial).1, fun _ => trivial⟩
  | growTail _ ih => exact ⟨(ih trivial).1, fun _ => trivial⟩
  | growRest tail _ ih =>
    exact ⟨Nat.le_trans (tail.confined.le_stop _ rfl) (ih trivial).1, fun _ => trivial⟩
  | plain body _ ih =>
    rw [Goal.LeftCalls, RuleBody.plain_entry body]
    exact ih trivial
  | base body _ ih =>
    rw [Goal.LeftCalls, RuleBody.leftRecursive_entry body]
    exact ih trivial
  | @tails whole base _ _ position found _ _ _ _ body entry _ ih =>
    have hentry := entry.confined.le_stop found rfl
    have hrest := (ih trivial).1
    -- the base takes input, so its tails start farther on
    have hmoved : found.stop ≠ position := fun still => by
      have hnullable : analysis.isNullable base = true := entry.nullable closed found rfl still
      rw [← RuleBody.leftRecursive_entry body, own (by rw [Rule.isLeftRecursive, body])]
        at hnullable
      cases hnullable
    exact ⟨by omega, fun still => absurd still (by omega)⟩

/-- The number of positions at which something can be matched: behind all tokens that are not the
end of the input. -/
def placesOf (tokens : Array StreamToken) : Nat :=
  if tokens.back?.any (·.kind = Kind.endOfInput) then tokens.size else tokens.size + 1

theorem placesOf_pos (tokens : Array StreamToken) : 0 < placesOf tokens := by
  unfold placesOf
  split
  · rename_i hlast
    refine Nat.pos_of_ne_zero fun hsize => ?_
    simp [Array.eq_empty_of_size_eq_zero hsize] at hlast
  · exact Nat.succ_pos _

variable {grammar : Grammar} (realizes : compiled.Realizes grammar)
include realizes

theorem Evaluates.lt_placesOf {result : Option Match} {seen : Observation}
    (h : Evaluates compiled tokens goal position result seen) {found : Match}
    (hfound : result = some found) (lt : position < placesOf tokens) :
    found.stop < placesOf tokens := by
  unfold placesOf at lt ⊢
  split at lt
  · rename_i hlast
    obtain ⟨last, hback, hkind⟩ := Option.any_eq_true _ _ |>.mp hlast
    rw [if_pos hlast]
    exact (h.inside ⟨last, hback, of_decide_eq_true hkind⟩ realizes lt).stop found hfound
  · rename_i hlast
    rw [if_neg hlast]
    have hstop := h.confined.le_stop found hfound
    have hread := h.confined.read found hfound
    omega

theorem Calls.lt_placesOf (h : Calls compiled tokens goal position rule bound place)
    (lt : position < placesOf tokens) : place < placesOf tokens := by
  induction h with
  | seq _ _ ih | choice _ _ ih | repetition _ _ ih | optional _ _ ih | allHead _ ih
  | first _ _ ih | manyRound _ ih | tail _ _ ih | growTail _ ih | plain _ _ ih | base _ _ ih =>
    exact ih lt
  | call => exact lt
  | allRest before _ ih | manyRest before _ _ ih | growRest before _ ih | tails _ before _ ih =>
    exact ih (before.lt_placesOf realizes rfl lt)

end Places

/-! ### Active calls -/

/-- A rule and the position at which it was called. -/
structure Frame where
  rule : Nat
  position : Nat
  deriving DecidableEq, Repr

/-- A call inside another one: farther on, or in its left corner. -/
def Frame.Inside (corners : Array (List Nat)) (inner outer : Frame) : Prop :=
  outer.position < inner.position ∨
    inner.position = outer.position ∧ Relation.TransGen (Corner corners) inner.rule outer.rule

theorem Frame.Inside.trans {corners : Array (List Nat)} {inner middle outer : Frame}
    (h : inner.Inside corners middle) (h' : middle.Inside corners outer) :
    inner.Inside corners outer := by
  rcases h with hlt | ⟨heq, hcorner⟩
  · rcases h' with hlt' | ⟨heq', -⟩
    · exact .inl (Nat.lt_trans hlt' hlt)
    · exact .inl (heq' ▸ hlt)
  · rcases h' with hlt' | ⟨heq', hcorner'⟩
    · exact .inl (heq.symm ▸ hlt')
    · exact .inr ⟨heq.trans heq', hcorner.trans hcorner'⟩

/-- **Calls that can be active at the same time**, the innermost first. -/
structure Nested (compiled : CompiledGrammar) (tokens : Array StreamToken)
    (stack : List Frame) : Prop where
  ordered : stack.Pairwise
    (Frame.Inside (compiled.program.leftCorners compiled.analysis))
  below : ∀ frame ∈ stack, frame.rule < compiled.program.rules.size ∧
    frame.position < placesOf tokens

namespace Nested

variable {compiled : CompiledGrammar} {tokens : Array StreamToken} {stack : List Frame}

theorem single {rule : Nat} (lt : rule < compiled.program.rules.size) :
    Nested compiled tokens [⟨rule, 0⟩] where
  ordered := List.pairwise_singleton ..
  below := List.forall_mem_singleton.mpr ⟨lt, placesOf_pos tokens⟩

theorem push {inner outer : Frame} (h : Nested compiled tokens (outer :: stack))
    (inside : inner.Inside (compiled.program.leftCorners compiled.analysis) outer)
    (rule : inner.rule < compiled.program.rules.size) (place : inner.position < placesOf tokens) :
    Nested compiled tokens (inner :: outer :: stack) where
  ordered := by
    refine List.pairwise_cons.mpr ⟨List.forall_mem_cons.mpr ⟨inside, fun frame hmem => ?_⟩,
      h.ordered⟩
    exact inside.trans ((List.pairwise_cons.mp h.ordered).1 frame hmem)
  below := List.forall_mem_cons.mpr ⟨⟨rule, place⟩, h.below⟩

variable (h : Nested compiled tokens stack)
include h

/-- **No call is active twice.** -/
theorem nodup
    (wellFounded : WellFounded (Corner (compiled.program.leftCorners compiled.analysis))) :
    stack.Nodup := by
  refine h.ordered.imp fun {inner outer} hinside heq => ?_
  subst heq
  rcases hinside with hlt | ⟨-, hcycle⟩
  · exact Nat.lt_irrefl _ hlt
  · exact wellFounded.transGen.asymmetric _ _ hcycle hcycle

/-- **At most every rule is active at every position.** -/
theorem length_le
    (wellFounded : WellFounded (Corner (compiled.program.leftCorners compiled.analysis))) :
    stack.length ≤ compiled.program.rules.size * placesOf tokens := by
  have hpairs : (stack.map fun frame => (frame.rule, frame.position)).Nodup :=
    (h.nodup wellFounded).map fun first second heq => by
      cases first
      cases second
      cases heq
      rfl
  have hsub : stack.map (fun frame => (frame.rule, frame.position)) ⊆
      List.range compiled.program.rules.size ×ˢ List.range (placesOf tokens) := by
    intro pair hpair
    obtain ⟨frame, hmem, rfl⟩ := List.mem_map.mp hpair
    have hbelow := h.below frame hmem
    exact List.pair_mem_product.mpr ⟨List.mem_range.mpr hbelow.1, List.mem_range.mpr hbelow.2⟩
  have hle := (List.subperm_of_subset hpairs hsub).length_le
  rwa [List.length_map, List.length_product, List.length_range, List.length_range] at hle

end Nested

/-! ### Watching the engine -/

namespace Engine

section Watched
variable (compiled : CompiledGrammar) (tokens : Array StreamToken)

/-- Matches a rule with an eye on the active calls, the innermost first: what alarms is answered
by `otherwise`. -/
def callWatched (alarm : List Frame → Frame → Bool) (otherwise : Reply) (memoize : Bool)
    (depth : Nat) (active : List Frame) (rule : Nat) (bound : Int) : Evaluator :=
  fun position memo =>
    match compiled.program.rules[rule]? with
    | none => .immediate none memo
    | some body =>
      if alarm active ⟨rule, position⟩ then otherwise
      else
        let key : MemoKey := ⟨rule, position, effectiveBound body bound⟩
        match memo[key]? with
        | some entry => ⟨entry.result, entry.seen, memo⟩
        | none =>
          match depth with
          | 0 =>
            let frames := active.map (·.position)
            let halfway := frames.reverse.getD (frames.length / 2) position
            ⟨none, .overflowed ⟨position, halfway⟩, memo⟩
          | depth + 1 =>
            let call := callWatched alarm otherwise memoize depth (⟨rule, position⟩ :: active)
            let reply := matchBody (evaluate compiled tokens call) tokens.size body key.bound
              position memo
            (reply.withResult (reply.result.map (closedMatch body))).remembered memoize key

/-- A run that is watched. -/
def runWatched (alarm : List Frame → Frame → Bool) (otherwise : Reply) (options : ParserOptions)
    (memo : Memo) : Outcome × Memo :=
  match compiled.program.rules[compiled.start]? with
  | none => (⟨none, none, none⟩, memo)
  | some start =>
    let call := callWatched compiled tokens alarm otherwise options.memoize options.maxDepth []
    let reply := matchBody (evaluate compiled tokens call) tokens.size start leastLevel 0 memo
    (outcomeOf tokens reply.result reply.seen, reply.memo)

/-- What there is no end to: that a call is active already, or that more calls are active than
there are rules and positions.  The start rule counts as called where the stream begins. -/
def isEndless (active : List Frame) (frame : Frame) : Bool :=
  let stack := active ++ [⟨compiled.start, 0⟩]
  stack.contains frame || compiled.program.rules.size * placesOf tokens < stack.length + 1

end Watched

variable {compiled : CompiledGrammar} {tokens : Array StreamToken}

/-- The watched engine and the engine, if nothing alarms.  If there are `enough` calls for all
rules and positions, then no call goes too deep. -/
def watching (compiled : CompiledGrammar) (tokens : Array StreamToken) (enough : Prop) :
    Comparison compiled tokens where
  escaped _ := False
  clean seen := enough → seen.overflow = none
  memos memo memo' := memo = memo' ∧ memo'.Valid compiled tokens
  escaped_first _ h := h
  escaped_second _ _ h := h
  clean_of_uncut h _ := h
  clean_followedBy h h' he := (Observation.followedBy_overflow_eq_none ..).mpr ⟨h he, h' he⟩
  valid h := h.2

theorem watching_memos {enough : Prop} {memo : Memo} (valid : memo.Valid compiled tokens) :
    (watching compiled tokens enough).memos memo memo :=
  ⟨rfl, valid⟩

theorem isEndless_eq_false {active : List Frame} {frame : Frame}
    (wellFounded : WellFounded (Corner (compiled.program.leftCorners compiled.analysis)))
    (nested : Nested compiled tokens (frame :: (active ++ [⟨compiled.start, 0⟩]))) :
    isEndless compiled tokens active frame = false := by
  have hfresh := (List.nodup_cons.mp (nested.nodup wellFounded)).1
  have hlength := nested.length_le wellFounded
  rw [List.length_cons] at hlength
  simp only [isEndless, Bool.or_eq_false_iff, decide_eq_false_iff_not, Nat.not_lt]
  exact ⟨by simpa using hfresh, hlength⟩

section Compiled
variable {grammar : Grammar} (done : grammar.compile = .ok compiled)
  (consuming : compiled.program.BasesConsume compiled.analysis)
include done consuming

/-- A call from the body of an active rule is nested in it. -/
theorem nested_of_calls {rule inner : Nat} {bound bound' : Int} {position place : Nat}
    {body : Rule} {stack : List Frame} (lookup : compiled.program.rules[rule]? = some body)
    (nested : Nested compiled tokens (⟨rule, position⟩ :: stack))
    (calls : Calls compiled tokens (.body body bound) position inner bound' place)
    (lt : inner < compiled.program.rules.size) :
    Nested compiled tokens (⟨inner, place⟩ :: ⟨rule, position⟩ :: stack) := by
  have hlocated := calls.located (Grammar.closed_compile done)
    (consuming body (Array.mem_of_getElem? lookup))
  have hplace := calls.lt_placesOf (Grammar.realizes_compile done)
    (nested.below _ List.mem_cons_self).2
  refine nested.push ?_ lt hplace
  rcases Nat.lt_or_eq_of_le hlocated.1 with hlt | heq
  · exact .inl hlt
  · exact .inr ⟨heq.symm, .single (Program.corner_of_leftCalls _ lookup (hlocated.2 heq.symm))⟩

/-- **A call is never alarming**, if it is nested in the active ones. -/
theorem alike_callWatched (otherwise : Reply) (memoize : Bool) {depth limit : Nat}
    {active : List Frame} {rule position : Nat} (bound : Int)
    (nested : rule < compiled.program.rules.size →
      Nested compiled tokens (⟨rule, position⟩ :: (active ++ [⟨compiled.start, 0⟩])))
    (deep : depth + active.length = limit) :
    (watching compiled tokens
        (compiled.program.rules.size * placesOf tokens ≤ limit + 1)).Alike
      (callWatched compiled tokens (isEndless compiled tokens) otherwise memoize depth active rule
        bound)
      (callRule compiled tokens memoize depth (active.map (·.position)) rule bound) position := by
  have wellFounded := Grammar.wellFounded_compile done
  induction depth generalizing active rule position bound with
  | zero =>
    rintro memo _ ⟨rfl, valid⟩
    rw [callWatched, callRule]
    cases hlookup : compiled.program.rules[rule]? with
    | none => exact .immediate none ⟨rfl, valid⟩
    | some body =>
      have hnested := nested (Array.getElem?_eq_some_iff.mp hlookup).1
      simp only [isEndless_eq_false wellFounded hnested, Bool.false_eq_true, if_false]
      cases memo[(⟨rule, position, effectiveBound body bound⟩ : MemoKey)]? with
      | some entry => exact .same rfl rfl (fun _ => rfl) ⟨rfl, valid⟩
      | none =>
        -- so many calls are active that there is no other one
        refine .same rfl rfl (fun enough => ?_) ⟨rfl, valid⟩
        have hlength := hnested.length_le wellFounded
        simp only [List.length_cons, List.length_append, List.length_nil] at hlength
        omega
  | succ depth ih =>
    rintro memo _ ⟨rfl, valid⟩
    have hvalid := (sound_callRule memoize (depth + 1) (active.map (·.position)) rule bound position
      memo valid).2
    rw [callWatched]
    rw [callRule] at hvalid ⊢
    cases hlookup : compiled.program.rules[rule]? with
    | none => exact .immediate none ⟨rfl, valid⟩
    | some body =>
      have hnested := nested (Array.getElem?_eq_some_iff.mp hlookup).1
      simp only [hlookup, isEndless_eq_false wellFounded hnested, Bool.false_eq_true, if_false]
        at hvalid ⊢
      cases hentry : memo[(⟨rule, position, effectiveBound body bound⟩ : MemoKey)]? with
      | some entry => exact .same rfl rfl (fun _ => rfl) ⟨rfl, valid⟩
      | none =>
        simp only [hentry] at hvalid ⊢
        -- the calls of the body are nested in this one
        have hrelated : (watching compiled tokens
            (compiled.program.rules.size * placesOf tokens ≤ limit + 1)).Related
            (callWatched compiled tokens (isEndless compiled tokens) otherwise memoize depth
              (⟨rule, position⟩ :: active))
            (callRule compiled tokens memoize depth (position :: active.map (·.position)))
            (.body body (effectiveBound body bound)) position := fun inner bound' place hcalls =>
          ih bound' (nested_of_calls done consuming hlookup hnested hcalls)
            (by rw [List.length_cons]; omega)
        have hbody := Comparison.alike_engine memoize depth (position :: active.map (·.position))
          body (effectiveBound body bound) position hrelated memo memo (watching_memos valid)
        have hclean := (hbody.observed fun _ => id).2.2
        rw [hbody.eq (fun _ => id) And.left]
        refine .same rfl rfl ?_ ⟨rfl, hvalid⟩
        rw [Reply.remembered_seen]
        exact hclean

/-- **No call inside itself.**  Whatever is remembered of a stream, as far as it is right: an
engine that looks out for calls that are active already, or for more active calls than there are
rules and positions, is never alarmed.  If as many calls may be active, none goes too deep. -/
theorem runWatched_eq_run (tokens : Array StreamToken) (options : ParserOptions) {memo : Memo}
    (valid : memo.Valid compiled tokens) :
    (∀ otherwise, runWatched compiled tokens (isEndless compiled tokens) otherwise options memo =
        run compiled options tokens memo) ∧
      (compiled.program.rules.size * placesOf tokens ≤ options.maxDepth + 1 →
        (run compiled options tokens memo).1.overflow = none) := by
  unfold runWatched run
  cases hstart : compiled.program.rules[compiled.start]? with
  | none => exact ⟨fun _ => rfl, fun _ => rfl⟩
  | some start =>
    have hlt := (Array.getElem?_eq_some_iff.mp hstart).1
    have hrelated (otherwise : Reply) : (watching compiled tokens
        (compiled.program.rules.size * placesOf tokens ≤ options.maxDepth + 1)).Related
        (callWatched compiled tokens (isEndless compiled tokens) otherwise options.memoize
          options.maxDepth [])
        (callRule compiled tokens options.memoize options.maxDepth []) (.body start leastLevel) 0 :=
      fun inner bound place hcalls => alike_callWatched done consuming otherwise options.memoize
        bound (nested_of_calls done consuming hstart (.single hlt) hcalls) rfl
    have hbody (otherwise : Reply) := Comparison.alike_engine options.memoize options.maxDepth []
      start leastLevel 0 (hrelated otherwise) memo memo (watching_memos valid)
    have heq (otherwise : Reply) := (hbody otherwise).eq (fun _ => id) And.left
    refine ⟨fun otherwise => ?_, fun enough => ?_⟩
    · simp only [heq]
    · simp only [overflow_outcomeOf]
      exact ((hbody default).observed fun _ => id).2.2 enough

end Compiled

/-- Sums in brackets, with more calls at the same position than there is input. -/
theorem runWatched_eq_run_sum :
    let tokens := CompiledGrammar.sum.streamOf ['(', '(', 'x', ')', ')']
    CompiledGrammar.sum.program.BasesConsume CompiledGrammar.sum.analysis ∧
      (∀ otherwise, runWatched .sum tokens (isEndless .sum tokens) otherwise .standard ∅ =
        run .sum .standard tokens ∅) ∧
      (run .sum .standard tokens ∅).1.overflow = none := by
  intro tokens
  have consuming : CompiledGrammar.sum.program.BasesConsume CompiledGrammar.sum.analysis := by
    with_unfolding_all decide
  have enough : CompiledGrammar.sum.program.rules.size * placesOf tokens ≤
      ParserOptions.standard.maxDepth + 1 := by
    with_unfolding_all decide
  have hwatched := runWatched_eq_run Grammar.compile_sum consuming tokens .standard
    Memo.valid_empty
  exact ⟨consuming, hwatched.1, hwatched.2 enough⟩

end Engine

/-! ### Without end -/

/-- A grammar with a left-recursive rule whose base is nothing or `x`, and whose tail begins with
the rule itself. -/
def Grammar.endless : Grammar :=
  { Grammar.empty "endless" with
    rules := [("a", .choice
      [.seq [.reference "a", .reference "a", .literal "y"], .optional (.literal "x")])]
    start := some "a" }

/-- What it is compiled to. -/
def CompiledGrammar.endless : CompiledGrammar := Grammar.endless.compile.toOption.getD default

theorem Grammar.compile_endless : Grammar.endless.compile = .ok CompiledGrammar.endless :=
  Grammar.compile_eq_getD (by with_unfolding_all decide)

/-- For the text `y` the rule is called inside itself where it started, since a base of nothing
has matched by then, until the calls nest too deep. -/
theorem Engine.runWatched_ne_run_endless :
    let tokens := CompiledGrammar.endless.streamOf ['y']
    let options : ParserOptions := { ParserOptions.standard with memoize := false, maxDepth := 16 }
    Grammar.endless.compile = .ok CompiledGrammar.endless ∧
      CompiledGrammar.endless.program.rules.size * placesOf tokens = 2 ∧
      runWatched .endless tokens (isEndless .endless tokens) (.immediate none ∅) options ∅ ≠
        run .endless options tokens ∅ ∧
      (run .endless options tokens ∅).1.overflow = some ⟨0, 0⟩ := by
  intro tokens options
  have hdeep : (run .endless options tokens ∅).1.overflow = some ⟨0, 0⟩ := by
    rw [run_eq_runAfresh rfl Memo.blank_empty]
    decide +kernel
  have hwatched : (runWatched .endless tokens (isEndless .endless tokens) (.immediate none ∅)
      options ∅).1.overflow = none := by
    decide +kernel
  refine ⟨Grammar.compile_endless, by with_unfolding_all decide, fun hsame => ?_, hdeep⟩
  rw [hsame, hdeep] at hwatched
  cases hwatched

end Syntagm
