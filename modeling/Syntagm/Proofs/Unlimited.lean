import Syntagm.Proofs.Memory

/-!
# Evaluation without memory and without a limit

An evaluation that saw no cut is what the engine gives without memory if calls may nest deep
enough (`Evaluates.unlimited`).  Hence there is at most one such evaluation of a goal at a
position (`Evaluates.unique`): whatever the engine remembers, and however deep it may go, a reply
without a cut is always the same.
-/

namespace Syntagm

open Engine

/-- The part of the engine that a goal is evaluated by, when `call` evaluates rule calls. -/
def Goal.evaluator (compiled : CompiledGrammar) (tokens : Array StreamToken)
    (call : Nat → Int → Evaluator) : Goal → Evaluator
  | .op number => evaluate compiled tokens call number
  | .all items => matchAll (fun item => evaluate compiled tokens call item) items
  | .first current alternatives =>
    matchFirst compiled.analysis current (fun item => evaluate compiled tokens call item)
      alternatives
  | .many least inner => matchMany (evaluate compiled tokens call inner) tokens.size least
  | .tail tails => matchTail (evaluate compiled tokens call) tails
  | .grow rule tails fragment => fun position =>
    growFrom (evaluate compiled tokens call) rule tails tokens.size ⟨fragment, position⟩
  | .body rule bound => matchBody (evaluate compiled tokens call) tokens.size rule bound
  | .call rule bound => call rule bound

/-- **Without memory and without limit**: from some limit on, the engine that remembers
nothing gives this result, and sees this. -/
def Unlimited (compiled : CompiledGrammar) (tokens : Array StreamToken) (goal : Goal)
    (position : Nat) (result : Option Match) (seen : Observation) : Prop :=
  ∃ enough, ∀ depth, enough ≤ depth → ∀ frames,
    goal.evaluator compiled tokens (callRule compiled tokens false depth frames) position ∅ =
      ⟨result, seen, ∅⟩

variable {compiled : CompiledGrammar} {tokens : Array StreamToken} {goal other : Goal}
  {position next : Nat} {result final : Option Match} {seen after : Observation}

namespace Unlimited

/-- A goal that takes no part of the engine. -/
theorem of_none (step : ∀ call,
    other.evaluator compiled tokens call next ∅ = ⟨final, after, ∅⟩) :
    Unlimited compiled tokens other next final after :=
  ⟨0, fun _ _ _ => step _⟩

/-- A goal that takes no part of the engine but one. -/
theorem of_one (h : Unlimited compiled tokens goal position result seen)
    (step : ∀ call, goal.evaluator compiled tokens call position ∅ = ⟨result, seen, ∅⟩ →
      other.evaluator compiled tokens call next ∅ = ⟨final, after, ∅⟩) :
    Unlimited compiled tokens other next final after := by
  obtain ⟨enough, h⟩ := h
  exact ⟨enough, fun depth hdepth frames => step _ (h depth hdepth frames)⟩

/-- A goal that takes two parts of the engine. -/
theorem of_two {second : Goal} {middle : Nat} {partly : Option Match} {along : Observation}
    (h : Unlimited compiled tokens goal position result seen)
    (h' : Unlimited compiled tokens second middle partly along)
    (step : ∀ call, goal.evaluator compiled tokens call position ∅ = ⟨result, seen, ∅⟩ →
      second.evaluator compiled tokens call middle ∅ = ⟨partly, along, ∅⟩ →
      other.evaluator compiled tokens call next ∅ = ⟨final, after, ∅⟩) :
    Unlimited compiled tokens other next final after := by
  obtain ⟨enough, h⟩ := h
  obtain ⟨enough', h'⟩ := h'
  exact ⟨max enough enough', fun depth hdepth frames => step _
    (h depth (by omega) frames) (h' depth (by omega) frames)⟩

/-- A goal that the engine evaluates as another one. -/
theorem of_same (h : Unlimited compiled tokens goal position result seen)
    (same : ∀ call, other.evaluator compiled tokens call = goal.evaluator compiled tokens call) :
    Unlimited compiled tokens other position result seen :=
  h.of_one fun call h => by rw [same, h]

/-! ### Loops -/

variable {least inner : Nat} {found more : Match} {rule : Rule} {tails : List Tail}
  {fragment : Fragment} {number : Nat} {bound : Int}

theorem many_end (round : Unlimited compiled tokens (.op inner) position none seen) :
    Unlimited compiled tokens (.many least inner) position
      (if least = 0 then some (.blank position) else none) seen := by
  refine round.of_one fun call h => ?_
  simp only [Goal.evaluator] at h ⊢
  rw [matchMany]
  simp only [h, Reply.withResult]

/-- A round that matches nothing is the last one. -/
theorem many_empty (round : Unlimited compiled tokens (.op inner) position (some found) seen)
    (still : ¬ position < found.stop) :
    Unlimited compiled tokens (.many least inner) position (emptyRound least position found)
      seen := by
  refine round.of_one fun call h => ?_
  simp only [Goal.evaluator] at h ⊢
  rw [matchMany]
  simp only [h]
  rw [dif_neg fun hmoved => still hmoved.1]
  rfl

/-- The bound that ends a loop is the size of the stream, and no match ends behind it. -/
theorem many_more (round : Unlimited compiled tokens (.op inner) position (some found) seen)
    (moved : position < found.stop) (within : found.stop ≤ tokens.size)
    (rest : Unlimited compiled tokens (.many (least - 1) inner) found.stop result after) :
    Unlimited compiled tokens (.many least inner) position (result.map (found ++ ·))
      (seen.followedBy after) := by
  refine round.of_two rest fun call h h' => ?_
  simp only [Goal.evaluator] at h h' ⊢
  rw [matchMany]
  simp only [h]
  rw [dif_pos ⟨moved, within⟩]
  simp only [h', Reply.prepend, Reply.after]

theorem grow_end (tail : Unlimited compiled tokens (.tail tails) position none seen) :
    Unlimited compiled tokens (.grow rule tails fragment) position (some ⟨fragment, position⟩)
      seen := by
  refine tail.of_one fun call h => ?_
  simp only [Goal.evaluator] at h ⊢
  rw [growFrom]
  simp only [h, Reply.withResult]

theorem grow_more (tail : Unlimited compiled tokens (.tail tails) position (some more) seen)
    (moved : position < more.stop) (within : more.stop ≤ tokens.size)
    (rest : Unlimited compiled tokens
      (.grow rule tails (closed rule fragment ++ more.fragment)) more.stop result after) :
    Unlimited compiled tokens (.grow rule tails fragment) position result
      (seen.followedBy after) := by
  refine tail.of_two rest fun call h h' => ?_
  simp only [Goal.evaluator] at h h' ⊢
  rw [growFrom]
  simp only [h]
  rw [dif_pos ⟨moved, within⟩]
  simp only [h', Reply.after]

/-! ### Calls -/

theorem no_rule (lookup : compiled.program.rules[number]? = none) :
    Unlimited compiled tokens (.call number bound) position none .nothing :=
  ⟨0, fun depth _ frames => by
    simp only [Goal.evaluator]
    rw [callRule, lookup]
    rfl⟩

/-- The body of a rule is evaluated one call deeper. -/
theorem call (lookup : compiled.program.rules[number]? = some rule)
    (body : Unlimited compiled tokens (.body rule (effectiveBound rule bound)) position result
      seen) :
    Unlimited compiled tokens (.call number bound) position (result.map (closedMatch rule))
      seen := by
  obtain ⟨enough, h⟩ := body
  refine ⟨enough + 1, fun depth hdepth frames => ?_⟩
  obtain ⟨depth, rfl⟩ : ∃ less, depth = less + 1 := ⟨depth - 1, by omega⟩
  have h := h depth (by omega) (position :: frames)
  simp only [Goal.evaluator] at h ⊢
  rw [callRule, lookup]
  simp only [Std.HashMap.getElem?_empty, h]
  rfl

end Unlimited

/-- **An evaluation without a cut is what the engine gives** without memory and without
limit. -/
theorem Evaluates.unlimited (h : Evaluates compiled tokens goal position result seen)
    (uncut : seen.overflow = none) : Unlimited compiled tokens goal position result seen := by
  induction h with
  | token view found =>
    refine .of_none fun call => ?_
    simp only [Goal.evaluator]
    rw [evaluate, view]
    simp only [matchToken, found]
  | otherToken view found =>
    refine .of_none fun call => ?_
    simp only [Goal.evaluator]
    rw [evaluate, view]
    simp only [matchToken, found]
  | seq view _ ih =>
    exact (ih uncut).of_same fun call => by rw [Goal.evaluator, evaluate, view]; rfl
  | choice view _ ih =>
    simp only [Observation.followedBy_overflow_eq_none] at uncut
    refine (ih uncut.2).of_one fun call h => ?_
    simp only [Goal.evaluator] at h ⊢
    rw [evaluate, view]
    simp only [h, Reply.after]
  | repetition view _ ih =>
    exact (ih uncut).of_same fun call => by rw [Goal.evaluator, evaluate, view]; rfl
  | optional view _ ih =>
    refine (ih uncut).of_one fun call h => ?_
    simp only [Goal.evaluator] at h ⊢
    rw [evaluate, view]
    simp only [matchOptional, h, Reply.withResult]
  | blank view =>
    refine .of_none fun call => ?_
    simp only [Goal.evaluator]
    rw [evaluate, view]
    rfl
  | callOp view _ ih =>
    exact (ih uncut).of_same fun call => by rw [Goal.evaluator, evaluate, view]; rfl
  | allNil => exact .of_none fun _ => rfl
  | allFail _ ih =>
    refine (ih uncut).of_one fun call h => ?_
    simp only [Goal.evaluator] at h ⊢
    simp only [matchAll, h]
  | allCons _ _ ihHead ihRest =>
    simp only [Observation.followedBy_overflow_eq_none] at uncut
    refine (ihHead uncut.1).of_two (ihRest uncut.2) fun call h h' => ?_
    simp only [Goal.evaluator] at h h' ⊢
    simp only [matchAll, h, h', Reply.prepend, Reply.after]
  | firstNil => exact .of_none fun _ => rfl
  | firstPruned pruned _ ih =>
    simp only [Observation.followedBy_overflow_eq_none] at uncut
    refine (ih uncut.2).of_one fun call h => ?_
    simp only [Goal.evaluator] at h ⊢
    simp only [matchFirst, pruned, if_true, h, Reply.after]
  | firstFound tried _ ih =>
    refine (ih uncut).of_one fun call h => ?_
    simp only [Goal.evaluator] at h ⊢
    simp [matchFirst, tried, h]
  | firstNext tried _ _ ihHead ihRest =>
    simp only [Observation.followedBy_overflow_eq_none] at uncut
    refine (ihHead uncut.1).of_two (ihRest uncut.2) fun call h h' => ?_
    simp only [Goal.evaluator] at h h' ⊢
    simp [matchFirst, tried, h, h', Reply.after]
  | manyEnd _ ih => exact (ih uncut).many_end
  | manyEmpty _ still ih => exact (ih uncut).many_empty still
  | manyMore round moved _ ihRound ihRest =>
    simp only [Observation.followedBy_overflow_eq_none] at uncut
    exact (ihRound uncut.1).many_more moved (round.confined.read _ rfl moved).2 (ihRest uncut.2)
  | tailNil => exact .of_none fun _ => rfl
  | tailFound _ moved ih =>
    refine (ih uncut).of_one fun call h => ?_
    simp only [Goal.evaluator] at h ⊢
    simp [matchTail, h, Option.filter, moved]
  | tailNext _ still _ ihHead ihRest =>
    simp only [Observation.followedBy_overflow_eq_none] at uncut
    refine (ihHead uncut.1).of_two (ihRest uncut.2) fun call h h' => ?_
    simp only [Goal.evaluator] at h h' ⊢
    simp only [matchTail, h, still, h', Reply.after]
  | growEnd _ ih => exact (ih uncut).grow_end
  | growMore tail moved _ ihTail ihRest =>
    simp only [Observation.followedBy_overflow_eq_none] at uncut
    exact (ihTail uncut.1).grow_more moved (tail.confined.read _ rfl moved).2 (ihRest uncut.2)
  | plain body _ ih =>
    refine (ih uncut).of_one fun call h => ?_
    simp only [Goal.evaluator] at h ⊢
    simp only [matchBody, body, h]
  | noBase body _ ih =>
    refine (ih uncut).of_one fun call h => ?_
    simp only [Goal.evaluator] at h ⊢
    simp only [matchBody, body, h]
  | base body _ _ ihEntry ihRest =>
    simp only [Observation.followedBy_overflow_eq_none] at uncut
    refine (ihEntry uncut.1).of_two (ihRest uncut.2) fun call h h' => ?_
    simp only [Goal.evaluator] at h h' ⊢
    simp only [matchBody, body, h, h', Reply.after]
  | noRule lookup => exact .no_rule lookup
  | call lookup _ ih => exact .call lookup (ih uncut)
  | tooDeep => cases uncut

/-- **There is one evaluation without a cut.** -/
theorem Evaluates.unique {result' : Option Match} {seen' : Observation}
    (h : Evaluates compiled tokens goal position result seen)
    (h' : Evaluates compiled tokens goal position result' seen')
    (uncut : seen.overflow = none) (uncut' : seen'.overflow = none) :
    result = result' ∧ seen = seen' := by
  obtain ⟨enough, h⟩ := h.unlimited uncut
  obtain ⟨enough', h'⟩ := h'.unlimited uncut'
  have heq := (h (max enough enough') (by omega) []).symm.trans (h' _ (by omega) [])
  exact ⟨congrArg Reply.result heq, congrArg Reply.seen heq⟩

end Syntagm
