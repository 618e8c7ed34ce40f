import Mathlib.Tactic.Common
import Syntagm.Parse.Engine
import Syntagm.Proofs.Observation

/-!
# What a program matches, without memory

The engine remembers what rule calls gave and stops calls that nest too deep.  Neither
belongs to what a program **means**.  This module says what it means: `Evaluates goal position
result seen` holds when `goal`, matched at a position of a stream, gives `result` after
looking at what `seen` records.  There is one rule for each way a step of the engine can go, so a
fact about every evaluation is proved by one induction over these rules.

**Depth.**  A call may be cut short (`Evaluates.tooDeep`), which leaves a trace in what was
seen.  An evaluation that saw no such cut is the only one there is
(`Evaluates.unique`, in `Syntagm.Proofs.Unlimited`).

**What a result depends on.**  An evaluation from a position on looks at a stretch of tokens
that starts there.  Its match ends in this stretch, and the failures it reports lie in it
(`Evaluates.confined`).
-/

namespace Syntagm

/-- What can be matched at a position: an operation, the parts of one, or a rule at some
stage. -/
inductive Goal where
  | op (number : Nat)
  /-- All items, one after the other. -/
  | all {limit : Nat} (items : List (Fin limit))
  /-- The first alternative that matches, where the current token is of this kind. -/
  | first (current : Kind) {limit : Nat} (alternatives : List (Fin limit))
  /-- An operation over and over, at least `least` times. -/
  | many (least inner : Nat)
  /-- The first tail that matches some input. -/
  | tail (tails : List Tail)
  /-- A rule of which `fragment` is matched and which tails may make longer. -/
  | grow (rule : Rule) (tails : List Tail) (fragment : Fragment)
  | body (rule : Rule) (bound : Int)
  | call (rule : Nat) (bound : Int)

open Engine in
/-- **The evaluations of a program** on a stream. -/
inductive Evaluates (compiled : CompiledGrammar) (tokens : Array StreamToken) :
    Goal → Nat → Option Match → Observation → Prop where
  | token {op position kind token}
      (view : compiled.program.view op = .token kind)
      (found : (tokens[position]?).filter (·.kind = kind) = some token) :
      Evaluates compiled tokens (.op op) position (some (tokenMatch token position))
        (.looked position)
  | otherToken {op position kind}
      (view : compiled.program.view op = .token kind)
      (found : (tokens[position]?).filter (·.kind = kind) = none) :
      Evaluates compiled tokens (.op op) position none
        ((Observation.looked position).followedBy (.failed position (KindSet.single kind)))
  | seq {op position items result seen}
      (view : compiled.program.view op = .seq items)
      (all : Evaluates compiled tokens (.all items) position result seen) :
      Evaluates compiled tokens (.op op) position result seen
  | choice {op position alternatives result seen}
      (view : compiled.program.view op = .choice alternatives)
      (first : Evaluates compiled tokens (.first (kindAt tokens position) alternatives) position
        result seen) :
      Evaluates compiled tokens (.op op) position result
        ((Observation.looked position).followedBy seen)
  | repetition {op position least inner result seen}
      (view : compiled.program.view op = .repetition least inner)
      (many : Evaluates compiled tokens (.many least inner) position result seen) :
      Evaluates compiled tokens (.op op) position result seen
  | optional {op position inner result seen}
      (view : compiled.program.view op = .optional inner)
      (one : Evaluates compiled tokens (.op inner) position result seen) :
      Evaluates compiled tokens (.op op) position (some (result.getD (.blank position))) seen
  | blank {op position}
      (view : compiled.program.view op = .blank) :
      Evaluates compiled tokens (.op op) position (some (.blank position)) .nothing
  | callOp {op position rule bound result seen}
      (view : compiled.program.view op = .call rule bound)
      (call : Evaluates compiled tokens (.call rule bound) position result seen) :
      Evaluates compiled tokens (.op op) position result seen
  | allNil {limit position} :
      Evaluates compiled tokens (.all ([] : List (Fin limit))) position
        (some (.blank position)) .nothing
  | allFail {limit} {item : Fin limit} {items position seen}
      (head : Evaluates compiled tokens (.op item) position none seen) :
      Evaluates compiled tokens (.all (item :: items)) position none seen
  | allCons {limit} {item : Fin limit} {items position found seen result after}
      (head : Evaluates compiled tokens (.op item) position (some found) seen)
      (rest : Evaluates compiled tokens (.all items) found.stop result after) :
      Evaluates compiled tokens (.all (item :: items)) position (result.map (found ++ ·))
        (seen.followedBy after)
  | firstNil {limit current position} :
      Evaluates compiled tokens (.first current ([] : List (Fin limit))) position none .nothing
  | firstPruned {limit current} {item : Fin limit} {items position result after}
      (pruned : isPruned compiled.analysis current item = true)
      (rest : Evaluates compiled tokens (.first current items) position result after) :
      Evaluates compiled tokens (.first current (item :: items)) position result
        ((Observation.failed position (compiled.analysis.firstSet item)).followedBy after)
  | firstFound {limit current} {item : Fin limit} {items position found seen}
      (tried : isPruned compiled.analysis current item = false)
      (head : Evaluates compiled tokens (.op item) position (some found) seen) :
      Evaluates compiled tokens (.first current (item :: items)) position (some found) seen
  | firstNext {limit current} {item : Fin limit} {items position seen result after}
      (tried : isPruned compiled.analysis current item = false)
      (head : Evaluates compiled tokens (.op item) position none seen)
      (rest : Evaluates compiled tokens (.first current items) position result after) :
      Evaluates compiled tokens (.first current (item :: items)) position result
        (seen.followedBy after)
  | manyEnd {least inner position seen}
      (round : Evaluates compiled tokens (.op inner) position none seen) :
      Evaluates compiled tokens (.many least inner) position
        (if least = 0 then some (.blank position) else none) seen
  | manyEmpty {least inner position found seen}
      (round : Evaluates compiled tokens (.op inner) position (some found) seen)
      (still : ¬ position < found.stop) :
      Evaluates compiled tokens (.many least inner) position (emptyRound least position found) seen
  | manyMore {least inner position found seen result after}
      (round : Evaluates compiled tokens (.op inner) position (some found) seen)
      (moved : position < found.stop)
      (rest : Evaluates compiled tokens (.many (least - 1) inner) found.stop result after) :
      Evaluates compiled tokens (.many least inner) position (result.map (found ++ ·))
        (seen.followedBy after)
  | tailNil {position} :
      Evaluates compiled tokens (.tail []) position none .nothing
  | tailFound {tail tails position found seen}
      (head : Evaluates compiled tokens (.op tail.op) position (some found) seen)
      (moved : found.stop ≠ position) :
      Evaluates compiled tokens (.tail (tail :: tails)) position (some found) seen
  | tailNext {tail tails position tried seen result after}
      (head : Evaluates compiled tokens (.op tail.op) position tried seen)
      (still : tried.filter (·.stop ≠ position) = none)
      (rest : Evaluates compiled tokens (.tail tails) position result after) :
      Evaluates compiled tokens (.tail (tail :: tails)) position result (seen.followedBy after)
  | growEnd {rule tails fragment position seen}
      (tail : Evaluates compiled tokens (.tail tails) position none seen) :
      Evaluates compiled tokens (.grow rule tails fragment) position (some ⟨fragment, position⟩)
        seen
  | growMore {rule tails fragment position next seen result after}
      (tail : Evaluates compiled tokens (.tail tails) position (some next) seen)
      (moved : position < next.stop)
      (rest : Evaluates compiled tokens
        (.grow rule tails (closed rule fragment ++ next.fragment)) next.stop result after) :
      Evaluates compiled tokens (.grow rule tails fragment) position result
        (seen.followedBy after)
  | plain {rule op bound position result seen}
      (body : rule.body = .plain op)
      (entry : Evaluates compiled tokens (.op op) position result seen) :
      Evaluates compiled tokens (.body rule bound) position result seen
  | noBase {rule base tails bound position seen}
      (body : rule.body = .leftRecursive base tails)
      (entry : Evaluates compiled tokens (.op base) position none seen) :
      Evaluates compiled tokens (.body rule bound) position none seen
  | base {rule base tails bound position found seen result after}
      (body : rule.body = .leftRecursive base tails)
      (entry : Evaluates compiled tokens (.op base) position (some found) seen)
      (rest : Evaluates compiled tokens
        (.grow rule (tails.filter (bound ≤ ·.level)) found.fragment) found.stop result after) :
      Evaluates compiled tokens (.body rule bound) position result (seen.followedBy after)
  | noRule {number bound position}
      (lookup : compiled.program.rules[number]? = none) :
      Evaluates compiled tokens (.call number bound) position none .nothing
  | call {number rule bound position result seen}
      (lookup : compiled.program.rules[number]? = some rule)
      (body : Evaluates compiled tokens (.body rule (effectiveBound rule bound)) position
        result seen) :
      Evaluates compiled tokens (.call number bound) position (result.map (closedMatch rule)) seen
  | tooDeep {number bound position overflow} :
      Evaluates compiled tokens (.call number bound) position none (.overflowed overflow)

/-! ### What a result depends on -/

/-- How many tokens may fail without having been looked at: the alternatives of a choice rely
on the look at the current token that the choice itself took. -/
def Goal.slack : Goal → Nat
  | .first .. => 1
  | _ => 0

/-- What an evaluation gave and saw lies in the stretch that it looked at. -/
structure Confined (tokens : Array StreamToken) (slack position : Nat) (result : Option Match)
    (seen : Observation) : Prop where
  within : seen.Within position slack
  le_stop : ∀ found, result = some found → position ≤ found.stop
  read : ∀ found, result = some found → position < found.stop →
    found.stop ≤ seen.lookahead ∧ found.stop ≤ tokens.size

namespace Confined

variable {tokens : Array StreamToken} {slack position : Nat} {result : Option Match}
  {seen after : Observation}

theorem failed (h : seen.Within position slack) : Confined tokens slack position none seen where
  within := h
  le_stop := by rintro _ ⟨⟩
  read := by rintro _ ⟨⟩

/-- A match of nothing. -/
theorem still (h : seen.Within position slack) {found : Match} (stop : found.stop = position) :
    Confined tokens slack position (some found) seen where
  within := h
  le_stop := by
    rintro _ ⟨⟩
    exact Nat.le_of_eq stop.symm
  read := by
    rintro _ ⟨⟩ hlt
    omega

/-- More was seen before. -/
theorem widen (h : Confined tokens slack position result after) {other : Nat}
    (within : (seen.followedBy after).Within position other) :
    Confined tokens other position result (seen.followedBy after) where
  within := within
  le_stop := h.le_stop
  read found hfound hlt := by
    have := h.read found hfound hlt
    simp only [Observation.followedBy_lookahead]
    omega

/-- **Two steps.**  The second one starts where the match of the first one stops; what it
matches may be put behind that. -/
theorem andThen {found : Match} {final : Option Match}
    (first : Confined tokens 0 position (some found) seen)
    (second : Confined tokens 0 found.stop result after)
    (stops : ∀ whole, final = some whole → ∃ part, result = some part ∧ whole.stop = part.stop) :
    Confined tokens 0 position final (seen.followedBy after) where
  within := first.within.followedBy second.within (first.le_stop found rfl) (.inl rfl)
  le_stop whole hwhole := by
    obtain ⟨part, hpart, heq⟩ := stops whole hwhole
    have := first.le_stop found rfl
    have := second.le_stop part hpart
    omega
  read whole hwhole hlt := by
    obtain ⟨part, hpart, heq⟩ := stops whole hwhole
    have hone := first.read found rfl
    have htwo := second.read part hpart
    have := second.le_stop part hpart
    simp only [Observation.followedBy_lookahead]
    by_cases hmoved : found.stop < part.stop
    · omega
    · omega

end Confined

/-- A match behind another one stops where it stopped by itself. -/
theorem Match.stops_of_prepend {first : Match} {result : Option Match} (whole : Match)
    (h : result.map (first ++ ·) = some whole) :
    ∃ part, result = some part ∧ whole.stop = part.stop := by
  obtain ⟨part, hpart, rfl⟩ := Option.map_eq_some_iff.mp h
  exact ⟨part, hpart, rfl⟩

variable {compiled : CompiledGrammar} {tokens : Array StreamToken} {goal : Goal}
  {position : Nat} {result : Option Match} {seen : Observation}

theorem Engine.stop_tokenMatch_le {kind : Kind} {token : StreamToken}
    (h : (tokens[position]?).filter (·.kind = kind) = some token) : position + 1 ≤ tokens.size := by
  obtain ⟨hlookup, -⟩ := Option.filter_eq_some_iff.mp h
  exact (Array.getElem?_eq_some_iff.mp hlookup).1

/-- **What an evaluation looks at, matches and complains about lies in one stretch** that
starts at its position. -/
theorem Evaluates.confined (h : Evaluates compiled tokens goal position result seen) :
    Confined tokens goal.slack position result seen := by
  induction h with
  | token _ found =>
    refine ⟨.looked .., ?_, ?_⟩
    · rintro _ ⟨⟩
      exact Nat.le_succ _
    · rintro _ ⟨⟩ _
      exact ⟨Nat.le_refl _, Engine.stop_tokenMatch_le found⟩
  | otherToken => exact .failed (Observation.Within.failed ..).afterLooked
  | seq _ _ ih => exact ih
  -- the choice looks at one token, also where all alternatives are pruned
  | choice _ _ ih => exact ih.widen ih.within.afterLooked
  | repetition _ _ ih => exact ih
  | @optional _ position _ result _ _ _ ih =>
    cases result with
    | none => exact .still ih.within rfl
    | some found => exact ih
  | blank => exact .still (.nothing ..) rfl
  | callOp _ _ ih => exact ih
  | allNil => exact .still (.nothing ..) rfl
  | allFail _ ih => exact ih
  | allCons _ _ ihHead ihRest => exact ihHead.andThen ihRest Match.stops_of_prepend
  | firstNil => exact .failed (.nothing ..)
  | firstPruned _ _ ih =>
    exact ih.widen ((Observation.Within.failed ..).followedBy ih.within (Nat.le_refl _)
      (.inr (Nat.le_refl _)))
  | firstFound _ _ ih =>
    exact ⟨ih.within.weaken 1, ih.le_stop, ih.read⟩
  | firstNext _ _ _ ihHead ihRest =>
    exact ihRest.widen ((ihHead.within.weaken 1).followedBy ihRest.within (Nat.le_refl _)
      (.inr (Nat.le_refl _)))
  | @manyEnd least _ _ _ _ ih =>
    split
    · exact .still ih.within rfl
    · exact .failed ih.within
  | @manyEmpty least _ position found _ _ still ih =>
    have hstop : found.stop = position := by
      have := ih.le_stop found rfl
      omega
    match least with
    | 0 => exact .still ih.within rfl
    | 1 => exact .still ih.within hstop
    | _ + 2 => exact .failed ih.within
  | manyMore _ _ _ ihRound ihRest => exact ihRound.andThen ihRest Match.stops_of_prepend
  | tailNil => exact .failed (.nothing ..)
  | tailFound _ _ ih => exact ih
  | tailNext _ _ _ ihHead ihRest =>
    exact ihRest.widen (ihHead.within.followedBy ihRest.within (Nat.le_refl _) (.inl rfl))
  | growEnd _ ih => exact .still ih.within rfl
  | growMore _ _ _ ihTail ihRest =>
    exact ihTail.andThen ihRest fun whole h => ⟨whole, h, rfl⟩
  | plain _ _ ih => exact ih
  | noBase _ _ ih => exact ih
  | base _ _ _ ihEntry ihRest => exact ihEntry.andThen ihRest fun whole h => ⟨whole, h, rfl⟩
  | noRule => exact .failed (.nothing ..)
  | call _ _ ih =>
    refine ⟨ih.within, ?_, ?_⟩
    · intro found hfound
      obtain ⟨part, hpart, rfl⟩ := Option.map_eq_some_iff.mp hfound
      exact ih.le_stop part hpart
    · intro found hfound
      obtain ⟨part, hpart, rfl⟩ := Option.map_eq_some_iff.mp hfound
      exact ih.read part hpart
  | tooDeep => exact .failed (.overflowed ..)

end Syntagm
