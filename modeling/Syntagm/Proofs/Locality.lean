import Syntagm.Proofs.Evaluation

/-!
# Evaluation is local

What an evaluation gives depends only on the tokens it looked at, and of these only on what the
engine can see: their kind and their elements.  Where another stream, or another place of the
same stream, has the same tokens, it goes the same way there (`Evaluates.relocate`).  This is
why remembered results may be used in other streams.
-/

namespace Syntagm

/-- What the engine can see of a token. -/
def StreamToken.view (token : StreamToken) : Kind × List Element × Option Element :=
  (token.kind, token.leading, token.element)

/-- The `count` tokens from `origin` on in one stream, and those from `target` on in another,
look the same.  Where one stream ends, so does the other. -/
def SameStretch (tokens others : Array StreamToken) (origin target count : Nat) : Prop :=
  ∀ index, index < count →
    (tokens[origin + index]?).map StreamToken.view =
      (others[target + index]?).map StreamToken.view

namespace SameStretch

variable {tokens others : Array StreamToken} {origin target count position : Nat}

theorem carried (h : SameStretch tokens others origin target count) (le : origin ≤ position)
    (lt : position < origin + count) :
    (tokens[position]?).map StreamToken.view =
      (others[carried origin target position]?).map StreamToken.view := by
  have := h (position - origin) (by omega)
  rwa [Nat.add_sub_cancel' le, Nat.add_comm target] at this

theorem kindAt (h : SameStretch tokens others origin target count) (le : origin ≤ position)
    (lt : position < origin + count) :
    Engine.kindAt tokens position =
      Engine.kindAt others (Syntagm.carried origin target position) := by
  have hview := congrArg (Option.map Prod.fst) (h.carried le lt)
  simp only [Option.map_map] at hview
  exact congrArg (·.getD Kind.endOfInput) hview

/-- A token of a kind at a place is a token of that kind at the other place, with the same
elements. -/
theorem filter_kind (h : SameStretch tokens others origin target count) (le : origin ≤ position)
    (lt : position < origin + count) (kind : Kind) :
    ((tokens[position]?).filter (·.kind = kind)).map StreamToken.view =
      ((others[Syntagm.carried origin target position]?).filter (·.kind = kind)).map
        StreamToken.view := by
  have hview := h.carried le lt
  cases hone : tokens[position]? with
  | none =>
    rw [hone] at hview
    have hnone := Option.map_eq_none_iff.mp hview.symm
    rw [hnone]
  | some token =>
    rw [hone] at hview
    obtain ⟨other, hother, heq⟩ := Option.map_eq_some_iff.mp hview.symm
    have hkind : other.kind = token.kind := congrArg Prod.fst heq
    rw [hother]
    by_cases hk : token.kind = kind
    · simp [Option.filter, hk, hkind, heq]
    · simp [Option.filter, hk, hkind]

end SameStretch

/-- **A program sees the same** in two stretches of `count` tokens: tokens of the same kinds, and
where an operation matches a token, the same elements. -/
structure CompiledGrammar.SeesSame (compiled : CompiledGrammar) (tokens others : Array StreamToken)
    (origin target count : Nat) : Prop where
  kind : ∀ position, origin ≤ position → position < origin + count →
    Engine.kindAt tokens position = Engine.kindAt others (carried origin target position)
  token : ∀ op kind, compiled.program.view op = .token kind →
    ∀ position, origin ≤ position → position < origin + count →
      ((tokens[position]?).filter (·.kind = kind)).map StreamToken.view =
        ((others[carried origin target position]?).filter (·.kind = kind)).map StreamToken.view

theorem SameStretch.seesSame {compiled : CompiledGrammar} {tokens others : Array StreamToken}
    {origin target count : Nat} (h : SameStretch tokens others origin target count) :
    compiled.SeesSame tokens others origin target count where
  kind _ le lt := h.kindAt le lt
  token _ kind _ _ le lt := h.filter_kind le lt kind

theorem Engine.tokenMatch_relocate {origin target position : Nat} {token other : StreamToken}
    (h : token.view = other.view) (le : origin ≤ position) :
    (Engine.tokenMatch token position).relocate origin target =
      Engine.tokenMatch other (carried origin target position) := by
  have hleading : token.leading = other.leading := congrArg (·.2.1) h
  have helement : token.element = other.element := congrArg (·.2.2) h
  simp only [Engine.tokenMatch, Match.relocate, hleading, helement, carried_succ le]

theorem Engine.emptyRound_relocate (origin target least position : Nat) (found : Match) :
    (emptyRound least position found).map (Match.relocate origin target) =
      emptyRound least (carried origin target position) (found.relocate origin target) := by
  match least with
  | 0 => rfl
  | 1 => rfl
  | _ + 2 => rfl

variable {compiled : CompiledGrammar} {tokens others : Array StreamToken} {goal : Goal}
  {position : Nat} {result : Option Match} {seen : Observation}

/-- A match in front of others, elsewhere. -/
theorem Match.relocate_prepend (origin target : Nat) (first : Match) (result : Option Match) :
    (result.map (first ++ ·)).map (relocate origin target) =
      (result.map (relocate origin target)).map (first.relocate origin target ++ ·) := by
  cases result <;> rfl

/-- **Evaluation is local.**  Where the program sees the same in the tokens that were looked at,
the evaluation goes the same way. -/
theorem Evaluates.carry (h : Evaluates compiled tokens goal position result seen)
    {origin target count : Nat} (same : compiled.SeesSame tokens others origin target count)
    (le : origin ≤ position) (fit : seen.lookahead ≤ origin + count) :
    Evaluates compiled others goal (carried origin target position)
      (result.map (Match.relocate origin target)) (seen.relocate origin target) := by
  induction h with
  | @token op position kind token view found =>
    have hlt : position < origin + count := fit
    obtain ⟨other, hother, heq⟩ := Option.map_eq_some_iff.mp
      ((same.token op kind view position le hlt).symm.trans (by rw [found]; rfl))
    rw [Option.map_some, Engine.tokenMatch_relocate heq.symm le, Observation.relocate_looked _ le]
    exact .token view hother
  | @otherToken op position kind view found =>
    have hlt : position < origin + count := by
      simp only [Observation.followedBy_lookahead, Observation.looked] at fit
      omega
    have hother := same.token op kind view position le hlt
    rw [found, Option.map_none, eq_comm, Option.map_eq_none_iff] at hother
    rw [Observation.relocate_followedBy target (.looked _ 0) (.failed ..) le le,
      Observation.relocate_looked _ le, Observation.relocate_failed]
    exact .otherToken view hother
  | seq view _ ih => exact .seq view (ih le fit)
  | @choice op position alternatives result seen view first ih =>
    simp only [Observation.followedBy_lookahead, Observation.looked] at fit
    -- pruning looks at the same kind, so the same alternatives are tried
    have hkind := same.kind position le (by omega)
    rw [Observation.relocate_followedBy target (.looked _ 0) first.confined.within le le,
      Observation.relocate_looked _ le]
    exact .choice view (hkind ▸ ih le (by omega))
  | repetition view _ ih => exact .repetition view (ih le fit)
  | @optional _ position _ result _ view _ ih =>
    have hone := ih le fit
    cases result with
    | none => exact .optional view hone
    | some found => exact .optional view hone
  | blank view => exact .blank view
  | callOp view _ ih => exact .callOp view (ih le fit)
  | allNil => exact .allNil
  | allFail _ ih => exact .allFail (ih le fit)
  | allCons head rest ihHead ihRest =>
    have hstop := Nat.le_trans le (head.confined.le_stop _ rfl)
    simp only [Observation.followedBy_lookahead] at fit
    rw [Observation.relocate_followedBy target head.confined.within rest.confined.within le hstop,
      Match.relocate_prepend]
    exact .allCons (ihHead le (by omega)) (ihRest hstop (by omega))
  | firstNil => exact .firstNil
  | firstPruned pruned rest ih =>
    simp only [Observation.followedBy_lookahead] at fit
    rw [Observation.relocate_followedBy target (.failed ..) rest.confined.within le le,
      Observation.relocate_failed]
    exact .firstPruned pruned (ih le (by omega))
  | firstFound tried _ ih => exact .firstFound tried (ih le fit)
  | firstNext tried head rest ihHead ihRest =>
    simp only [Observation.followedBy_lookahead] at fit
    rw [Observation.relocate_followedBy target head.confined.within rest.confined.within le le]
    exact .firstNext tried (ihHead le (by omega)) (ihRest le (by omega))
  | @manyEnd least _ position _ _ ih =>
    have hround := @Evaluates.manyEnd compiled others least _ _ _ (ih le fit)
    split at hround <;> rename_i hleast
    · rw [if_pos hleast]
      exact hround
    · rw [if_neg hleast]
      exact hround
  | @manyEmpty least _ position found _ round still ih =>
    rw [Engine.emptyRound_relocate]
    refine .manyEmpty (ih le fit) ?_
    have hstop := round.confined.le_stop found rfl
    rwa [Match.relocate_stop, carried_lt_iff le (Nat.le_trans le hstop)]
  | @manyMore least _ position found _ _ _ round moved rest ihRound ihRest =>
    have hstop := Nat.le_trans le (Nat.le_of_lt moved)
    simp only [Observation.followedBy_lookahead] at fit
    rw [Observation.relocate_followedBy target round.confined.within rest.confined.within le hstop,
      Match.relocate_prepend]
    exact .manyMore (ihRound le (by omega)) ((carried_lt_iff le hstop).mpr moved)
      (ihRest hstop (by omega))
  | tailNil => exact .tailNil
  | @tailFound _ _ position found _ head moved ih =>
    have hstop := head.confined.le_stop found rfl
    refine .tailFound (ih le fit) ?_
    have hlt : position < found.stop := Nat.lt_of_le_of_ne hstop (Ne.symm moved)
    have hcarried := (@carried_lt_iff origin target _ _ le (Nat.le_trans le hstop)).mpr hlt
    exact Nat.ne_of_gt hcarried
  | @tailNext tail tails position tried _ _ _ head still rest ihHead ihRest =>
    simp only [Observation.followedBy_lookahead] at fit
    rw [Observation.relocate_followedBy target head.confined.within rest.confined.within le le]
    refine .tailNext (ihHead le (by omega)) ?_ (ihRest le (by omega))
    cases tried with
    | none => rfl
    | some found =>
      have hstop : found.stop = position := by simpa [Option.filter] using still
      simp [Option.filter, hstop]
  | growEnd _ ih => exact .growEnd (ih le fit)
  | @growMore _ _ _ position next _ _ _ tail moved rest ihTail ihRest =>
    have hstop := Nat.le_trans le (Nat.le_of_lt moved)
    simp only [Observation.followedBy_lookahead] at fit
    rw [Observation.relocate_followedBy target tail.confined.within rest.confined.within le hstop]
    exact .growMore (ihTail le (by omega)) ((carried_lt_iff le hstop).mpr moved)
      (ihRest hstop (by omega))
  | plain body _ ih => exact .plain body (ih le fit)
  | noBase body _ ih => exact .noBase body (ih le fit)
  | base body entry rest ihEntry ihRest =>
    have hstop := Nat.le_trans le (entry.confined.le_stop _ rfl)
    simp only [Observation.followedBy_lookahead] at fit
    rw [Observation.relocate_followedBy target entry.confined.within rest.confined.within le hstop]
    exact .base body (ihEntry le (by omega)) (ihRest hstop (by omega))
  | noRule lookup => exact .noRule lookup
  | @call _ rule _ _ result _ lookup _ ih =>
    have hcall := Evaluates.call lookup (ih le fit)
    rw [Option.map_map] at hcall ⊢
    exact hcall
  | tooDeep => exact .tooDeep

/-- Where the tokens that were looked at look the same, the evaluation goes the same way. -/
theorem Evaluates.relocate (h : Evaluates compiled tokens goal position result seen)
    {origin target count : Nat} (same : SameStretch tokens others origin target count)
    (le : origin ≤ position) (fit : seen.lookahead ≤ origin + count) :
    Evaluates compiled others goal (carried origin target position)
      (result.map (Match.relocate origin target)) (seen.relocate origin target) :=
  h.carry same.seesSame le fit

/-- Where nothing that was looked at changes, nothing changes. -/
theorem Evaluates.stay (h : Evaluates compiled tokens goal position result seen) {count : Nat}
    (same : SameStretch tokens others 0 0 count) (fit : seen.lookahead ≤ count) :
    Evaluates compiled others goal position result seen := by
  have hmoved := h.relocate same (Nat.zero_le _) (by rwa [Nat.zero_add])
  have hposition : carried 0 0 position = position := rfl
  have hresult : result.map (Match.relocate 0 0) = result := by
    cases result <;> rfl
  rwa [hposition, hresult, Observation.relocate_zero] at hmoved

end Syntagm
