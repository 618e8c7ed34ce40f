import Mathlib.Data.List.Basic
import Syntagm.Parse.Recovery

/-!
# The stages of a session

A session goes from one error to the next.  Each time a repair is taken it gets to a new stage
(`RecoveryScope.next?`), and what it ends with is what it makes of its last stage
(`RecoveryScope.recover_eq_last`).  The sites of the stages whose runs failed are those of the
errors that it handles, and these are what it reports, unless it gives up
(`RecoveryScope.ranges_recover`).
-/

namespace Syntagm

/-- Where a session stands: the repairs so far, what was reported, and what the last run gave. -/
structure Stage where
  repairs : List Repair
  errors : List Diagnostic
  outcome : Outcome
  state : RecoveryState

namespace RecoveryScope

/-! ### Stages -/

section Stages
variable (scope : RecoveryScope)

/-- The site of a stage whose run failed. -/
def site (stage : Stage) : Nat := scope.siteOf stage.outcome stage.state

/-- The stage after a repair, if the run of a stage failed and a repair is taken. -/
def next? (stage : Stage) : Option Stage :=
  if stage.outcome.isSuccess then none
  else
    let site := scope.site stage
    let found := scope.find? stage.repairs stage.outcome site stage.state
    found.1.map fun accepted =>
      let error := scope.report site stage.outcome (some accepted.recovery)
      ⟨accepted.repairs, stage.errors ++ [error], accepted.outcome, found.2⟩

/-- The stages from one on, with at most `count` repairs more. -/
def stagesFrom (stage : Stage) : (count : Nat) → List Stage
  | 0 => [stage]
  | count + 1 =>
    match scope.next? stage with
    | none => [stage]
    | some next => stage :: stagesFrom next count

/-- The stage after the first run, if there is a run at all. -/
def first? (seed : Memo) : Option Stage :=
  let found := scope.trial? [] ⟨scope.source.stream [], seed, 0, [], false⟩
  found.1.map fun outcome => ⟨[], [], outcome, found.2⟩

/-- The stages of a session. -/
def stages (seed : Memo) : List Stage :=
  match scope.first? seed with
  | none => []
  | some stage => scope.stagesFrom stage scope.options.maxRepairs

/-- The sites of the errors that a session handles, one after the other. -/
def errorSites (seed : Memo) : List Nat :=
  ((scope.stages seed).filter (!·.outcome.isSuccess)).map scope.site

/-- How many repairs a session takes at the end of the input.  One is taken at each stage but
the last. -/
def repairsAtEnd (seed : Memo) : Nat :=
  (scope.stages seed).dropLast.countP (scope.site · = scope.source.size)

/-- What the search makes of a stage. -/
def searchFrom (stage : Stage) (count : Nat) : Recovered :=
  scope.search stage.repairs stage.errors stage.outcome stage.state count

end Stages

variable {scope : RecoveryScope} {stage following : Stage} {count : Nat}

theorem fragment_of_not_isSuccess {outcome : Outcome} (failed : outcome.isSuccess = false) :
    outcome.fragment = none := by
  cases hfragment : outcome.fragment with
  | none => rfl
  | some fragment =>
    rw [Outcome.isSuccess, hfragment] at failed
    cases failed

theorem isSuccess_of_fragment {outcome : Outcome} {fragment : Fragment}
    (matched : outcome.fragment = some fragment) : outcome.isSuccess = true := by
  rw [Outcome.isSuccess, matched]
  rfl

theorem not_isSuccess_of_fragment {outcome : Outcome} (unmatched : outcome.fragment = none) :
    outcome.isSuccess = false := by
  rw [Outcome.isSuccess, unmatched]
  rfl

theorem of_next? (next : scope.next? stage = some following) :
    stage.outcome.isSuccess = false ∧ ∃ accepted state,
      scope.find? stage.repairs stage.outcome (scope.site stage) stage.state =
        (some accepted, state) ∧
      following = ⟨accepted.repairs,
        stage.errors ++ [scope.report (scope.site stage) stage.outcome (some accepted.recovery)],
        accepted.outcome, state⟩ := by
  unfold next? at next
  split at next
  · cases next
  · rename_i hfailed
    obtain ⟨accepted, haccepted, rfl⟩ := Option.map_eq_some_iff.mp next
    exact ⟨Bool.eq_false_iff.mpr hfailed, accepted, _, Prod.ext haccepted rfl, rfl⟩

/-- **The search goes on from the next stage.** -/
theorem searchFrom_next (next : scope.next? stage = some following) (count : Nat) :
    scope.searchFrom stage (count + 1) = scope.searchFrom following count := by
  obtain ⟨hfailed, accepted, state, hfind, rfl⟩ := of_next? next
  unfold site at hfind ⊢
  rw [searchFrom, search, fragment_of_not_isSuccess hfailed]
  simp only [hfind]
  rfl

theorem of_first? {seed : Memo} (first : scope.first? seed = some stage) : ∃ outcome state,
    scope.trial? [] ⟨scope.source.stream [], seed, 0, [], false⟩ = (some outcome, state) ∧
      stage = ⟨[], [], outcome, state⟩ := by
  obtain ⟨outcome, houtcome, rfl⟩ := Option.map_eq_some_iff.mp first
  exact ⟨outcome, _, Prod.ext houtcome rfl, rfl⟩

/-- A session searches from its first stage. -/
theorem recover_of_first? {seed : Memo} (first : scope.first? seed = some stage) :
    scope.recover seed = scope.searchFrom stage scope.options.maxRepairs := by
  obtain ⟨outcome, state, htrial, rfl⟩ := of_first? first
  rw [recover]
  simp only [htrial]
  rfl

/-- **What a search ends with is what it makes of its last stage**, where it goes no farther. -/
theorem searchFrom_eq_last (scope : RecoveryScope) (stage : Stage) (count : Nat) :
    ∃ last left, (scope.stagesFrom stage count).getLast? = some last ∧
      (left = 0 ∨ scope.next? last = none) ∧
      scope.searchFrom stage count = scope.searchFrom last left := by
  induction count generalizing stage with
  | zero => exact ⟨stage, 0, rfl, .inl rfl, rfl⟩
  | succ count ih =>
    rw [stagesFrom]
    split
    · rename_i hnext
      exact ⟨stage, count + 1, rfl, .inr hnext, rfl⟩
    · rename_i following hnext
      obtain ⟨last, left, hlast, hend, heq⟩ := ih following
      refine ⟨last, left, ?_, hend, (searchFrom_next hnext count).trans heq⟩
      rw [List.getLast?_cons, hlast]
      rfl

theorem recover_eq_last {seed : Memo} {last : Stage}
    (h : (scope.stages seed).getLast? = some last) :
    ∃ left, (left = 0 ∨ scope.next? last = none) ∧
      scope.recover seed = scope.searchFrom last left := by
  rw [stages] at h
  split at h
  · cases h
  · rename_i stage hfirst
    obtain ⟨last', left, hlast, hend, heq⟩ :=
      scope.searchFrom_eq_last stage scope.options.maxRepairs
    obtain rfl := Option.some.inj (hlast.symm.trans h)
    exact ⟨left, hend, (recover_of_first? hfirst).trans heq⟩

theorem searchFrom_of_success (success : stage.outcome.isSuccess = true) (count : Nat) :
    (scope.searchFrom stage count).outcomes = stage.state.outcomes := by
  obtain ⟨fragment, hfragment⟩ := Option.isSome_iff_exists.mp success
  cases count <;> simp only [searchFrom, search, hfragment] <;> rfl

/-! ### Reports -/

theorem ranges_truncate (repairs : List Repair) (errors : List Diagnostic) (site : Nat)
    (failed : Outcome) (state : RecoveryState) :
    (∃ error, (scope.truncate repairs errors site failed state).errors = [error]) ∨
      (scope.truncate repairs errors site failed state).errors.map (·.range) =
        errors.map (·.range) ++ [scope.source.range site] := by
  simp only [truncate]
  split
  · exact .inl ⟨_, rfl⟩
  · refine .inr ?_
    simp only [succeed, List.map_append]
    rfl

/-- What is reported if the search goes no farther. -/
theorem ranges_last (last : count = 0 ∨ scope.next? stage = none) :
    (∃ error, (scope.searchFrom stage count).errors = [error]) ∨
      (scope.searchFrom stage count).errors.map (·.range) = stage.errors.map (·.range) ++
        ([stage].filter (!·.outcome.isSuccess)).map fun stage =>
          scope.source.range (scope.site stage) := by
  cases hfragment : stage.outcome.fragment with
  | some fragment =>
    have hsuccess := isSuccess_of_fragment hfragment
    refine .inr ?_
    cases count <;> simp [searchFrom, search, hfragment, hsuccess, succeed]
  | none =>
    have hfailed := not_isSuccess_of_fragment hfragment
    simp only [List.filter_singleton, hfailed, Bool.not_false]
    cases count with
    | zero =>
      simp only [searchFrom, search, hfragment]
      split
      · exact .inl ⟨_, rfl⟩
      · exact ranges_truncate ..
    | succ count =>
      -- no repair is taken, so the rest is left out
      have hnone := last.resolve_left (Nat.succ_ne_zero count)
      rw [next?, if_neg (by simp [hfailed]), Option.map_eq_none_iff] at hnone
      unfold site at hnone
      simp only [searchFrom, search, hfragment]
      split
      · exact ranges_truncate ..
      · rename_i hsome
        rw [hsome] at hnone
        cases hnone

/-- **A search reports each error that it handles, and nothing else**, or it gives up. -/
theorem ranges_searchFrom (stage : Stage) (count : Nat) :
    (∃ error, (scope.searchFrom stage count).errors = [error]) ∨
      (scope.searchFrom stage count).errors.map (·.range) = stage.errors.map (·.range) ++
        ((scope.stagesFrom stage count).filter (!·.outcome.isSuccess)).map fun stage =>
          scope.source.range (scope.site stage) := by
  induction count generalizing stage with
  | zero => exact ranges_last (.inl rfl)
  | succ count ih =>
    rw [stagesFrom]
    split
    · rename_i hnext
      exact ranges_last (.inr hnext)
    · rename_i following hnext
      rw [searchFrom_next hnext]
      obtain ⟨hfailed, accepted, state, -, hfollowing⟩ := of_next? hnext
      refine (ih following).imp_right fun hranges => ?_
      rw [hranges, List.filter_cons_of_pos (by simp [hfailed]), hfollowing, List.map_append,
        List.append_assoc]
      rfl

/-- **A session reports the errors that it handles**, or gives up and reports one. -/
theorem ranges_recover (scope : RecoveryScope) (seed : Memo) :
    (∃ error, (scope.recover seed).errors = [error]) ∨
      (scope.recover seed).errors.map (·.range) =
        (scope.errorSites seed).map scope.source.range := by
  rw [errorSites, stages]
  cases hfirst : scope.first? seed with
  | none =>
    have hnone := Option.map_eq_none_iff.mp hfirst
    rw [recover]
    split
    · exact .inl ⟨_, rfl⟩
    · rename_i htrial
      rw [htrial] at hnone
      cases hnone
  | some stage =>
    obtain ⟨outcome, state, -, rfl⟩ := of_first? hfirst
    rw [recover_of_first? hfirst]
    refine (ranges_searchFrom ⟨[], [], outcome, state⟩ _).imp_right fun hranges => ?_
    rw [List.map_map]
    exact hranges

end RecoveryScope

end Syntagm
