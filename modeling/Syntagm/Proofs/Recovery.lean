import Syntagm.Parse.Recovery
import Syntagm.Proofs.Stream

/-!
# What a recovery session can do

A session changes its state by counting trials, by noting sums that are no words, and by running
the engine with repairs, and the tokens it puts in are never of a reserved kind.  So whatever holds
at first and is kept by these steps holds throughout (`Keeps`), and what every run gives, the run
behind the result gave as well.

Each step of the search has a lemma that says so.  They end in `Keeps.recover`: a session either
**succeeds** with what its last run matched, or **gives up** (`Settled`).
-/

namespace Syntagm

/-- No repair puts a token of a reserved kind in. -/
def Fitting (repairs : List Repair) : Prop :=
  ∀ repair ∈ repairs, repair.Inserts fun kind => kind.isReserved = false

theorem Fitting.nil : Fitting [] := fun _ h => (nomatch h)

theorem Fitting.add {repairs more : List Repair} (h : Fitting repairs) (h' : Fitting more) :
    Fitting (Repair.add repairs more) := by
  intro repair hmem
  rcases List.mem_append.mp (List.mem_mergeSort.mp hmem) with hmem | hmem
  · exact h repair hmem
  · exact h' repair hmem

theorem Fitting.skip (start stop : Nat) : Fitting [.skip start stop] := by
  intro repair hmem
  obtain rfl := List.mem_singleton.mp hmem
  trivial

theorem Fitting.insert (site : Nat) {kind : Kind} (h : kind.isReserved = false) :
    Fitting [.insert site kind] := by
  intro repair hmem
  obtain rfl := List.mem_singleton.mp hmem
  exact h

namespace RecoveryScope

theorem not_reserved_of_insertable {outcome : Outcome} :
    ∀ kind ∈ insertable outcome, kind.isReserved = false := by
  intro kind hmem
  simpa using (List.mem_filter.mp hmem).2

theorem fitting_candidates (scope : RecoveryScope) {repairs : List Repair} {kinds : List Kind}
    (fits : Fitting repairs) (hkinds : ∀ kind ∈ kinds, kind.isReserved = false) (site : Nat) :
    ∀ candidate ∈ scope.candidates repairs kinds site, Fitting candidate.repairs := by
  have resuming (point : Nat) :
      ∀ candidate ∈ scope.resumeCandidates repairs kinds site point,
        Fitting candidate.repairs := by
    intro candidate hmem
    rcases List.mem_append.mp hmem with hmem | hmem
    · split at hmem
      · obtain rfl := List.mem_singleton.mp hmem
        exact fits.add (.skip _ _)
      · cases hmem
    · obtain ⟨kind, hkind, rfl⟩ := List.mem_map.mp hmem
      refine fits.add (List.forall_mem_cons.mpr ⟨trivial, ?_⟩)
      exact Fitting.insert point (hkinds kind hkind)
  intro candidate hmem
  simp only [candidates, List.cons_append, List.mem_cons, List.mem_append, List.mem_flatMap,
    List.not_mem_nil, or_false] at hmem
  rcases hmem with rfl | (hmem | ⟨point, -, hmem⟩) | rfl
  · exact fits.add (.skip _ _)
  · split at hmem
    · obtain ⟨kind, hkind, rfl⟩ := List.mem_map.mp hmem
      exact fits.add (.insert site (hkinds kind hkind))
    · cases hmem
  · exact resuming point candidate hmem
  · exact fits.add (.skip _ _)

/-- Some sum that a session may form is no word. -/
def CanStray (scope : RecoveryScope) : Prop :=
  ∃ site < scope.source.size, scope.strays site = true

theorem canStray_of_mem_candidates (scope : RecoveryScope) {repairs : List Repair}
    {kinds : List Kind} {site : Nat} (inside : site < scope.source.size) :
    ∀ candidate ∈ scope.candidates repairs kinds site,
      candidate.strays = true → scope.CanStray := by
  have resuming (point : Nat) :
      ∀ candidate ∈ scope.resumeCandidates repairs kinds site point,
        candidate.strays = scope.strays site := by
    intro candidate hmem
    rcases List.mem_append.mp hmem with hmem | hmem
    · split at hmem
      · obtain rfl := List.mem_singleton.mp hmem
        rfl
      · cases hmem
    · obtain ⟨kind, -, rfl⟩ := List.mem_map.mp hmem
      rfl
  intro candidate hmem hstrays
  simp only [candidates, List.cons_append, List.mem_cons, List.mem_append, List.mem_flatMap,
    List.not_mem_nil, or_false] at hmem
  rcases hmem with rfl | (hmem | ⟨point, -, hmem⟩) | rfl
  · cases hstrays
  · split at hmem
    · obtain ⟨kind, -, rfl⟩ := List.mem_map.mp hmem
      cases hstrays
    · cases hmem
  · exact ⟨site, inside, (resuming point candidate hmem).symm.trans hstrays⟩
  · exact ⟨site, inside, hstrays⟩

/-! ### Invariants of sessions -/

/-- **An invariant of sessions.**  `Holds` is kept by counting a trial, by noting a sum that is no
word, and by running with fitting repairs, and each such run gives what `Gives` says. -/
structure Keeps (scope : RecoveryScope) (Holds : RecoveryState → Prop)
    (Gives : Outcome → RecoveryState → Prop) : Prop where
  count : ∀ state trials, Holds state → Holds { state with trials := trials }
  straying : ∀ state, scope.CanStray → Holds state → Holds (state.straying true)
  run : ∀ repairs state, Fitting repairs → Holds state → Holds (scope.run repairs state).2
  gives : ∀ repairs state, Fitting repairs → Holds state →
    Gives (scope.run repairs state).1 (scope.run repairs state).2

/-- What a session ends with: it succeeds with what its last run matched, or it gives up. -/
inductive Settled (scope : RecoveryScope) (Holds : RecoveryState → Prop)
    (Gives : Outcome → RecoveryState → Prop) : Recovered → Prop where
  | success {outcome fragment} (errors : List Diagnostic) {state} (holds : Holds state)
      (gives : Gives outcome state) (matched : outcome.fragment = some fragment) :
      Settled scope Holds Gives (scope.succeed fragment errors state)
  | abandoned (errors : List Diagnostic) (current : Option (Nat × Outcome)) {state}
      (holds : Holds state) : Settled scope Holds Gives (scope.abandon errors current state)

namespace Keeps

variable {scope : RecoveryScope} {Holds : RecoveryState → Prop}
  {Gives : Outcome → RecoveryState → Prop} (h : scope.Keeps Holds Gives)
  {state : RecoveryState} {repairs : List Repair}

/-- What a step that looks for a repair gives. -/
structure Finds (Holds : RecoveryState → Prop) (Gives : Outcome → RecoveryState → Prop)
    (found : Option Accepted × RecoveryState) : Prop where
  holds : Holds found.2
  accepted : ∀ accepted, found.1 = some accepted →
    Fitting accepted.repairs ∧ Gives accepted.outcome found.2

theorem Finds.none (holds : Holds state) : Finds Holds Gives (none, state) :=
  ⟨holds, fun _ hnone => (nomatch hnone)⟩

theorem Finds.some {accepted : Accepted} (holds : Holds state) (fits : Fitting accepted.repairs)
    (gives : Gives accepted.outcome state) : Finds Holds Gives (some accepted, state) := by
  refine ⟨holds, ?_⟩
  rintro _ ⟨⟩
  exact ⟨fits, gives⟩

include h

theorem trial? (fits : Fitting repairs) (hstate : Holds state) :
    Holds (scope.trial? repairs state).2 ∧ ∀ outcome,
      (scope.trial? repairs state).1 = .some outcome →
        Gives outcome (scope.trial? repairs state).2 := by
  unfold RecoveryScope.trial?
  split
  · have hcounted := h.count state (state.trials + 1) hstate
    refine ⟨h.run repairs _ fits hcounted, ?_⟩
    rintro _ ⟨⟩
    exact h.gives repairs _ fits hcounted
  · exact ⟨hstate, fun _ hnone => (nomatch hnone)⟩

theorem noting {strays : Bool} (words : strays = true → scope.CanStray) (hstate : Holds state) :
    Holds (state.straying strays) := by
  cases strays with
  | true => exact h.straying state (words rfl) hstate
  | false =>
    rw [RecoveryState.straying, Bool.or_false]
    exact hstate

theorem tryAll? (candidates : List Candidate)
    (fits : ∀ candidate ∈ candidates, Fitting candidate.repairs)
    (words : ∀ candidate ∈ candidates, candidate.strays = true → scope.CanStray)
    (hstate : Holds state) :
    Finds Holds Gives (scope.tryAll? candidates state) := by
  induction candidates generalizing state with
  | nil => exact .none hstate
  | cons first rest ih =>
    have hfits := fits first List.mem_cons_self
    obtain ⟨hholds, hgives⟩ := h.trial? hfits (h.noting (words first List.mem_cons_self) hstate)
    rw [RecoveryScope.tryAll?]
    split
    · rename_i next htrial
      rw [htrial] at hholds
      exact .none hholds
    · rename_i outcome next htrial
      rw [htrial] at hholds hgives
      split
      · exact .some hholds hfits (hgives outcome rfl)
      · exact ih (fun candidate hmem => fits candidate (List.mem_cons_of_mem _ hmem))
          (fun candidate hmem => words candidate (List.mem_cons_of_mem _ hmem)) hholds

theorem complete? (fits : Fitting repairs) (failed : Outcome) (fallback : Option Kind)
    (hfallback : ∀ kind, fallback = .some kind → kind.isReserved = false) (kinds : List Kind)
    (hkinds : ∀ kind ∈ kinds, kind.isReserved = false) (hstate : Holds state) :
    Finds Holds Gives (scope.complete? repairs failed fallback kinds state) := by
  have attempt {kind : Kind} (hkind : kind.isReserved = false) :
      Fitting (Repair.add repairs [.insert scope.source.size kind]) :=
    fits.add (.insert _ hkind)
  induction kinds generalizing fallback state with
  | nil =>
    cases fallback with
    | none => exact .none hstate
    | some kind =>
      have hfits := attempt (hfallback kind rfl)
      obtain ⟨hholds, hgives⟩ := h.trial? hfits hstate
      refine ⟨hholds, fun accepted haccepted => ?_⟩
      obtain ⟨outcome, houtcome, rfl⟩ := Option.map_eq_some_iff.mp haccepted
      exact ⟨hfits, hgives outcome houtcome⟩
  | cons kind rest ih =>
    obtain ⟨hkind, hrest⟩ := List.forall_mem_cons.mp hkinds
    obtain ⟨hholds, hgives⟩ := h.trial? (attempt hkind) hstate
    rw [RecoveryScope.complete?]
    split
    · rename_i next htrial
      rw [htrial] at hholds
      exact .none hholds
    · rename_i outcome next htrial
      rw [htrial] at hholds hgives
      split
      · exact .some hholds (attempt hkind) (hgives outcome rfl)
      · refine ih _ (fun other hother => ?_) hrest hholds
        split at hother
        · obtain rfl := Option.some.inj hother
          exact hkind
        · exact hfallback other hother

theorem repair? (fits : Fitting repairs) (failed : Outcome) (site : Nat) (hstate : Holds state) :
    Finds Holds Gives (scope.repair? repairs failed site state) := by
  simp only [RecoveryScope.repair?]
  split
  · rename_i inside
    exact h.tryAll? _ (scope.fitting_candidates fits not_reserved_of_insertable site)
      (scope.canStray_of_mem_candidates inside) hstate
  · split
    · exact h.complete? fits failed .none (fun _ hnone => (nomatch hnone)) _
        not_reserved_of_insertable hstate
    · exact .none hstate

theorem unnestAt (fits : Fitting repairs) (site past : Nat) (best : Option (Nat × Nat))
    (points : List Nat) (hstate : Holds state) :
    Finds Holds Gives ((scope.unnestAt repairs site past best points state).1.1,
      (scope.unnestAt repairs site past best points state).2) := by
  induction points generalizing best state with
  | nil => exact .none hstate
  | cons point rest ih =>
    have hfits := fits.add (.skip site point)
    obtain ⟨hholds, hgives⟩ := h.trial? hfits hstate
    rw [RecoveryScope.unnestAt]
    split
    · rename_i next htrial
      rw [htrial] at hholds
      exact .none hholds
    · rename_i outcome next htrial
      rw [htrial] at hholds hgives
      split
      · exact .some hholds hfits (hgives outcome rfl)
      · exact ih _ hholds

theorem unnest? (fits : Fitting repairs) (overflow : Overflow) (site : Nat)
    (hstate : Holds state) :
    Finds Holds Gives (scope.unnest? repairs overflow site state) := by
  have hpoints := h.unnestAt fits site (max (scope.siteAt state overflow.position) site) .none
    (List.range' (site + 1) (scope.source.size - site)) hstate
  simp only [RecoveryScope.unnest?]
  generalize scope.unnestAt repairs site _ .none _ state = found at hpoints ⊢
  obtain ⟨⟨accepted, best⟩, next⟩ := found
  match accepted, best with
  | .some accepted, _ => exact hpoints
  | .none, .some (point, _) =>
    have hfits := fits.add (.skip site point)
    exact .some (h.run _ _ hfits hpoints.holds) hfits (h.gives _ _ hfits hpoints.holds)
  | .none, .none => exact .none hpoints.holds

/-! ### The end of the input -/

theorem insertAtEnd (fits : Fitting repairs) (failed : Outcome) (best : Option (List Repair))
    (hbest : ∀ attempt, best = .some attempt → Fitting attempt) (kinds : List Kind)
    (hkinds : ∀ kind ∈ kinds, kind.isReserved = false) (hstate : Holds state) :
    Holds (scope.insertAtEnd repairs failed best kinds state).2 ∧
      ∀ attempt, (scope.insertAtEnd repairs failed best kinds state).1 = .some attempt →
        Fitting attempt := by
  induction kinds generalizing best state with
  | nil => exact ⟨hstate, hbest⟩
  | cons kind rest ih =>
    obtain ⟨hkind, hrest⟩ := List.forall_mem_cons.mp hkinds
    have hfits := fits.add (.insert scope.source.size hkind)
    have hholds := h.run _ _ hfits hstate
    simp only [RecoveryScope.insertAtEnd]
    split
    · refine ⟨hholds, ?_⟩
      rintro _ ⟨⟩
      exact hfits
    · refine ih _ (fun attempt hattempt => ?_) hrest hholds
      split at hattempt
      · obtain rfl := Option.some.inj hattempt
        exact hfits
      · exact hbest attempt hattempt

/-- What completing the input leads to.  If it fails, the outcome may be one of an earlier
run. -/
structure Completes (Holds : RecoveryState → Prop) (Gives : Outcome → RecoveryState → Prop)
    (completed : Outcome × RecoveryState) : Prop where
  holds : Holds completed.2
  gives : completed.1.fragment = .none ∨ Gives completed.1 completed.2

theorem completeAtEnd (fits : Fitting repairs) (outcome : Outcome) (count : Nat)
    (hstate : Completes Holds Gives (outcome, state)) :
    Completes Holds Gives (scope.completeAtEnd repairs outcome state count) := by
  induction count generalizing repairs outcome state with
  | zero => exact hstate
  | succ count ih =>
    simp only [RecoveryScope.completeAtEnd]
    split
    · exact hstate
    · rename_i hfailed
      obtain ⟨hholds, hattempt⟩ := h.insertAtEnd fits outcome .none
        (fun _ hnone => (nomatch hnone)) (insertable outcome) not_reserved_of_insertable
        hstate.holds
      generalize scope.insertAtEnd repairs outcome .none _ state = inserted at hholds hattempt ⊢
      obtain ⟨attempt, next⟩ := inserted
      cases attempt with
      | none =>
        -- only a run that failed is completed, and nothing is known of its outcome but that
        have hnone : outcome.fragment = .none := by
          simp only [Bool.or_eq_true, not_or] at hfailed
          simpa [Outcome.isSuccess] using hfailed.1.1
        exact ⟨hholds, .inl hnone⟩
      | some attempt =>
        have hfits := hattempt attempt rfl
        exact ih hfits _ ⟨h.run _ _ hfits hholds, .inr (h.gives _ _ hfits hholds)⟩

theorem truncate (fits : Fitting repairs) (errors : List Diagnostic) (site : Nat)
    (failed : Outcome) (hstate : Holds state) :
    Settled scope Holds Gives (scope.truncate repairs errors site failed state) := by
  simp only [RecoveryScope.truncate]
  generalize hall : (if site < scope.source.size then
    Repair.add repairs [.skip site scope.source.size] else repairs) = all
  have hfits : Fitting all := by
    rw [← hall]
    split
    · exact fits.add (.skip _ _)
    · exact fits
  have hcompleted : Completes Holds Gives (scope.completeAtEnd all (scope.run all state).1
      (scope.run all state).2 scope.options.maxInsertions) :=
    h.completeAtEnd hfits _ _ ⟨h.run _ _ hfits hstate, .inr (h.gives _ _ hfits hstate)⟩
  generalize scope.completeAtEnd all (scope.run all state).1 (scope.run all state).2
    scope.options.maxInsertions = completed at hcompleted ⊢
  obtain ⟨outcome, next⟩ := completed
  cases hfragment : outcome.fragment with
  | none => exact .abandoned _ _ hcompleted.holds
  | some fragment =>
    refine .success _ hcompleted.holds (hcompleted.gives.resolve_left ?_) hfragment
    simp [hfragment]

/-! ### The search -/

theorem find? (fits : Fitting repairs) (outcome : Outcome) (site : Nat) (hstate : Holds state) :
    Finds Holds Gives (scope.find? repairs outcome site state) := by
  unfold RecoveryScope.find?
  split
  · exact h.unnest? fits _ site hstate
  · exact h.repair? fits outcome site hstate

theorem search (fits : Fitting repairs) (errors : List Diagnostic) (outcome : Outcome)
    (count : Nat) (hstate : Holds state) (hgives : Gives outcome state) :
    Settled scope Holds Gives (scope.search repairs errors outcome state count) := by
  induction count generalizing repairs errors outcome state with
  | zero =>
    simp only [RecoveryScope.search]
    split
    · rename_i fragment hfragment
      exact .success errors hstate hgives hfragment
    · split
      · exact .abandoned _ _ hstate
      · exact h.truncate fits errors _ outcome hstate
  | succ count ih =>
    simp only [RecoveryScope.search]
    split
    · rename_i fragment hfragment
      exact .success errors hstate hgives hfragment
    · have hfound := h.find? fits outcome (scope.siteOf outcome state) hstate
      generalize scope.find? repairs outcome _ state = found at hfound ⊢
      obtain ⟨accepted, next⟩ := found
      cases accepted with
      | none => exact h.truncate fits errors _ outcome hfound.holds
      | some accepted =>
        obtain ⟨hfits, hnext⟩ := hfound.accepted accepted rfl
        exact ih hfits _ _ hfound.holds hnext

/-- **A session succeeds with what its last run matched, or gives up.** -/
theorem recover (seed : Memo) (hstart : Holds ⟨scope.source.stream [], seed, 0, [], false⟩) :
    Settled scope Holds Gives (scope.recover seed) := by
  obtain ⟨hholds, hgives⟩ := h.trial? .nil hstart
  simp only [RecoveryScope.recover]
  split
  · rename_i next htrial
    rw [htrial] at hholds
    exact .abandoned _ _ hholds
  · rename_i outcome next htrial
    rw [htrial] at hholds hgives
    exact h.search .nil [] outcome _ hholds (hgives outcome rfl)

end Keeps

/-! ### Words -/

/-- **A session leaves its words** only where a sum that it may form is no word. -/
theorem canStray_of_strayed_recover {scope : RecoveryScope} {seed : Memo}
    (strayed : (scope.recover seed).strayed = true) : scope.CanStray := by
  have hkeeps : scope.Keeps (fun state => state.strayed = true → scope.CanStray)
      fun _ _ => True :=
    { count := fun _ _ hstate => hstate
      straying := fun _ can _ _ => can
      run := fun _ _ _ hstate => hstate
      gives := fun _ _ _ _ => trivial }
  have hsettled := hkeeps.recover seed fun hstrayed => nomatch hstrayed
  generalize scope.recover seed = recovered at strayed hsettled
  cases hsettled with
  | success _ holds => exact holds strayed
  | abandoned _ _ holds => exact holds strayed

/-- It does not where the grammar names tokens to resume at, or the window is not wider than the
words allow behind the last token. -/
theorem not_canStray {scope : RecoveryScope}
    (room : scope.compiled.sync.isEmpty = true →
      scope.source.size + scope.options.syncWindow ≤ UInt64.size) : ¬ scope.CanStray := by
  rintro ⟨site, hsite, hstrays⟩
  obtain ⟨hempty, hsum⟩ := Bool.and_eq_true_iff.mp hstrays
  have hsum := of_decide_eq_true hsum
  have hroom := room hempty
  omega

/-! ### Sessions without errors -/

section Reports
variable {scope : RecoveryScope}

theorem errors_truncate_ne_nil (repairs : List Repair) (errors : List Diagnostic) (site : Nat)
    (failed : Outcome) (state : RecoveryState) :
    (scope.truncate repairs errors site failed state).errors ≠ [] := by
  simp only [truncate]
  split
  · exact List.cons_ne_nil _ _
  · exact List.append_ne_nil_of_right_ne_nil _ (List.cons_ne_nil _ _)

/-- What failed is reported, and what was reported stays so. -/
theorem errors_search_ne_nil (repairs : List Repair) {errors : List Diagnostic} {outcome : Outcome}
    (state : RecoveryState) (count : Nat) (wrong : errors ≠ [] ∨ outcome.fragment = none) :
    (scope.search repairs errors outcome state count).errors ≠ [] := by
  induction count generalizing repairs errors outcome state with
  | zero =>
    simp only [search]
    split
    · exact wrong.resolve_right (by simp [*])
    · split
      · exact List.cons_ne_nil _ _
      · exact errors_truncate_ne_nil _ _ _ _ _
  | succ count ih =>
    simp only [search]
    split
    · exact wrong.resolve_right (by simp [*])
    · split
      · exact errors_truncate_ne_nil _ _ _ _ _
      · exact ih _ _ (.inl (List.append_ne_nil_of_right_ne_nil _ (List.cons_ne_nil _ _)))

/-- A session whose first run succeeds. -/
theorem recover_of_success (seed : Memo) (budget : 0 < scope.options.maxTrials)
    {fragment : Fragment}
    (success :
      (scope.run [] ⟨scope.source.stream [], seed, 1, [], false⟩).1.fragment = some fragment) :
    scope.recover seed =
      scope.succeed fragment [] (scope.run [] ⟨scope.source.stream [], seed, 1, [], false⟩).2 := by
  simp only [recover, trial?, if_pos budget, Nat.zero_add]
  cases scope.options.maxRepairs <;> simp only [search, success]

/-- **A session reports nothing if and only if its first run succeeds.** -/
theorem errors_recover_eq_nil_iff (seed : Memo) (budget : 0 < scope.options.maxTrials) :
    (scope.recover seed).errors = [] ↔
      (scope.run [] ⟨scope.source.stream [], seed, 1, [], false⟩).1.isSuccess = true := by
  rw [Outcome.isSuccess]
  cases hfragment : (scope.run [] ⟨scope.source.stream [], seed, 1, [], false⟩).1.fragment with
  | some fragment =>
    rw [recover_of_success seed budget hfragment]
    simp [succeed]
  | none =>
    simp only [recover, trial?, if_pos budget, Nat.zero_add]
    simpa using errors_search_ne_nil [] _ _ (.inr hfragment)

end Reports

end RecoveryScope

end Syntagm
