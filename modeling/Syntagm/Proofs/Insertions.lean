import Syntagm.Proofs.Advance
import Syntagm.Proofs.MissingTokens
import Syntagm.Proofs.Skeleton

/-!
# How many tokens are put in at one place

The options say how many tokens may be put in in front of one token.  A session heeds this limit
where it puts in a single token, which it counts by the place.  Where it leaves input out to resume
behind it, it may put in one token more without counting (`RecoveryScope.PutsIn`), and where it cuts
the text off, it completes what is left with a count of its own (`RecoveryScope.Concludes`).

So the limit does not bound what is put in, but what is put in beyond it is bounded
(`RecoveryScope.Capped`): one token for each time that parsing resumes, and at the end of the input
as many as the limit once more.  If no run is cut by the limit on depth, sites only increase, and a
token is put in in front of another one at most once (`RecoveryScope.Sparse`).
-/

namespace Syntagm

open Repair (insertionsAt insertionsAt_add)

/-- Whether an error was got past by leaving input out and then putting a token in. -/
def Diagnostic.resumesWithToken (diagnostic : Diagnostic) : Bool :=
  match diagnostic.recovery with
  | some (.synchronized (some _)) => true
  | _ => false

/-- How many of some errors were got past by leaving input out and then putting a token in. -/
def resumptions (errors : List Diagnostic) : Nat := errors.countP (·.resumesWithToken)

@[simp] theorem resumptions_concat (errors : List Diagnostic) (error : Diagnostic) :
    resumptions (errors ++ [error]) =
      resumptions errors + if error.resumesWithToken then 1 else 0 := by
  rw [resumptions, List.countP_append, List.countP_singleton]
  rfl

namespace RecoveryScope

variable {scope : RecoveryScope} {stage following last : Stage}

/-! ### What a repair puts in -/

/-- **What a repair that is taken puts in**: nothing; one token at the site, where the options leave
room for it; or, whatever the options say, one token behind what is left out, which the next run
then has to pass. -/
inductive PutsIn (scope : RecoveryScope) (repairs : List Repair) (site : Nat)
    (accepted : Accepted) (after : RecoveryState) : Prop where
  | nothing (same : ∀ place, insertionsAt accepted.repairs place = insertionsAt repairs place)
  | counted (room : insertionsAt repairs site < scope.options.maxInsertions)
      (repaired : ∀ place, insertionsAt accepted.repairs place =
        insertionsAt repairs place + if site = place then 1 else 0)
  | resuming (point : Nat) (behind : site < point) (within : point ≤ scope.source.size)
      (repaired : ∀ place, insertionsAt accepted.repairs place =
        insertionsAt repairs place + if point = place then 1 else 0)
      (reported : ∃ name, accepted.recovery = .synchronized (some name))
      (past : scope.isPast after accepted.outcome point = true)

section Steps
variable {repairs : List Repair} {state after : RecoveryState} {outcome : Outcome}
  {accepted : Accepted}

/-- **A place gets no more tokens than the options allow**, or one more where parsing resumes. -/
theorem PutsIn.insertionsAt_le {site : Nat} (h : scope.PutsIn repairs site accepted after)
    (place : Nat) :
    insertionsAt accepted.repairs place ≤
        max (insertionsAt repairs place) scope.options.maxInsertions ∨
      insertionsAt accepted.repairs place = insertionsAt repairs place + 1 ∧
        (∃ name, accepted.recovery = .synchronized (some name)) ∧
        scope.isPast after accepted.outcome place = true := by
  cases h with
  | nothing same =>
    rw [same]
    exact .inl (Nat.le_max_left ..)
  | counted room repaired =>
    refine .inl ?_
    rw [repaired]
    split
    · subst place
      omega
    · exact Nat.le_max_left ..
  | resuming point _ _ repaired reported past =>
    rw [repaired]
    split
    · subst place
      exact .inr ⟨rfl, reported, past⟩
    · exact .inl (Nat.le_max_left ..)

/-- Every candidate in front of the end of the input is of one of these forms. -/
theorem putsIn_of_mem_candidates {kinds : List Kind} {site : Nat}
    (inside : site < scope.source.size) {candidate : Candidate}
    (mem : candidate ∈ scope.candidates repairs kinds site)
    (past : scope.isPast after outcome candidate.past = true) :
    scope.PutsIn repairs site ⟨candidate.repairs, outcome, candidate.recovery⟩ after := by
  have hskip (stop : Nat) (place : Nat) :
      insertionsAt (Repair.add repairs [.skip site stop]) place = insertionsAt repairs place := by
    simp [insertionsAt_add]
  simp only [candidates, List.cons_append, List.mem_cons, List.mem_append, List.mem_flatMap,
    List.not_mem_nil, or_false] at mem
  rcases mem with rfl | (mem | ⟨point, hpoint, mem⟩) | rfl
  · exact .nothing (hskip _)
  · split at mem
    · rename_i hroom
      obtain ⟨kind, -, rfl⟩ := List.mem_map.mp mem
      rw [canInsert_eq, decide_eq_true_eq] at hroom
      exact .counted hroom fun place => by simp [insertionsAt_add]
    · cases mem
  · obtain ⟨hlt, hle⟩ := of_mem_resumePoints inside hpoint
    rcases List.mem_append.mp mem with mem | mem
    · split at mem
      · obtain rfl := List.mem_singleton.mp mem
        exact .nothing (hskip _)
      · cases mem
    · obtain ⟨kind, -, rfl⟩ := List.mem_map.mp mem
      exact .resuming point hlt hle (fun place => by simp [insertionsAt_add]) ⟨_, rfl⟩ past
  · exact .nothing (hskip _)

variable {grammar : Grammar} (realizes : scope.compiled.Realizes grammar)
include realizes

theorem tried_run (sound : scope.Sound state) (repairs : List Repair) :
    scope.Tried repairs (scope.run repairs state).1 (scope.run repairs state).2 := by
  obtain ⟨before, hconsistent⟩ := sound
  exact ⟨hconsistent.run repairs, runsTo_run realizes repairs ⟨before, hconsistent⟩,
    List.mem_cons_self⟩

/-- **What is taken after a run that nests too deep** only leaves input out. -/
theorem of_unnestAt (sound : scope.Sound state) {site past : Nat} {best best' : Option (Nat × Nat)}
    {points : List Nat} {found : Option Accepted}
    (search : scope.unnestAt repairs site past best points state = ((found, best'), after)) :
    scope.Sound after ∧ ∀ accepted, found = some accepted →
      scope.Tried accepted.repairs accepted.outcome after ∧
        ∃ point, accepted.repairs = Repair.add repairs [.skip site point] := by
  induction points generalizing best state with
  | nil =>
    obtain ⟨hfound, rfl⟩ := Prod.mk.inj search
    obtain ⟨rfl, -⟩ := Prod.mk.inj hfound
    exact ⟨sound, fun _ hnone => (nomatch hnone)⟩
  | cons point rest ih =>
    rw [unnestAt] at search
    split at search
    · rename_i next htrial
      obtain ⟨hfound, rfl⟩ := Prod.mk.inj search
      obtain ⟨rfl, -⟩ := Prod.mk.inj hfound
      unfold trial? at htrial
      split at htrial
      · cases (Prod.mk.inj htrial).1
      · obtain ⟨-, rfl⟩ := Prod.mk.inj htrial
        exact ⟨sound, fun _ hnone => (nomatch hnone)⟩
    · rename_i outcome next htrial
      have htried := tried_trial? realizes sound htrial
      split at search
      · obtain ⟨hfound, rfl⟩ := Prod.mk.inj search
        obtain ⟨rfl, -⟩ := Prod.mk.inj hfound
        refine ⟨⟨_, htried.consistent⟩, ?_⟩
        rintro _ ⟨⟩
        exact ⟨htried, point, rfl⟩
      · exact ih ⟨_, htried.consistent⟩ search

theorem of_unnest? (sound : scope.Sound state) {overflow : Overflow} {site : Nat}
    (found : scope.unnest? repairs overflow site state = (some accepted, after)) :
    scope.Tried accepted.repairs accepted.outcome after ∧
      ∃ point, accepted.repairs = Repair.add repairs [.skip site point] := by
  simp only [unnest?] at found
  generalize hsearch : scope.unnestAt repairs site _ none _ state = searched at found
  obtain ⟨⟨first, best⟩, next⟩ := searched
  obtain ⟨hsound, hfirst⟩ := of_unnestAt realizes sound hsearch
  cases first with
  | some first =>
    obtain ⟨haccepted, rfl⟩ := Prod.mk.inj found
    obtain rfl := Option.some.inj haccepted
    exact hfirst _ rfl
  | none =>
    cases best with
    | some farthest =>
      obtain ⟨haccepted, rfl⟩ := Prod.mk.inj found
      obtain rfl := Option.some.inj haccepted
      exact ⟨tried_run realizes hsound _, farthest.1, rfl⟩
    | none => cases (Prod.mk.inj found).1

end Steps

/-! ### Stages -/

/-- A stage whose outcome is that of the last run, with repairs that fit. -/
structure InHand (scope : RecoveryScope) (stage : Stage) : Prop where
  fits : Fitting stage.repairs
  tried : scope.Tried stage.repairs stage.outcome stage.state

theorem InHand.ran (h : scope.InHand stage) : scope.Ran stage.outcome stage.state where
  tokens := ⟨stage.repairs, h.fits, h.tried.consistent.tokens⟩
  evaluates := by
    rw [h.tried.consistent.tokens]
    exact h.tried.runs

theorem InHand.sound (h : scope.InHand stage) : scope.Sound stage.state :=
  ⟨_, h.tried.consistent⟩

theorem InHand.site_le (h : scope.InHand stage) : scope.site stage ≤ scope.source.size := by
  unfold site siteOf
  split <;> exact siteAt_le h.tried.consistent.tokens _

section Next
variable {grammar : Grammar} (realizes : scope.compiled.Realizes grammar)
include realizes

/-- **A step of a session**: the next stage is that of a run again, and this is what the repair puts
in and how it is reported. -/
theorem of_next?_inHand (inHand : scope.InHand stage) (next : scope.next? stage = some following) :
    scope.InHand following ∧ stage.outcome.isSuccess = false ∧ ∃ accepted,
      scope.PutsIn stage.repairs (scope.site stage) accepted following.state ∧
      following.repairs = accepted.repairs ∧ following.outcome = accepted.outcome ∧
      following.errors = stage.errors ++
        [scope.report (scope.site stage) stage.outcome (some accepted.recovery)] := by
  obtain ⟨hfailed, accepted, state, hfind, rfl⟩ := of_next? next
  have hfits := (((keeps_sound realizes).find? inHand.fits stage.outcome (scope.site stage)
    inHand.sound).accepted accepted (by rw [hfind])).1
  suffices hstep : scope.Tried accepted.repairs accepted.outcome state ∧
      scope.PutsIn stage.repairs (scope.site stage) accepted state from
    ⟨⟨hfits, hstep.1⟩, hfailed, accepted, hstep.2, rfl, rfl, rfl⟩
  unfold find? at hfind
  split at hfind
  · obtain ⟨htried, point, hrepairs⟩ := of_unnest? realizes inHand.sound hfind
    exact ⟨htried, .nothing fun place => by rw [hrepairs]; simp [insertionsAt_add]⟩
  · simp only [repair?] at hfind
    split at hfind
    · rename_i hinside
      obtain ⟨htried, candidate, hmem, haccepted, hpast⟩ := of_tryAll? realizes inHand.sound hfind
      have hputs := putsIn_of_mem_candidates hinside hmem hpast
      rw [← haccepted] at hputs
      exact ⟨htried, hputs⟩
    · rename_i houtside
      split at hfind
      · rename_i hroom
        have hend : scope.site stage = scope.source.size :=
          Nat.le_antisymm inHand.site_le (Nat.not_lt.mp houtside)
        rw [canInsert_eq, decide_eq_true_eq] at hroom
        obtain ⟨htried, ⟨kind, hrepairs⟩, -⟩ := of_complete? realizes inHand.sound
          (fun _ hnone => absurd hnone (Option.some_ne_none _).symm) hfind
        refine ⟨htried, .counted hroom fun place => ?_⟩
        rw [hrepairs, hend]
        simp [insertionsAt_add]
      · cases hfind

end Next

/-- A run that fails has not passed the end of the input. -/
theorem InHand.not_isPast_size (h : scope.InHand stage) (failed : stage.outcome.isSuccess = false) :
    scope.isPast stage.state stage.outcome scope.source.size = false := by
  have hle := siteAt_le h.tried.consistent.tokens stage.outcome.failurePosition
  simp [isPast, failed, hle]

/-! ### What is put in at most -/

/-- **The limit, as far as a session keeps it.**  Each time that parsing resumes, one token may be
put in that is not counted.  At the end of the input this completes the input. -/
structure Capped (scope : RecoveryScope) (stage : Stage) : Prop where
  inHand : scope.InHand stage
  before : ∀ place < scope.source.size, insertionsAt stage.repairs place ≤
    scope.options.maxInsertions + resumptions stage.errors
  atEnd : insertionsAt stage.repairs scope.source.size ≤ scope.options.maxInsertions +
    if stage.outcome.isSuccess then min 1 (resumptions stage.errors) else 0

/-- **No token is put in twice at a place**, and none behind the site of what failed. -/
structure Sparse (scope : RecoveryScope) (stage : Stage) : Prop where
  once : ∀ place < scope.source.size, insertionsAt stage.repairs place ≤ 1
  clear : stage.outcome.isSuccess = false → ∀ place < scope.source.size,
    scope.site stage ≤ place → insertionsAt stage.repairs place = 0

section Invariants
variable {grammar : Grammar} (realizes : scope.compiled.Realizes grammar)
include realizes

/-- **A step keeps what is put in capped.** -/
theorem Capped.next (h : scope.Capped stage) (next : scope.next? stage = some following) :
    scope.Capped following := by
  obtain ⟨hinHand, hfailed, accepted, hputs, hrepairs, houtcome, herrors⟩ :=
    of_next?_inHand realizes h.inHand next
  have hend := h.atEnd
  rw [hfailed, if_neg Bool.false_ne_true, Nat.add_zero] at hend
  have hmore : resumptions stage.errors ≤ resumptions following.errors := by
    rw [herrors, resumptions_concat]
    exact Nat.le_add_right ..
  have hresumes (reported : ∃ name, accepted.recovery = .synchronized (some name)) :
      resumptions following.errors = resumptions stage.errors + 1 := by
    obtain ⟨name, hname⟩ := reported
    rw [herrors, resumptions_concat, hname]
    rfl
  refine ⟨hinHand, fun place hlt => ?_, ?_⟩
  · have hbefore := h.before place hlt
    rw [hrepairs]
    rcases hputs.insertionsAt_le place with hle | ⟨heq, hreported, -⟩
    · omega
    · rw [heq, hresumes hreported]
      omega
  · rw [hrepairs]
    rcases hputs.insertionsAt_le scope.source.size with hle | ⟨heq, hreported, hpast⟩
    · omega
    · -- only a run that succeeds gets past the end of the input
      have hsuccess : following.outcome.isSuccess = true := by
        by_contra hfails
        rw [← houtcome, hinHand.not_isPast_size (Bool.eq_false_iff.mpr hfails)] at hpast
        cases hpast
      rw [heq, hsuccess, if_pos rfl, hresumes hreported]
      omega

/-- **A step puts nothing in where something was put in**, if it moves forward. -/
theorem Sparse.next (h : scope.Sparse stage) (inHand : scope.InHand stage)
    (advances : scope.Advances stage following) (uncut : following.outcome.overflow = none)
    (next : scope.next? stage = some following) : scope.Sparse following := by
  obtain ⟨hinHand, hfailed, accepted, hputs, hrepairs, houtcome, -⟩ :=
    of_next?_inHand realizes inHand next
  have hclear := h.clear hfailed
  -- a stage that fails as well has a later site, or both are at the end of the input
  have hlater : following.outcome.isSuccess = false → ∀ place < scope.source.size,
      scope.site following ≤ place → scope.site stage < place := by
    intro hfails place hlt hle
    rcases Nat.lt_or_eq_of_le inHand.site_le with hinside | hend
    · have hmoved := (advances.before hinside).resolve_left (by simp [hfails])
      omega
    · have hstill := (advances.atEnd hend).resolve_left (by simp [hfails])
      omega
  refine ⟨fun place hlt => ?_, fun hfails place hlt hle => ?_⟩
  · have honce := h.once place hlt
    rw [hrepairs]
    cases hputs with
    | nothing same => rwa [same]
    | counted room repaired =>
      rw [repaired]
      split
      · rename_i hsite
        rw [hclear place hlt (Nat.le_of_eq hsite)]
      · exact honce
    | resuming point behind _ repaired _ _ =>
      rw [repaired]
      split
      · rename_i hpoint
        rw [hclear place hlt (by omega)]
      · exact honce
  · have hbehind := hlater hfails place hlt hle
    have hzero := hclear place hlt (Nat.le_of_lt hbehind)
    rw [hrepairs]
    cases hputs with
    | nothing same => rw [same, hzero]
    | counted room repaired => rw [repaired, hzero, if_neg (Nat.ne_of_lt hbehind)]
    | resuming point _ _ repaired _ past =>
      -- the run got past what was put in, and its site is where it failed
      rw [← houtcome, isPast, hfails, Bool.false_or, Bool.and_eq_true, decide_eq_true_eq,
        ← site_of_uncut following uncut] at past
      rw [repaired, hzero, if_neg (by omega)]

/-! ### All stages -/

/-- The first stage has no repairs, so nothing is put in there. -/
theorem inHand_first {seed : Memo} (right : seed.Valid scope.compiled (scope.source.stream []))
    (first : scope.first? seed = some stage) :
    scope.InHand stage ∧ Repair.Placed scope.source.size stage.repairs ∧
      ∀ place, insertionsAt stage.repairs place = 0 := by
  obtain ⟨outcome, state, htrial, rfl⟩ := of_first? first
  exact ⟨⟨.nil, tried_trial? realizes (sound_start right) htrial⟩, .nil _, fun _ => rfl⟩

theorem capped_stagesFrom (capped : scope.Capped stage) (count : Nat) :
    ∀ reached ∈ scope.stagesFrom stage count, scope.Capped reached := by
  induction count generalizing stage with
  | zero => exact List.forall_mem_singleton.mpr capped
  | succ count ih =>
    rw [stagesFrom]
    split
    · exact List.forall_mem_singleton.mpr capped
    · rename_i following hnext
      exact List.forall_mem_cons.mpr ⟨capped, ih (capped.next realizes hnext)⟩

/-- **What is put in is capped at every stage.** -/
theorem capped_stages {seed : Memo} (right : seed.Valid scope.compiled (scope.source.stream [])) :
    ∀ stage ∈ scope.stages seed, scope.Capped stage := by
  rw [stages]
  split
  · exact List.forall_mem_nil _
  · rename_i stage hfirst
    obtain ⟨hinHand, -, hzero⟩ := inHand_first realizes right hfirst
    exact capped_stagesFrom realizes ⟨hinHand, by simp [hzero], by simp [hzero]⟩ _

theorem sparse_stagesFrom {count : Nat} (sparse : scope.Sparse stage)
    (inHand : scope.InHand stage) (onTrack : scope.OnTrack stage)
    (uncut : stage.outcome.overflow = none) (calm : ¬ Cut (scope.searchFrom stage count).outcomes) :
    ∀ reached ∈ scope.stagesFrom stage count, scope.Sparse reached := by
  induction count generalizing stage with
  | zero => exact List.forall_mem_singleton.mpr sparse
  | succ count ih =>
    rw [stagesFrom]
    split
    · exact List.forall_mem_singleton.mpr sparse
    · rename_i following hnext
      rw [searchFrom_next hnext] at calm
      have hcalm : ¬ Cut following.state.outcomes := fun hcut =>
        calm (hcut.mono (outcomes_searchFrom realizes following count))
      obtain ⟨hadvances, hfollowing, hnone⟩ := advances_of_next? realizes onTrack uncut hnext hcalm
      exact List.forall_mem_cons.mpr ⟨sparse, ih (sparse.next realizes inHand hadvances hnone hnext)
        (of_next?_inHand realizes inHand hnext).1 hfollowing hnone calm⟩

/-- **No stage puts two tokens in at one place**, if no run is cut. -/
theorem sparse_stages {seed : Memo} (right : seed.Valid scope.compiled (scope.source.stream []))
    (calm : ¬ Cut (scope.recover seed).outcomes) : ∀ stage ∈ scope.stages seed,
      scope.Sparse stage := by
  rw [stages]
  split
  · exact List.forall_mem_nil _
  · rename_i stage hfirst
    rw [recover_of_first? hfirst] at calm
    have hgrows := outcomes_searchFrom realizes stage scope.options.maxRepairs
    obtain ⟨hinHand, hplaced, hzero⟩ := inHand_first realizes right hfirst
    have hnone : stage.outcome.overflow = none :=
      not_cut.mp calm _ (hgrows.subset hinHand.tried.logged)
    exact sparse_stagesFrom realizes ⟨by simp [hzero], fun _ place _ _ => hzero place⟩ hinHand
      ⟨hplaced, hinHand.tried.consistent⟩ hnone calm

end Invariants

/-! ### The end -/

/-- **What a session makes of its last stage**: the tree of the stage, or, with tokens that are
counted anew, of the stage and what is put in at the end of the input.  Or it gives up. -/
inductive Concludes (scope : RecoveryScope) (last : Stage) : Recovered → Prop where
  | matched {fragment} (success : last.outcome.isSuccess = true)
      (matched : scope.Matched fragment last.state.tokens) :
      Concludes scope last (scope.succeed fragment last.errors last.state)
  | truncated {fragment state} (repairs : List Repair) (error : Diagnostic)
      (failed : last.outcome.isSuccess = false) (reported : error.recovery = some .truncated)
      (tokens : state.tokens = scope.source.stream repairs)
      (matched : scope.Matched fragment state.tokens)
      (before : ∀ place < scope.source.size,
        insertionsAt repairs place = insertionsAt last.repairs place)
      (atEnd : insertionsAt repairs scope.source.size ≤
        insertionsAt last.repairs scope.source.size + scope.options.maxInsertions) :
      Concludes scope last (scope.succeed fragment (last.errors ++ [error]) state)
  | abandoned (errors : List Diagnostic) (current : Option (Nat × Outcome))
      (state : RecoveryState) : Concludes scope last (scope.abandon errors current state)

section Completing
variable {repairs attempt : List Repair} {state after : RecoveryState} {failed outcome : Outcome}

theorem of_insertAtEnd {best : Option (List Repair)} {kinds : List Kind}
    (met : ∀ attempt, best = some attempt →
      ∃ kind, attempt = Repair.add repairs [.insert scope.source.size kind])
    (found : scope.insertAtEnd repairs failed best kinds state = (some attempt, after)) :
    ∃ kind, attempt = Repair.add repairs [.insert scope.source.size kind] := by
  induction kinds generalizing best state with
  | nil => exact met attempt (Prod.mk.inj found).1
  | cons kind rest ih =>
    simp only [insertAtEnd] at found
    split at found
    · exact ⟨kind, (Option.some.inj (Prod.mk.inj found).1).symm⟩
    · refine ih (fun other hother => ?_) found
      split at hother
      · exact ⟨kind, (Option.some.inj hother).symm⟩
      · exact met other hother

/-- **Completing the input** puts tokens in at its end only, and has a count of its own. -/
theorem of_completeAtEnd {count : Nat} (tokens : state.tokens = scope.source.stream repairs)
    {completed : Outcome}
    (completes : scope.completeAtEnd repairs outcome state count = (completed, after))
    (success : completed.isSuccess = true) : ∃ more, after.tokens = scope.source.stream more ∧
      (∀ place < scope.source.size, insertionsAt more place = insertionsAt repairs place) ∧
      insertionsAt more scope.source.size ≤ insertionsAt repairs scope.source.size + count := by
  induction count generalizing repairs outcome state with
  | zero =>
    obtain ⟨rfl, rfl⟩ := Prod.mk.inj completes
    exact ⟨repairs, tokens, fun _ _ => rfl, Nat.le_refl _⟩
  | succ count ih =>
    simp only [completeAtEnd] at completes
    split at completes
    · obtain ⟨rfl, rfl⟩ := Prod.mk.inj completes
      exact ⟨repairs, tokens, fun _ _ => rfl, Nat.le_add_right ..⟩
    · rename_i hfailed
      split at completes
      · -- nothing can be put in, and the run had failed
        obtain ⟨rfl, -⟩ := Prod.mk.inj completes
        rw [success, Bool.true_or, Bool.true_or] at hfailed
        exact absurd rfl hfailed
      · rename_i attempt next hinsert
        obtain ⟨kind, rfl⟩ := of_insertAtEnd
          (fun _ hnone => absurd hnone (Option.some_ne_none _).symm) hinsert
        obtain ⟨more, hmore, hbefore, hend⟩ := ih rfl completes
        refine ⟨more, hmore, fun place hlt => ?_, ?_⟩
        · rw [hbefore place hlt, insertionsAt_add]
          simp [Nat.ne_of_gt hlt]
        · rw [insertionsAt_add] at hend
          simp only [Repair.insertionsAt_insert, Repair.insertionsAt_nil, if_pos] at hend
          omega

end Completing

section Conclusion
variable {grammar : Grammar} (realizes : scope.compiled.Realizes grammar)
  (proper : scope.source.Proper)
include realizes proper

theorem concludes_truncate (inHand : scope.InHand last) (fails : last.outcome.isSuccess = false)
    (site : Nat) (failed : Outcome) {state : RecoveryState} (sound : scope.Sound state) :
    scope.Concludes last (scope.truncate last.repairs last.errors site failed state) := by
  simp only [truncate]
  generalize hall : (if site < scope.source.size then
    Repair.add last.repairs [.skip site scope.source.size] else last.repairs) = all
  have hsame (place : Nat) : insertionsAt all place = insertionsAt last.repairs place := by
    rw [← hall]
    split
    · simp [insertionsAt_add]
    · rfl
  have hfits : Fitting all := by
    rw [← hall]
    split
    · exact inHand.fits.add (.skip _ _)
    · exact inHand.fits
  have hkeeps := keeps_sound realizes
  have hran : Keeps.Completes scope.Sound scope.Ran (scope.completeAtEnd all
      (scope.run all state).1 (scope.run all state).2 scope.options.maxInsertions) :=
    hkeeps.completeAtEnd hfits _ _ ⟨hkeeps.run _ _ hfits sound,
      .inr (hkeeps.gives _ _ hfits sound)⟩
  generalize hcompletes : scope.completeAtEnd all (scope.run all state).1
    (scope.run all state).2 scope.options.maxInsertions = completed at hran ⊢
  obtain ⟨outcome, next⟩ := completed
  cases hfragment : outcome.fragment with
  | none => exact .abandoned _ _ _
  | some fragment =>
    obtain ⟨more, htokens, hbefore, hend⟩ :=
      of_completeAtEnd rfl hcompletes (isSuccess_of_fragment hfragment)
    have hmatched := (hran.gives.resolve_left (by simp [hfragment])).matched realizes proper
      hfragment
    refine .truncated more _ fails rfl htokens hmatched (fun place hlt => ?_) ?_
    · rw [hbefore place hlt, hsame]
    · rwa [hsame] at hend

theorem concludes_last (inHand : scope.InHand last) {left : Nat}
    (ends : left = 0 ∨ scope.next? last = none) :
    scope.Concludes last (scope.searchFrom last left) := by
  cases hfragment : last.outcome.fragment with
  | some fragment =>
    have hsearch : scope.searchFrom last left = scope.succeed fragment last.errors last.state := by
      cases left <;> simp only [searchFrom, search, hfragment]
    rw [hsearch]
    exact .matched (isSuccess_of_fragment hfragment)
      (inHand.ran.matched realizes proper hfragment)
  | none =>
    have hfailed := not_isSuccess_of_fragment hfragment
    cases left with
    | zero =>
      simp only [searchFrom, search, hfragment]
      split
      · exact .abandoned _ _ _
      · exact concludes_truncate realizes proper inHand hfailed _ _ inHand.sound
    | succ left =>
      -- no repair is taken, so the rest is left out
      have hnone := ends.resolve_left (Nat.succ_ne_zero left)
      rw [next?, if_neg (by simp [hfailed]), Option.map_eq_none_iff] at hnone
      have hfound := (keeps_sound realizes).find? inHand.fits last.outcome (scope.site last)
        inHand.sound
      unfold site at hnone hfound
      simp only [searchFrom, search, hfragment]
      split
      · rename_i next hfind
        rw [hfind] at hfound
        exact concludes_truncate realizes proper inHand hfailed _ _ hfound.holds
      · rename_i hsome
        rw [hsome] at hnone
        cases hnone

/-- **A session gives up, or its tree is that of its last stage** and what is put in behind it. -/
theorem concludes_recover {seed : Memo}
    (right : seed.Valid scope.compiled (scope.source.stream [])) :
    (∃ last ∈ scope.stages seed, scope.Concludes last (scope.recover seed)) ∨
      ∃ errors current state, scope.recover seed = scope.abandon errors current state := by
  cases hlast : (scope.stages seed).getLast? with
  | some last =>
    obtain ⟨left, hends, hrecover⟩ := recover_eq_last hlast
    have hmem := List.mem_of_getLast? hlast
    rw [hrecover]
    exact .inl ⟨last, hmem,
      concludes_last realizes proper (capped_stages realizes right last hmem).inHand hends⟩
  | none =>
    -- there is no first stage
    have hfirst : scope.first? seed = none := by
      cases hfirst : scope.first? seed with
      | none => rfl
      | some stage =>
        obtain ⟨rest, hrest⟩ := scope.exists_stagesFrom_eq_cons stage scope.options.maxRepairs
        rw [stages, hfirst] at hlast
        simp [hrest] at hlast
    rw [first?, Option.map_eq_none_iff] at hfirst
    refine .inr ?_
    rw [recover]
    split
    · exact ⟨_, _, _, rfl⟩
    · rename_i htrial
      rw [htrial] at hfirst
      cases hfirst

end Conclusion

/-! ### Missing tokens -/

section Missing
variable {grammar : Grammar} (realizes : scope.compiled.Realizes grammar)
  (sorted : scope.source.Sorted scope.compiled) {recovered : Recovered}
include realizes sorted

/-- **How many tokens are missing in a tree** whose last stage keeps the limit as far as it does. -/
theorem Capped.missing (h : scope.Capped last) (concludes : scope.Concludes last recovered) :
    let missing place := recovered.tree.missingBefore scope.compiled place
    let limit := scope.options.maxInsertions
    (∀ place < scope.source.size, missing place ≤ limit + resumptions recovered.errors) ∧
      missing scope.source.size ≤ limit + max limit 1 ∧
      ((∀ error ∈ recovered.errors, error.recovery ≠ some .truncated) →
        missing scope.source.size ≤ limit + min 1 (resumptions recovered.errors)) := by
  intro missing limit
  have hend := h.atEnd
  cases concludes with
  | matched success matched =>
    have hmissing (place : Nat) : missing place ≤ insertionsAt last.repairs place :=
      missingBefore_finish_le realizes sorted matched h.inHand.tried.consistent.tokens place
    rw [success, if_pos rfl] at hend
    have hlast := hmissing scope.source.size
    refine ⟨fun place hlt => (hmissing place).trans (h.before place hlt), by omega, fun _ => ?_⟩
    exact hlast.trans hend
  | truncated repairs error failed reported tokens matched before atEnd =>
    have hmissing (place : Nat) : missing place ≤ insertionsAt repairs place :=
      missingBefore_finish_le realizes sorted matched tokens place
    rw [failed, if_neg Bool.false_ne_true] at hend
    have hlast := hmissing scope.source.size
    refine ⟨fun place hlt => ?_, by omega, fun kept => ?_⟩
    · have hbefore := h.before place hlt
      have hplace := hmissing place
      rw [before place hlt] at hplace
      have hmore : resumptions last.errors ≤ resumptions (last.errors ++ [error]) := by
        rw [resumptions_concat]
        exact Nat.le_add_right ..
      exact hplace.trans (hbefore.trans (Nat.add_le_add_left hmore _))
    · exact absurd reported (kept error List.mem_concat_self)
  | abandoned errors current state =>
    have hzero (place : Nat) : missing place = 0 :=
      missingBefore_abandon realizes sorted errors current state place
    simp only [hzero]
    exact ⟨fun _ _ => Nat.zero_le _, Nat.zero_le _, fun _ => Nat.zero_le _⟩

/-- One token at most is missing in front of each token, if the last stage puts no more in. -/
theorem Sparse.missing (h : scope.Sparse last) (inHand : scope.InHand last)
    (concludes : scope.Concludes last recovered) : ∀ place < scope.source.size,
      recovered.tree.missingBefore scope.compiled place ≤ 1 := by
  intro place hlt
  cases concludes with
  | matched success matched =>
    exact (missingBefore_finish_le realizes sorted matched inHand.tried.consistent.tokens
      place).trans (h.once place hlt)
  | truncated repairs error failed reported tokens matched before atEnd =>
    have hmissing := missingBefore_finish_le realizes sorted matched tokens place
    rw [before place hlt] at hmissing
    exact hmissing.trans (h.once place hlt)
  | abandoned errors current state =>
    exact (missingBefore_abandon realizes sorted errors current state place).le.trans
      (Nat.zero_le _)

end Missing

end RecoveryScope

namespace Parser

variable {parser : Parser} {grammar : Grammar}

/-- **How many tokens are missing in front of a token of a text.**  They are at most as many as the
options allow, and one more for each time that parsing resumed with a token put in.  At the end of
the text they may be twice as many as the options allow, but only if the text was cut off.  If no
run of the engine goes beyond the limit on depth, at most one is missing in front of each token. -/
theorem missing_parse (done : grammar.compile = .ok parser.compiled) (text : List Char) :
    let parse := parser.parse text
    let size := (parser.scope text (parser.compiled.tokenize text)).source.size
    let missing place := parse.tree.missingBefore parser.compiled place
    let limit := parser.options.maxInsertions
    let resumed := resumptions parse.diagnostics
    (∀ place < size, missing place ≤ limit + resumed) ∧
      missing size ≤ limit + max limit 1 ∧
      ((∀ diagnostic ∈ parse.diagnostics, diagnostic.recovery ≠ some .truncated) →
        missing size ≤ limit + min 1 resumed) ∧
      ((∀ outcome ∈ parser.outcomes text ∅, outcome.overflow = none) →
        ∀ place < size, missing place ≤ 1) := by
  intro parse size missing limit resumed
  let scope := parser.scope text (parser.compiled.tokenize text)
  have realizes : scope.compiled.Realizes grammar := Grammar.realizes_compile done
  have hsorted : scope.source.Sorted scope.compiled := Source.sorted_tokenize realizes text
  have hproper : scope.source.Proper :=
    Source.proper_ofTokens text (kind_ne_of_tokenize realizes text)
  have hmore : resumptions (scope.recover ∅).errors ≤ resumed := by
    show _ ≤ List.countP _ (List.mergeSort _ _)
    rw [(List.mergeSort_perm _ _).countP_eq, List.countP_append]
    exact Nat.le_add_left ..
  have hreported : ∀ error ∈ (scope.recover ∅).errors, error ∈ parse.diagnostics :=
    fun error hmem => List.mem_mergeSort.mpr (List.mem_append_right _ hmem)
  rcases RecoveryScope.concludes_recover realizes hproper Memo.valid_empty with
    ⟨last, hmem, hconcludes⟩ | ⟨errors, current, state, habandons⟩
  · have hcapped := RecoveryScope.capped_stages realizes Memo.valid_empty last hmem
    obtain ⟨hbefore, hend, hkept⟩ := hcapped.missing realizes hsorted hconcludes
    refine ⟨fun place hlt => (hbefore place hlt).trans (Nat.add_le_add_left hmore _), hend,
      fun kept => ?_, fun uncut => ?_⟩
    · have hlast : missing size ≤ limit + min 1 (resumptions (scope.recover ∅).errors) :=
        hkept fun error hmem => kept error (hreported error hmem)
      omega
    · have hsparse := RecoveryScope.sparse_stages realizes Memo.valid_empty (not_cut.mpr uncut)
        last hmem
      exact hsparse.missing realizes hsorted hcapped.inHand hconcludes
  · have hzero (place : Nat) : missing place = 0 := by
      show (scope.recover ∅).tree.missingBefore scope.compiled place = 0
      rw [habandons]
      exact RecoveryScope.missingBefore_abandon realizes hsorted errors current state place
    simp only [hzero]
    exact ⟨fun _ _ => Nat.zero_le _, Nat.zero_le _, fun _ => Nat.zero_le _,
      fun _ _ _ => Nat.zero_le _⟩

/-- One token is put in in front of the only one of a text. -/
theorem missing_parse_pair :
    let parser := Parser.ofCompiled .pair
    let missing place := (parser.parse ['b']).tree.missingBefore parser.compiled place
    Grammar.pair.compile = .ok parser.compiled ∧ missing 1 ≤ 4 + max 4 1 ∧
      (∀ outcome ∈ parser.outcomes ['b'] ∅, outcome.overflow = none) ∧ missing 0 ≤ 1 := by
  intro parser missing
  have huncut : ∀ outcome ∈ (Parser.ofCompiled .pair).outcomes ['b'] ∅,
      outcome.overflow = none := by
    with_unfolding_all decide
  have hsize : (parser.scope ['b'] (parser.compiled.tokenize ['b'])).source.size = 1 := by
    with_unfolding_all decide
  obtain ⟨-, hend, -, hbefore⟩ := @missing_parse (Parser.ofCompiled .pair) .pair
    Grammar.compile_pair ['b']
  rw [hsize] at hend hbefore
  exact ⟨Grammar.compile_pair, hend, huncut, hbefore huncut 0 Nat.zero_lt_one⟩

end Parser

/-! ### More than the limit -/

/-- Where the limit is reached at the end of the input, what is left is cut off. -/
theorem RecoveryScope.searchFrom_of_full {scope : RecoveryScope} {last : Stage}
    (failed : last.outcome.isSuccess = false) (uncut : last.outcome.overflow = none)
    (outside : ¬ scope.site last < scope.source.size)
    (full : scope.canInsert last.repairs (scope.site last) = false)
    (repairing : scope.options.maxRepairs ≠ 0) (left : Nat) :
    scope.searchFrom last left = scope.truncate last.repairs last.errors (scope.site last)
      last.outcome last.state := by
  have hfind : scope.find? last.repairs last.outcome (scope.site last) last.state =
      (none, last.state) := by
    simp only [find?, uncut, repair?, if_neg outside, full, Bool.false_eq_true, if_false]
  unfold site at hfind ⊢
  cases left with
  | zero => simp only [searchFrom, search, fragment_of_not_isSuccess failed, if_neg repairing]
  | succ left => simp only [searchFrom, search, fragment_of_not_isSuccess failed, hfind]

/-- The tree of a text that is cut off at its end, which is then completed. -/
theorem RecoveryScope.tree_truncate {scope : RecoveryScope} {repairs : List Repair}
    {state after : RecoveryState} {completed : Outcome} {fragment : Fragment} {site : Nat}
    (outside : ¬ site < scope.source.size)
    (completes : scope.completeAtEnd repairs (scope.run repairs state).1 (scope.run repairs state).2
      scope.options.maxInsertions = (completed, after))
    (success : completed.fragment = some fragment) (errors : List Diagnostic) (failed : Outcome) :
    (scope.truncate repairs errors site failed state).tree = scope.finish fragment after := by
  simp only [truncate, if_neg outside, completes, success]
  rfl

/-- A grammar for one text of six tokens. -/
def Grammar.sequence : Grammar :=
  { Grammar.empty "sequence" with
    rules := [("s", .seq [.literal "a", .literal "b", .literal "c", .literal "d", .literal "e",
      .literal "f"])]
    start := some "s" }

/-- What it is compiled to. -/
def CompiledGrammar.sequence : CompiledGrammar := Grammar.sequence.compile.toOption.getD default

theorem Grammar.compile_sequence : Grammar.sequence.compile = .ok CompiledGrammar.sequence :=
  Grammar.compile_eq_getD (by with_unfolding_all decide)

namespace Parser

/-- **More tokens are missing than the limit allows.**  Four are put in at the end of the text, and
then it is cut off and completed with one more. -/
theorem missing_parse_sequence :
    Grammar.sequence.compile = .ok (ofCompiled .sequence).compiled ∧
      (ofCompiled .sequence).options.maxInsertions = 4 ∧
      ((ofCompiled .sequence).parse ['a']).tree.missingBefore .sequence 1 = 5 := by
  let scope := (ofCompiled .sequence).scope ['a'] (CompiledGrammar.sequence.tokenize ['a'])
  refine ⟨Grammar.compile_sequence, rfl, ?_⟩
  have hsize : scope.source.size = 1 := by with_unfolding_all decide
  have hfull : ((scope.stages ∅).getLast?).map (fun last => (last.outcome.isSuccess,
      last.outcome.overflow, scope.site last, scope.canInsert last.repairs 1)) =
        some (false, none, 1, false) := by
    cbv
  have hcompleted : ((scope.stages ∅).getLast?).map (fun last =>
      let completed := scope.completeAtEnd last.repairs (scope.run last.repairs last.state).1
        (scope.run last.repairs last.state).2 4
      completed.1.fragment.map fun fragment =>
        (scope.finish fragment completed.2).missingBefore .sequence 1) = some (some 5) := by
    cbv
  obtain ⟨last, hlast, hstate⟩ := Option.map_eq_some_iff.mp hfull
  simp only [Prod.mk.injEq] at hstate
  obtain ⟨hfailed, huncut, hsite, hroom⟩ := hstate
  rw [hlast, Option.map_some, Option.some.injEq] at hcompleted
  obtain ⟨fragment, hfragment, hmissing⟩ := Option.map_eq_some_iff.mp hcompleted
  obtain ⟨left, -, hrecover⟩ := RecoveryScope.recover_eq_last hlast
  show (scope.recover ∅).tree.missingBefore .sequence 1 = 5
  rw [hrecover, RecoveryScope.searchFrom_of_full hfailed huncut (by omega) (hsite ▸ hroom)
    (by decide), RecoveryScope.tree_truncate (by omega) rfl hfragment]
  exact hmissing

end Parser

end Syntagm
