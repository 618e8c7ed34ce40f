import Mathlib
import Syntagm.Proofs.Incremental
import Syntagm.Proofs.Sites
import Syntagm.Proofs.Stages

/-!
# Recovery moves forward

**One step.**  A repair in front of the end of the input is only taken if the next run succeeds or
fails behind the site, whatever the candidate.  At the end of the input a repair puts one token
in, which leaves the site of every position as it is.  The outcome that counts there is that of a
second run with the same repairs, and if no run is cut it is the same as that of the first one.
So each step goes to a later site, or stays at the end of the input and uses up one of the tokens
that may be put in there (`RecoveryScope.Advances`).

**All steps.**  The stages of a session form a chain of such steps, and how far a chain gets and
how long it can be is a matter of its sites alone (`RecoveryScope.Forward`).

What a session does with one text is computed by `cbv`, with equations from all of the library.
-/

namespace Syntagm

namespace RecoveryScope

variable {scope : RecoveryScope} {stage following : Stage} {count : Nat}

/-! ### Trials -/

/-- What a session knows after a run with some repairs. -/
structure Tried (scope : RecoveryScope) (repairs : List Repair) (outcome : Outcome)
    (state : RecoveryState) : Prop where
  consistent : scope.Consistent repairs state
  runs : scope.RunsTo repairs outcome
  logged : outcome ∈ state.outcomes

section Trials
variable {repairs : List Repair} {state after : RecoveryState} {outcome : Outcome}
  {accepted : Accepted}

theorem outcomes_trial? {found : Option Outcome}
    (trial : scope.trial? repairs state = (found, after)) : state.outcomes <:+ after.outcomes := by
  unfold trial? at trial
  split at trial
  · obtain ⟨-, rfl⟩ := Prod.mk.inj trial
    exact List.suffix_cons ..
  · obtain ⟨-, rfl⟩ := Prod.mk.inj trial
    exact List.suffix_rfl

variable {grammar : Grammar} (realizes : scope.compiled.Realizes grammar)
include realizes

theorem tried_trial? (sound : scope.Sound state)
    (trial : scope.trial? repairs state = (some outcome, after)) :
    scope.Tried repairs outcome after := by
  unfold trial? at trial
  split at trial
  · obtain ⟨houtcome, rfl⟩ := Prod.mk.inj trial
    obtain rfl := Option.some.inj houtcome
    have hcounted := sound.count (state.trials + 1)
    obtain ⟨before, hconsistent⟩ := hcounted
    exact ⟨hconsistent.run repairs, runsTo_run realizes repairs ⟨before, hconsistent⟩,
      List.mem_cons_self⟩
  · cases trial

/-- **What is taken of some candidates** is one of them, and leads past its token. -/
theorem of_tryAll? (sound : scope.Sound state) {candidates : List Candidate}
    (found : scope.tryAll? candidates state = (some accepted, after)) :
    scope.Tried accepted.repairs accepted.outcome after ∧ ∃ candidate ∈ candidates,
      accepted = ⟨candidate.repairs, accepted.outcome, candidate.recovery⟩ ∧
        scope.isPast after accepted.outcome candidate.past = true := by
  induction candidates generalizing state with
  | nil => cases found
  | cons first rest ih =>
    rw [tryAll?] at found
    split at found
    · cases found
    · rename_i outcome next htrial
      have htried := tried_trial? realizes (sound.straying first.strays) htrial
      split at found
      · rename_i hpast
        obtain ⟨haccepted, rfl⟩ := Prod.mk.inj found
        obtain rfl := Option.some.inj haccepted
        exact ⟨htried, first, List.mem_cons_self, rfl, hpast⟩
      · obtain ⟨htaken, candidate, hmem, hcandidate⟩ := ih ⟨_, htried.consistent⟩ found
        exact ⟨htaken, candidate, List.mem_cons_of_mem _ hmem, hcandidate⟩

/-- **What is taken at the end of the input** puts one token in.  If no run is cut, it completes the
input or moves the failure on.  `fallback` was met in a run before. -/
theorem of_complete? (sound : scope.Sound state) {failed : Outcome} {fallback : Option Kind}
    {kinds : List Kind}
    (met : ∀ kind, fallback = some kind → ∃ outcome ∈ state.outcomes,
      scope.RunsTo (Repair.add repairs [.insert scope.source.size kind]) outcome ∧
        failed.failurePosition < outcome.failurePosition)
    (found : scope.complete? repairs failed fallback kinds state = (some accepted, after)) :
    scope.Tried accepted.repairs accepted.outcome after ∧
      (∃ kind, accepted.repairs = Repair.add repairs [.insert scope.source.size kind]) ∧
      (¬ Cut after.outcomes → accepted.outcome.isSuccess = true ∨
        failed.failurePosition < accepted.outcome.failurePosition) := by
  induction kinds generalizing fallback state with
  | nil =>
    cases fallback with
    | none => cases found
    | some kind =>
      rw [complete?] at found
      simp only at found
      obtain ⟨haccepted, hafter⟩ := Prod.mk.inj found
      obtain ⟨outcome, htrial, rfl⟩ := Option.map_eq_some_iff.mp haccepted
      have hpair : scope.trial? (Repair.add repairs [.insert scope.source.size kind]) state =
          (some outcome, after) := Prod.ext htrial hafter
      have htried := tried_trial? realizes sound hpair
      refine ⟨htried, ⟨kind, rfl⟩, fun uncut => ?_⟩
      rw [not_cut] at uncut
      obtain ⟨other, hmem, hruns, hmoved⟩ := met kind rfl
      -- the run that was met before gives what this one gives
      obtain rfl := hruns.unique htried.runs (uncut _ ((outcomes_trial? hpair).subset hmem))
        (uncut _ htried.logged)
      exact .inr hmoved
  | cons kind rest ih =>
    rw [complete?] at found
    split at found
    · cases found
    · rename_i outcome next htrial
      have htried := tried_trial? realizes sound htrial
      split at found
      · rename_i hsuccess
        obtain ⟨haccepted, rfl⟩ := Prod.mk.inj found
        obtain rfl := Option.some.inj haccepted
        exact ⟨htried, ⟨kind, rfl⟩, fun _ => .inl hsuccess⟩
      · refine ih ⟨_, htried.consistent⟩ (fun other hother => ?_) found
        split at hother
        · rename_i hmoved
          obtain rfl := Option.some.inj hother
          simp only [Bool.and_eq_true, decide_eq_true_eq] at hmoved
          exact ⟨outcome, htried.logged, htried.runs, hmoved.2⟩
        · obtain ⟨earlier, hmem, hearlier⟩ := met other hother
          exact ⟨earlier, (outcomes_trial? htrial).subset hmem, hearlier⟩

end Trials

/-! ### Candidates -/

theorem mem_of_mem_withoutRepeats {points : List Nat} :
    ∀ point ∈ withoutRepeats points, point ∈ points := by
  induction points using withoutRepeats.induct with
  | case1 => exact fun _ hmem => hmem
  | case2 single => exact fun _ hmem => hmem
  | case3 first rest ih =>
    rw [withoutRepeats, if_pos rfl]
    exact fun point hmem => List.mem_cons_of_mem _ (ih point hmem)
  | case4 first second rest different ih =>
    rw [withoutRepeats, if_neg different]
    intro point hmem
    rcases List.mem_cons.mp hmem with rfl | hmem
    · exact List.mem_cons_self
    · exact List.mem_cons_of_mem _ (ih point hmem)

/-- What is left out from a site on ends behind it. -/
theorem of_mem_resumePoints {site point : Nat} (inside : site < scope.source.size)
    (mem : point ∈ scope.resumePoints site) : site < point ∧ point ≤ scope.source.size := by
  have hmem := mem_of_mem_withoutRepeats point mem
  rcases List.mem_append.mp hmem with hmem | hmem
  · split at hmem
    · have hrange := List.mem_range'_1.mp hmem
      omega
    · obtain ⟨hmem, hlt⟩ := List.mem_filter.mp hmem
      refine ⟨of_decide_eq_true hlt, ?_⟩
      obtain ⟨index, hindex, hpoint⟩ := List.mem_flatMap.mp hmem
      have hsync := List.mem_range'_1.mp (List.mem_of_mem_filter (List.mem_of_mem_take hindex))
      rcases List.mem_pair.mp hpoint with rfl | rfl <;> omega
  · obtain rfl := List.mem_singleton.mp hmem
    exact ⟨inside, Nat.le_refl _⟩

/-- **Every candidate has to lead past the site**, and puts its repairs in order. -/
theorem of_mem_candidates {repairs : List Repair} {kinds : List Kind} {site : Nat}
    (placed : Repair.Placed scope.source.size repairs) (inside : site < scope.source.size) :
    ∀ candidate ∈ scope.candidates repairs kinds site,
      site ≤ candidate.past ∧ Repair.Placed scope.source.size candidate.repairs := by
  have hskip (stop : Nat) :
      Repair.Placed scope.source.size (Repair.add repairs [.skip site stop]) := by
    refine placed.add fun repair hmem => ?_
    obtain rfl := List.mem_singleton.mp hmem
    exact Nat.le_of_lt inside
  have hresume : ∀ point ∈ scope.resumePoints site,
      ∀ candidate ∈ scope.resumeCandidates repairs kinds site point,
        site ≤ candidate.past ∧ Repair.Placed scope.source.size candidate.repairs := by
    intro point hpoint candidate hmem
    obtain ⟨hlt, hle⟩ := of_mem_resumePoints inside hpoint
    rcases List.mem_append.mp hmem with hmem | hmem
    · split at hmem
      · obtain rfl := List.mem_singleton.mp hmem
        exact ⟨Nat.le_of_lt hlt, hskip point⟩
      · cases hmem
    · obtain ⟨kind, -, rfl⟩ := List.mem_map.mp hmem
      refine ⟨Nat.le_of_lt hlt, placed.add fun repair hmem => ?_⟩
      rcases List.mem_pair.mp hmem with rfl | rfl
      · exact Nat.le_of_lt inside
      · exact hle
  intro candidate hmem
  simp only [candidates, List.cons_append, List.mem_cons, List.mem_append, List.mem_flatMap,
    List.not_mem_nil, or_false] at hmem
  rcases hmem with rfl | (hmem | ⟨point, hpoint, hmem⟩) | rfl
  · exact ⟨Nat.le_succ site, hskip _⟩
  · split at hmem
    · obtain ⟨kind, -, rfl⟩ := List.mem_map.mp hmem
      refine ⟨Nat.le_refl site, placed.add fun repair hmem => ?_⟩
      obtain rfl := List.mem_singleton.mp hmem
      exact Nat.le_of_lt inside
    · cases hmem
  · exact hresume point hpoint candidate hmem
  · exact ⟨Nat.le_refl site, hskip _⟩

/-! ### One step -/

/-- A stage of a session that started with right entries. -/
structure OnTrack (scope : RecoveryScope) (stage : Stage) : Prop where
  placed : Repair.Placed scope.source.size stage.repairs
  consistent : scope.Consistent stage.repairs stage.state

theorem OnTrack.site_le (h : scope.OnTrack stage) : scope.site stage ≤ scope.source.size := by
  unfold site siteOf
  split <;> exact siteAt_le h.consistent.tokens _

theorem site_of_uncut (stage : Stage) (uncut : stage.outcome.overflow = none) :
    scope.site stage = scope.siteAt stage.state stage.outcome.failurePosition := by
  rw [site, siteOf, uncut]

/-- **A step of a session**: a repair of what failed.  The next error lies farther on, or both lie
at the end of the input and one token more is put in there. -/
structure Advances (scope : RecoveryScope) (stage following : Stage) : Prop where
  failed : stage.outcome.isSuccess = false
  before : scope.site stage < scope.source.size →
    following.outcome.isSuccess = true ∨ scope.site stage < scope.site following
  atEnd : scope.site stage = scope.source.size →
    following.outcome.isSuccess = true ∨ scope.site following = scope.source.size
  counted : scope.site stage = scope.source.size →
    Repair.insertionsAt stage.repairs scope.source.size < scope.options.maxInsertions ∧
      Repair.insertionsAt following.repairs scope.source.size =
        Repair.insertionsAt stage.repairs scope.source.size + 1

section Step
variable {grammar : Grammar} (realizes : scope.compiled.Realizes grammar)
include realizes

/-- **Every step moves forward**, if no run is cut. -/
theorem advances_of_next? (onTrack : scope.OnTrack stage) (uncut : stage.outcome.overflow = none)
    (next : scope.next? stage = some following) (calm : ¬ Cut following.state.outcomes) :
    scope.Advances stage following ∧ scope.OnTrack following ∧
      following.outcome.overflow = none := by
  obtain ⟨hfailed, accepted, state, hfind, rfl⟩ := of_next? next
  have hsound : scope.Sound stage.state := ⟨_, onTrack.consistent⟩
  have hcalm : ∀ outcome ∈ state.outcomes, outcome.overflow = none := not_cut.mp calm
  rw [find?, uncut] at hfind
  simp only [repair?] at hfind
  split at hfind
  · -- in front of the end of the input
    rename_i hinside
    obtain ⟨htried, candidate, hmem, haccepted, hpast⟩ := of_tryAll? realizes hsound hfind
    have hrepairs : accepted.repairs = candidate.repairs := by rw [haccepted]
    obtain ⟨hle, hplaced⟩ := of_mem_candidates onTrack.placed hinside candidate hmem
    have hnone := hcalm _ htried.logged
    refine ⟨⟨hfailed, fun _ => ?_, fun hend => ?_, fun hend => ?_⟩,
      ⟨hrepairs ▸ hplaced, htried.consistent⟩, hnone⟩
    · rw [isPast, Bool.or_eq_true, Bool.and_eq_true, decide_eq_true_eq] at hpast
      refine hpast.imp_right fun hbehind => ?_
      rw [site_of_uncut ⟨_, _, _, _⟩ hnone]
      exact Nat.lt_of_le_of_lt hle hbehind.2
    · exact absurd hend (Nat.ne_of_lt hinside)
    · exact absurd hend (Nat.ne_of_lt hinside)
  · rename_i houtside
    split at hfind
    · -- at the end of the input
      rename_i hroom
      have hend : scope.site stage = scope.source.size :=
        Nat.le_antisymm onTrack.site_le (Nat.not_lt.mp houtside)
      obtain ⟨htried, ⟨kind, hrepairs⟩, hmoved⟩ := of_complete? realizes hsound
        (fun _ hnone => absurd hnone (Option.some_ne_none _).symm) hfind
      have hnone := hcalm _ htried.logged
      have hplaced : Repair.Placed scope.source.size accepted.repairs := by
        rw [hrepairs]
        refine onTrack.placed.add fun repair hmem => ?_
        obtain rfl := List.mem_singleton.mp hmem
        exact Nat.le_refl _
      refine ⟨⟨hfailed, fun hlt => absurd hlt houtside, fun _ => ?_, fun _ => ?_⟩,
        ⟨hplaced, htried.consistent⟩, hnone⟩
      · refine (hmoved calm).imp_right fun hlt => ?_
        have htokens := htried.consistent.tokens
        refine Nat.le_antisymm (OnTrack.site_le ⟨hplaced, htried.consistent⟩) ?_
        rw [site_of_uncut ⟨_, _, _, _⟩ hnone, siteAt_add_end onTrack.placed kind
          onTrack.consistent.tokens (hrepairs ▸ htokens)]
        calc scope.source.size
            = scope.siteAt stage.state stage.outcome.failurePosition := by
              rw [← hend, site_of_uncut stage uncut]
          _ ≤ scope.siteAt stage.state accepted.outcome.failurePosition :=
              siteAt_mono onTrack.consistent.tokens (Nat.le_of_lt hlt)
      · rw [hend, canInsert_eq, decide_eq_true_eq] at hroom
        rw [hrepairs, Repair.insertionsAt_add]
        exact ⟨hroom, by simp⟩
    · cases hfind

end Step

/-! ### All steps -/

/-- Stages that follow each other. -/
structure Forward (scope : RecoveryScope) (stages : List Stage) : Prop where
  within : ∀ stage ∈ stages, scope.site stage ≤ scope.source.size
  chain : stages.IsChain scope.Advances

theorem exists_stagesFrom_eq_cons (scope : RecoveryScope) (stage : Stage) (count : Nat) :
    ∃ rest, scope.stagesFrom stage count = stage :: rest := by
  cases count with
  | zero => exact ⟨[], rfl⟩
  | succ count =>
    rw [stagesFrom]
    split
    · exact ⟨[], rfl⟩
    · exact ⟨_, rfl⟩

theorem length_stagesFrom_le (scope : RecoveryScope) (stage : Stage) (count : Nat) :
    (scope.stagesFrom stage count).length ≤ count + 1 := by
  induction count generalizing stage with
  | zero => exact Nat.le_refl _
  | succ count ih =>
    rw [stagesFrom]
    split
    · exact Nat.le_add_left ..
    · exact Nat.succ_le_succ (ih _)

section Run
variable {grammar : Grammar} (realizes : scope.compiled.Realizes grammar)
include realizes

theorem outcomes_searchFrom (stage : Stage) (count : Nat) :
    stage.state.outcomes <:+ (scope.searchFrom stage count).outcomes :=
  (@ends_search scope (twins realizes) stage.repairs stage.errors stage.outcome count).grows
    scope.options.memoize stage.state

/-- **A search goes forward**, if no run is cut. -/
theorem forward_stagesFrom (onTrack : scope.OnTrack stage) (uncut : stage.outcome.overflow = none)
    (calm : ¬ Cut (scope.searchFrom stage count).outcomes) :
    scope.Forward (scope.stagesFrom stage count) := by
  induction count generalizing stage with
  | zero => exact ⟨List.forall_mem_singleton.mpr onTrack.site_le, .singleton stage⟩
  | succ count ih =>
    rw [stagesFrom]
    split
    · exact ⟨List.forall_mem_singleton.mpr onTrack.site_le, .singleton stage⟩
    · rename_i following hnext
      rw [searchFrom_next hnext] at calm
      have hcalm : ¬ Cut following.state.outcomes := fun hcut =>
        calm (hcut.mono (outcomes_searchFrom realizes following count))
      obtain ⟨hadvances, hfollowing, hnone⟩ := advances_of_next? realizes onTrack uncut hnext hcalm
      obtain ⟨hwithin, hchain⟩ := ih hfollowing hnone calm
      obtain ⟨rest, hrest⟩ := scope.exists_stagesFrom_eq_cons following count
      rw [hrest] at hwithin hchain ⊢
      exact ⟨List.forall_mem_cons.mpr ⟨onTrack.site_le, hwithin⟩, hchain.cons_cons hadvances⟩

theorem forward_stages {seed : Memo} (right : seed.Valid scope.compiled (scope.source.stream []))
    (calm : ¬ Cut (scope.recover seed).outcomes) : scope.Forward (scope.stages seed) := by
  rw [stages]
  split
  · exact ⟨List.forall_mem_nil _, .nil⟩
  · rename_i stage hfirst
    rw [recover_of_first? hfirst] at calm
    have hgrows := outcomes_searchFrom realizes stage scope.options.maxRepairs
    obtain ⟨outcome, state, htrial, rfl⟩ := of_first? hfirst
    have htried := tried_trial? realizes (sound_start right) htrial
    have hnone : outcome.overflow = none :=
      not_cut.mp calm outcome (hgrows.subset htried.logged)
    exact forward_stagesFrom realizes ⟨.nil _, htried.consistent⟩ hnone calm

end Run

namespace Forward

variable {stages rest : List Stage}

theorem tail (h : scope.Forward (stage :: rest)) : scope.Forward rest :=
  ⟨(List.forall_mem_cons.mp h.within).2, h.chain.of_cons⟩

/-- Nothing follows a run that succeeds. -/
theorem eq_nil_of_success (h : scope.Forward (stage :: rest))
    (success : stage.outcome.isSuccess = true) : rest = [] := by
  cases rest with
  | nil => rfl
  | cons following rest =>
    have hfailed := (List.isChain_cons_cons.mp h.chain).1.failed
    rw [success] at hfailed
    cases hfailed

/-- **The sites of errors increase**, as long as they are in front of the end of the input. -/
theorem sites (h : scope.Forward stages) :
    ((stages.filter (!·.outcome.isSuccess)).map scope.site).Pairwise fun first second =>
      first < second ∨ first = scope.source.size ∧ second = scope.source.size := by
  induction stages with
  | nil => exact .nil
  | cons stage rest ih =>
    cases rest with
    | nil =>
      rw [List.filter_singleton]
      cases stage.outcome.isSuccess with
      | true => exact .nil
      | false => exact List.pairwise_singleton _ _
    | cons following rest =>
      obtain ⟨hadvances, -⟩ := List.isChain_cons_cons.mp h.chain
      have hrest := ih h.tail
      have hle := h.within stage List.mem_cons_self
      have hle' := h.tail.within following List.mem_cons_self
      rw [List.filter_cons_of_pos (by simp [hadvances.failed]), List.map_cons]
      refine List.pairwise_cons.mpr ⟨fun site hmem => ?_, hrest⟩
      cases hsuccess : following.outcome.isSuccess with
      | true =>
        obtain rfl := h.tail.eq_nil_of_success hsuccess
        rw [List.filter_cons_of_neg (by simp [hsuccess])] at hmem
        cases hmem
      | false =>
        have hnext : scope.site stage < scope.site following ∨
            scope.site stage = scope.source.size ∧ scope.site following = scope.source.size := by
          rcases Nat.lt_or_eq_of_le hle with hlt | hend
          · exact .inl ((hadvances.before hlt).resolve_left (by simp [hsuccess]))
          · exact .inr ⟨hend, (hadvances.atEnd hend).resolve_left (by simp [hsuccess])⟩
        rw [List.filter_cons_of_pos (by simp [hsuccess]), List.map_cons] at hmem hrest
        rcases List.mem_cons.mp hmem with rfl | hmem
        · exact hnext
        · have hlater := (List.pairwise_cons.mp hrest).1 site hmem
          omega

/-- At the end of the input each step uses up one of the tokens that may be put in there. -/
theorem length_atEnd (h : scope.Forward (stage :: rest))
    (atEnd : scope.site stage = scope.source.size) :
    rest.length ≤ scope.options.maxInsertions -
      Repair.insertionsAt stage.repairs scope.source.size := by
  induction rest generalizing stage with
  | nil => exact Nat.zero_le _
  | cons following rest ih =>
    obtain ⟨hadvances, -⟩ := List.isChain_cons_cons.mp h.chain
    obtain ⟨hroom, hcount⟩ := hadvances.counted atEnd
    rw [List.length_cons]
    rcases hadvances.atEnd atEnd with hsuccess | hstill
    · rw [h.tail.eq_nil_of_success hsuccess]
      show 1 ≤ _
      omega
    · have hrest := ih h.tail hstill
      omega

/-- Each step in front of the end of the input goes at least one token farther. -/
theorem length_le (h : scope.Forward (stage :: rest)) :
    rest.length ≤ scope.source.size - scope.site stage + scope.options.maxInsertions := by
  induction rest generalizing stage with
  | nil => exact Nat.zero_le _
  | cons following rest ih =>
    obtain ⟨hadvances, -⟩ := List.isChain_cons_cons.mp h.chain
    have hle' := h.tail.within following List.mem_cons_self
    rcases Nat.lt_or_eq_of_le (h.within stage List.mem_cons_self) with hlt | hend
    · rw [List.length_cons]
      rcases hadvances.before hlt with hsuccess | hfarther
      · rw [h.tail.eq_nil_of_success hsuccess]
        show 1 ≤ _
        omega
      · have hrest := ih h.tail
        omega
    · have hatEnd := h.length_atEnd hend
      omega

/-- **At the end of the input** at most as many repairs are taken as the options allow. -/
theorem countP_atEnd_le (h : scope.Forward stages) :
    stages.dropLast.countP (scope.site · = scope.source.size) ≤ scope.options.maxInsertions := by
  induction stages with
  | nil => exact Nat.zero_le _
  | cons stage rest ih =>
    by_cases hend : scope.site stage = scope.source.size
    · have hlength := h.length_atEnd hend
      have hcount := List.countP_le_length
        (p := fun stage => decide (scope.site stage = scope.source.size))
        (l := (stage :: rest).dropLast)
      rw [List.length_dropLast, List.length_cons] at hcount
      omega
    · cases rest with
      | nil => exact Nat.zero_le _
      | cons following rest =>
        rw [List.dropLast_cons_cons, List.countP_cons_of_neg (by simpa using hend)]
        exact ih h.tail

end Forward

/-- **How many errors a session reports.** -/
theorem length_errors_le {seed : Memo} (h : scope.Forward (scope.stages seed)) :
    (scope.recover seed).errors.length ≤
      min scope.options.maxRepairs (scope.source.size + scope.options.maxInsertions) + 1 := by
  rcases scope.ranges_recover seed with ⟨error, hone⟩ | hranges
  · rw [hone]
    exact Nat.le_add_left ..
  · have hlength := congrArg List.length hranges
    rw [List.length_map, List.length_map, errorSites, List.length_map] at hlength
    have hfilter := List.length_filter_le (!·.outcome.isSuccess) (scope.stages seed)
    suffices (scope.stages seed).length ≤
        min scope.options.maxRepairs (scope.source.size + scope.options.maxInsertions) + 1 by omega
    rw [stages] at h ⊢
    split at h
    · exact Nat.zero_le _
    · rename_i stage hfirst
      have hcount := scope.length_stagesFrom_le stage scope.options.maxRepairs
      obtain ⟨rest, hrest⟩ := scope.exists_stagesFrom_eq_cons stage
        scope.options.maxRepairs
      rw [hrest] at h hcount ⊢
      have hle := h.length_le
      rw [List.length_cons] at hcount ⊢
      omega

end RecoveryScope

namespace Parser

variable {parser : Parser} {grammar : Grammar}

/-- **Recovery moves forward.**  A text is parsed, with entries that are right for it, and no run of
the engine goes beyond the limit on depth.  Then the sites of the errors that are handled increase
as long as they are in front of the end of the input, and at the end only so many repairs are taken
as tokens may be put in at one place.  This bounds the errors that are reported.  They are those
that are handled, or one alone, and each starts behind the one in front of it, or both are at the
end of the text. -/
theorem recovery_advances (done : grammar.compile = .ok parser.compiled) (text : List Char)
    {seed : Memo} (right : seed.Valid parser.compiled
      ((Source.ofTokens text (parser.compiled.tokenize text)).stream []))
    (uncut : ∀ outcome ∈ parser.outcomes text seed, outcome.overflow = none) :
    let scope := parser.scope text (parser.compiled.tokenize text)
    let size := scope.source.size
    let sites := scope.errorSites seed
    let errors := (scope.recover seed).errors
    let atEnd := Text.Range.empty (Text.byteLength text)
    (∀ site ∈ sites, site ≤ size) ∧
      (sites.Pairwise fun first second => first < second ∨ first = size ∧ second = size) ∧
      scope.repairsAtEnd seed ≤ parser.options.maxInsertions ∧
      errors.length ≤ min parser.options.maxRepairs (size + parser.options.maxInsertions) + 1 ∧
      (errors.map (·.range) = sites.map scope.source.range ∨ ∃ error, errors = [error]) ∧
      errors.Pairwise fun first second =>
        first.range.start < second.range.start ∨ first.range = atEnd ∧ second.range = atEnd := by
  intro scope size sites errors atEnd
  have realizes := Grammar.realizes_compile done
  have hforward : scope.Forward (scope.stages seed) :=
    RecoveryScope.forward_stages realizes right (not_cut.mpr uncut)
  have hwithin : ∀ site ∈ sites, site ≤ size := by
    intro site hmem
    obtain ⟨stage, hstage, rfl⟩ := List.mem_map.mp hmem
    exact hforward.within stage (List.mem_of_mem_filter hstage)
  have hsites : sites.Pairwise fun first second => first < second ∨ first = size ∧ second = size :=
    hforward.sites
  have hranges := scope.ranges_recover seed
  refine ⟨hwithin, hsites, hforward.countP_atEnd_le, RecoveryScope.length_errors_le hforward,
    hranges.symm, ?_⟩
  rcases hranges with ⟨error, hone⟩ | hranges
  · rw [show errors = [error] from hone]
    exact List.pairwise_singleton _ _
  · -- the ranges are those of the sites, and later sites start at later offsets
    have hstarts : (sites.map scope.source.range).Pairwise fun first second =>
        first.start < second.start ∨ first = atEnd ∧ second = atEnd := by
      rw [List.pairwise_map]
      refine hsites.imp_of_mem fun {first second} hfirst hsecond hbefore => ?_
      rcases hbefore with hlt | ⟨rfl, rfl⟩
      · exact .inl (Source.start_lt text hlt (hwithin second hsecond))
      · exact .inr ⟨scope.source.range_size, scope.source.range_size⟩
    rw [← hranges, List.pairwise_map] at hstarts
    exact hstarts

/-- One token that fits nowhere is left out, and then two are put in at the end. -/
theorem recovery_advances_pair :
    let parser := Parser.ofCompiled .pair
    let scope := parser.scope ['?'] (parser.compiled.tokenize ['?'])
    let errors := (scope.recover ∅).errors
    let atEnd := Text.Range.empty 1
    (∀ outcome ∈ parser.outcomes ['?'] ∅, outcome.overflow = none) ∧
      scope.errorSites ∅ = [0, 1, 1] ∧ scope.repairsAtEnd ∅ = 2 ∧
      scope.repairsAtEnd ∅ ≤ parser.options.maxInsertions ∧
      errors.length ≤ min parser.options.maxRepairs
        (scope.source.size + parser.options.maxInsertions) + 1 ∧
      errors.Pairwise fun first second =>
        first.range.start < second.range.start ∨ first.range = atEnd ∧ second.range = atEnd := by
  intro parser scope errors atEnd
  have hsites : scope.errorSites ∅ = [0, 1, 1] := by cbv
  have hatEnd : scope.repairsAtEnd ∅ = 2 := by cbv
  have hlast : ((scope.stages ∅).getLast?).map (fun stage =>
      stage.outcome.isSuccess && stage.state.outcomes.all (·.overflow.isNone)) = some true := by
    cbv
  obtain ⟨last, hmem, hgood⟩ := Option.map_eq_some_iff.mp hlast
  rw [Bool.and_eq_true] at hgood
  obtain ⟨left, -, hrecover⟩ := RecoveryScope.recover_eq_last hmem
  have huncut : ∀ outcome ∈ parser.outcomes ['?'] ∅, outcome.overflow = none := by
    intro outcome houtcome
    have hoverflow := List.all_eq_true.mp hgood.2 outcome
    rw [← RecoveryScope.searchFrom_of_success hgood.1 left, ← hrecover] at hoverflow
    exact Option.isNone_iff_eq_none.mp (hoverflow houtcome)
  obtain ⟨-, -, hroom, hcount, -, hstarts⟩ := @recovery_advances (Parser.ofCompiled .pair) .pair
    Grammar.compile_pair ['?'] ∅ Memo.valid_empty huncut
  exact ⟨huncut, hsites, hatEnd, hroom, hcount, hstarts⟩

end Parser

end Syntagm
