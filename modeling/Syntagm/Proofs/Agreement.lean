import Syntagm.Proofs.Session

/-!
# What is remembered makes no difference

Two sessions for the same input may remember different things, because they start with different
entries or because one of them does not remember at all.  They go the same way as long as the
runs of the engine do, and that is all that has to be known about what they remember
(`RecoveryScope.Pairing`).

A step of a session is **steady** if it goes the same way in two such sessions, or they went
apart in a run (`RecoveryScope.Steady`).  A run is steady, and the search is put together from
runs by binding one step to the next, so each function of the search is steady.  Once two sessions
went apart it does not matter what happens, since the outcomes stay in the log to the end.

**Right entries.**  If two sessions start with entries that are right, a run without a cut gives
what the evaluation without memory gives, and there is only one of these.  So these sessions only go
apart in a run that was cut short by the limit on depth (`RecoveryScope.recover_agree`).
-/

namespace Syntagm

/-- Some run was cut short by the limit on depth. -/
def Cut (outcomes : List Outcome) : Prop := ∃ outcome ∈ outcomes, outcome.overflow ≠ none

theorem Cut.mono {outcomes more : List Outcome} (h : Cut outcomes) (grows : outcomes <:+ more) :
    Cut more := by
  obtain ⟨outcome, hmem, hcut⟩ := h
  exact ⟨outcome, grows.subset hmem, hcut⟩

theorem not_cut {outcomes : List Outcome} :
    ¬ Cut outcomes ↔ ∀ outcome ∈ outcomes, outcome.overflow = none := by
  constructor
  · intro h outcome hmem
    by_contra hcut
    exact h ⟨outcome, hmem, hcut⟩
  · rintro h ⟨outcome, hmem, hcut⟩
    exact hcut (h outcome hmem)

namespace RecoveryScope

variable {scope : RecoveryScope}

/-- The session with or without memory. -/
def memoizing (scope : RecoveryScope) (flag : Bool) : RecoveryScope :=
  { scope with options := { scope.options with memoize := flag } }

theorem siteOf_memoizing (flag : Bool) : (scope.memoizing flag).siteOf = scope.siteOf :=
  rfl

theorem report_memoizing (flag : Bool) : (scope.memoizing flag).report = scope.report :=
  rfl

/-- **Two sessions for the same input**, by whether they remember: what they have in common at
the same point, and what the logs are like once they went apart.  A run keeps them together, unless
they go apart in it. -/
structure Pairing (scope : RecoveryScope) where
  one : Bool
  two : Bool
  Together : RecoveryState → RecoveryState → Prop
  Apart : List Outcome → List Outcome → Prop
  tokens : ∀ {first second}, Together first second → first.tokens = second.tokens
  trials : ∀ {first second}, Together first second → first.trials = second.trials
  strayed : ∀ {first second}, Together first second → first.strayed = second.strayed
  count : ∀ {first second}, Together first second →
    Together { first with trials := first.trials + 1 } { second with trials := second.trials + 1 }
  straying : ∀ strays {first second}, Together first second →
    Together (first.straying strays) (second.straying strays)
  apart : ∀ {first second more more'}, Apart first second → first <:+ more → second <:+ more' →
    Apart more more'
  run : ∀ repairs {first second}, Together first second →
    Apart ((scope.memoizing one).run repairs first).2.outcomes
        ((scope.memoizing two).run repairs second).2.outcomes ∨
      ((scope.memoizing one).run repairs first).1 = ((scope.memoizing two).run repairs second).1 ∧
        Together ((scope.memoizing one).run repairs first).2
          ((scope.memoizing two).run repairs second).2

/-- **A steady step** keeps the log, and goes the same way in two sessions at the same point,
unless they go apart.  `log` are the outcomes that its result knows. -/
structure Steady (pairing : Pairing scope) {ρ : Type} (log : ρ → List Outcome)
    (Same : ρ → ρ → Prop) (step : Bool → RecoveryState → ρ) : Prop where
  grows : ∀ flag state, state.outcomes <:+ log (step flag state)
  agree : ∀ first second, pairing.Together first second →
    pairing.Apart (log (step pairing.one first)) (log (step pairing.two second)) ∨
      Same (step pairing.one first) (step pairing.two second)

/-- A step that the search goes on after. -/
abbrev Steps (pairing : Pairing scope) {α : Type}
    (step : Bool → RecoveryState → α × RecoveryState) : Prop :=
  Steady pairing (·.2.outcomes) (fun first second => first.1 = second.1 ∧
    pairing.Together first.2 second.2) step

/-- A step that the search ends with. -/
abbrev Ends (pairing : Pairing scope) (step : Bool → RecoveryState → Recovered) : Prop :=
  Steady pairing (·.outcomes) (fun first second => first.tree = second.tree ∧
    first.errors = second.errors ∧ first.strayed = second.strayed) step

variable {pairing : Pairing scope}

/-! ### Putting steps together -/

namespace Steady

variable {α β ρ : Type} {log : ρ → List Outcome} {Same : ρ → ρ → Prop}

theorem pure (a : α) : Steps pairing fun _ state => (a, state) where
  grows _ _ := List.suffix_rfl
  agree _ _ together := .inr ⟨rfl, together⟩

theorem bind {step : Bool → RecoveryState → α × RecoveryState} {next : α → Bool → RecoveryState → ρ}
    (h : Steps pairing step) (h' : ∀ a, Steady pairing log Same (next a)) :
    Steady pairing log Same fun flag state =>
      next (step flag state).1 flag (step flag state).2 where
  grows flag state := (h.grows flag state).trans ((h' _).grows flag _)
  agree first second together := by
    rcases h.agree first second together with hapart | ⟨hsame, htogether⟩
    · exact .inl (pairing.apart hapart ((h' _).grows _ _) ((h' _).grows _ _))
    · rw [hsame]
      exact (h' _).agree _ _ htogether

/-- A step that depends on what two sessions at the same point have in common. -/
theorem reads (read : RecoveryState → β) (step : β → Bool → RecoveryState → ρ)
    (same : ∀ first second, pairing.Together first second → read first = read second)
    (h : ∀ b, Steady pairing log Same (step b)) :
    Steady pairing log Same fun flag state => step (read state) flag state where
  grows flag state := (h _).grows flag state
  agree first second together := by
    rw [same first second together]
    exact (h _).agree first second together

/-- A choice that two sessions at the same point make in the same way. -/
theorem ite {p : RecoveryState → Prop} [DecidablePred p] {one two : Bool → RecoveryState → ρ}
    (same : ∀ first second, pairing.Together first second → (p first ↔ p second))
    (h : Steady pairing log Same one) (h' : Steady pairing log Same two) :
    Steady pairing log Same fun flag state => if p state then one flag state else two flag state
    where
  grows flag state := by
    split
    · exact h.grows flag state
    · exact h'.grows flag state
  agree first second together := by
    by_cases hp : p first
    · rw [if_pos hp, if_pos ((same first second together).mp hp)]
      exact h.agree first second together
    · rw [if_neg hp, if_neg (mt (same first second together).mpr hp)]
      exact h'.agree first second together

/-- A step for what was found, or for nothing. -/
theorem option {stop : Bool → RecoveryState → ρ} {next : α → Bool → RecoveryState → ρ}
    (h : Steady pairing log Same stop) (h' : ∀ a, Steady pairing log Same (next a))
    (found : Option α) :
    Steady pairing log Same fun flag state =>
      found.elim (stop flag state) fun a => next a flag state := by
  cases found with
  | none => exact h
  | some a => exact h' a

theorem congr {step other : Bool → RecoveryState → ρ} (h : Steady pairing log Same step)
    (heq : ∀ flag state, other flag state = step flag state) : Steady pairing log Same other := by
  rwa [funext fun flag => funext (heq flag)]

end Steady

namespace Pairing

variable {first second : RecoveryState} (h : pairing.Together first second)
include h

theorem siteAt (position : Nat) : scope.siteAt first position = scope.siteAt second position := by
  unfold RecoveryScope.siteAt
  rw [pairing.tokens h]

theorem isPast (outcome : Outcome) (token : Nat) :
    scope.isPast first outcome token = scope.isPast second outcome token := by
  unfold RecoveryScope.isPast
  rw [pairing.siteAt h]

theorem siteOf (outcome : Outcome) : scope.siteOf outcome first = scope.siteOf outcome second := by
  unfold RecoveryScope.siteOf
  split <;> exact pairing.siteAt h _

theorem finish (fragment : Fragment) :
    scope.finish fragment first = scope.finish fragment second := by
  unfold RecoveryScope.finish
  rw [pairing.tokens h]

end Pairing

/-! ### The result -/

theorem ends_succeed (fragment : Fragment) (errors : List Diagnostic) :
    Ends pairing fun flag => (scope.memoizing flag).succeed fragment errors where
  grows _ _ := List.suffix_rfl
  agree _ _ together := .inr ⟨pairing.finish together fragment, rfl, pairing.strayed together⟩

theorem ends_abandon (errors : List Diagnostic) (current : Option (Nat × Outcome)) :
    Ends pairing fun flag => (scope.memoizing flag).abandon errors current where
  grows _ _ := List.suffix_rfl
  agree _ _ together := .inr ⟨rfl, rfl, pairing.strayed together⟩

/-! ### Runs -/

theorem steps_count :
    Steps pairing fun _ state => ((), { state with trials := state.trials + 1 }) where
  grows _ _ := List.suffix_rfl
  agree _ _ together := .inr ⟨rfl, pairing.count together⟩

theorem steps_straying (strays : Bool) :
    Steps pairing fun _ state => ((), state.straying strays) where
  grows _ _ := List.suffix_rfl
  agree _ _ together := .inr ⟨rfl, pairing.straying strays together⟩

/-- **A run is steady.** -/
theorem steps_run (repairs : List Repair) :
    Steps pairing fun flag => (scope.memoizing flag).run repairs where
  grows _ _ := List.suffix_cons ..
  agree _ _ together := pairing.run repairs together

theorem steps_trial? (repairs : List Repair) :
    Steps pairing fun flag => (scope.memoizing flag).trial? repairs :=
  .ite (p := fun state => state.trials < scope.options.maxTrials)
    (fun _ _ together => by rw [pairing.trials together])
    (steps_count.bind fun _ => (steps_run repairs).bind fun outcome => .pure (some outcome))
    (.pure none)

/-- A step after a trial: one if the limit on runs is reached, or else one for the outcome. -/
theorem steady_afterTrial {ρ : Type} {log : ρ → List Outcome} {Same : ρ → ρ → Prop}
    (repairs : List Repair) {stop : Bool → RecoveryState → ρ}
    {next : Outcome → Bool → RecoveryState → ρ} (h : Steady pairing log Same stop)
    (h' : ∀ outcome, Steady pairing log Same (next outcome)) :
    Steady pairing log Same fun flag state =>
      match (scope.memoizing flag).trial? repairs state with
      | (none, state) => stop flag state
      | (some outcome, state) => next outcome flag state := by
  refine ((steps_trial? repairs).bind (.option h h')).congr fun flag state => ?_
  rcases (scope.memoizing flag).trial? repairs state with ⟨_ | outcome, after⟩ <;> rfl

theorem steps_tryAll? (candidates : List Candidate) :
    Steps pairing fun flag => (scope.memoizing flag).tryAll? candidates := by
  induction candidates with
  | nil => exact .pure none
  | cons first rest ih =>
    exact (steps_straying first.strays).bind fun _ =>
      steady_afterTrial first.repairs (.pure none) fun outcome =>
        .ite (p := fun state => scope.isPast state outcome first.past)
          (fun _ _ together => by rw [pairing.isPast together])
          (.pure (some (Accepted.mk first.repairs outcome first.recovery))) ih

theorem steps_complete? (repairs : List Repair) (failed : Outcome) (fallback : Option Kind)
    (kinds : List Kind) :
    Steps pairing fun flag => (scope.memoizing flag).complete? repairs failed fallback kinds := by
  induction kinds generalizing fallback with
  | nil =>
    cases fallback with
    | none => exact .pure none
    | some kind =>
      let attempt := Repair.add repairs [.insert scope.source.size kind]
      exact (steps_trial? attempt).bind fun outcome =>
        .pure (outcome.map fun outcome =>
          Accepted.mk attempt outcome (.inserted (scope.kindName kind)))
  | cons kind rest ih =>
    let attempt := Repair.add repairs [.insert scope.source.size kind]
    exact steady_afterTrial attempt (.pure none) fun outcome =>
      .ite (p := fun _ => outcome.isSuccess) (fun _ _ _ => .rfl)
        (.pure (some (Accepted.mk attempt outcome (.inserted (scope.kindName kind))))) (ih _)

theorem steps_repair? (repairs : List Repair) (failed : Outcome) (site : Nat) :
    Steps pairing fun flag => (scope.memoizing flag).repair? repairs failed site :=
  .ite (p := fun _ => site < scope.source.size) (fun _ _ _ => .rfl)
    (steps_tryAll? (scope.candidates repairs (insertable failed) site))
    (.ite (p := fun _ => scope.canInsert repairs site) (fun _ _ _ => .rfl)
      (steps_complete? repairs failed none (insertable failed)) (.pure none))

theorem steps_unnestAt (repairs : List Repair) (site past : Nat) (best : Option (Nat × Nat))
    (points : List Nat) :
    Steps pairing fun flag => (scope.memoizing flag).unnestAt repairs site past best points := by
  induction points generalizing best with
  | nil => exact .pure (none, best)
  | cons point rest ih =>
    let attempt := Repair.add repairs [.skip site point]
    refine steady_afterTrial attempt (.pure (none, best)) fun outcome => ?_
    refine .ite (p := fun _ => outcome.isSuccess) (fun _ _ _ => .rfl)
      (.pure (some (Accepted.mk attempt outcome .skipped), best)) ?_
    exact .reads (fun state =>
        let reached := scope.siteAt state outcome.failurePosition
        if scope.isPast state outcome (max point past) && best.all (·.2 < reached) then
          some (point, reached) else best)
      (fun best flag => (scope.memoizing flag).unnestAt repairs site past best rest)
      (fun _ _ together => by simp only [pairing.isPast together, pairing.siteAt together]) ih

/-- The repair for nesting too deep, after the points were tried: the one that was accepted, or else
the one whose run got farthest. -/
def settle (scope : RecoveryScope) (repairs : List Repair) (site : Nat)
    (found : Option Accepted × Option (Nat × Nat)) (state : RecoveryState) :
    Option Accepted × RecoveryState :=
  match found.1, found.2 with
  | some accepted, _ => (some accepted, state)
  | none, some (point, _) =>
    let attempt := Repair.add repairs [.skip site point]
    (some ⟨attempt, (scope.run attempt state).1, .skipped⟩, (scope.run attempt state).2)
  | none, none => (none, state)

theorem steps_settle (repairs : List Repair) (site : Nat)
    (found : Option Accepted × Option (Nat × Nat)) :
    Steps pairing fun flag => (scope.memoizing flag).settle repairs site found := by
  rcases found with ⟨_ | accepted, best⟩
  · rcases best with _ | ⟨point, reached⟩
    · exact .pure none
    · let attempt := Repair.add repairs [.skip site point]
      exact (steps_run attempt).bind fun outcome =>
        .pure (some (Accepted.mk attempt outcome .skipped))
  · exact .pure (some accepted)

theorem steps_unnest? (repairs : List Repair) (overflow : Overflow) (site : Nat) :
    Steps pairing fun flag => (scope.memoizing flag).unnest? repairs overflow site :=
  .reads (fun state => max (scope.siteAt state overflow.position) site)
    (fun past flag state =>
      let points := List.range' (site + 1) (scope.source.size - site)
      let found := (scope.memoizing flag).unnestAt repairs site past none points state
      (scope.memoizing flag).settle repairs site found.1 found.2)
    (fun _ _ together => by rw [pairing.siteAt together])
    fun past => (steps_unnestAt repairs site past none _).bind (steps_settle repairs site)

theorem steps_find? (repairs : List Repair) (outcome : Outcome) (site : Nat) :
    Steps pairing fun flag => (scope.memoizing flag).find? repairs outcome site := by
  unfold find?
  cases outcome.overflow with
  | some overflow => exact steps_unnest? repairs overflow site
  | none => exact steps_repair? repairs outcome site

/-! ### The end of the input -/

theorem steps_insertAtEnd (repairs : List Repair) (failed : Outcome)
    (best : Option (List Repair)) (kinds : List Kind) :
    Steps pairing fun flag => (scope.memoizing flag).insertAtEnd repairs failed best kinds := by
  induction kinds generalizing best with
  | nil => exact .pure best
  | cons kind rest ih =>
    let attempt := Repair.add repairs [.insert scope.source.size kind]
    exact (steps_run attempt).bind fun outcome =>
      .ite (p := fun _ => outcome.isSuccess) (fun _ _ _ => .rfl) (.pure (some attempt))
        (ih (if best.isNone && decide (failed.failurePosition < outcome.failurePosition) then
          some attempt else best))

theorem steps_completeAtEnd (repairs : List Repair) (outcome : Outcome) (count : Nat) :
    Steps pairing fun flag state =>
      (scope.memoizing flag).completeAtEnd repairs outcome state count := by
  induction count generalizing repairs outcome with
  | zero => exact .pure outcome
  | succ count ih =>
    refine .ite (p := fun state => outcome.isSuccess || outcome.overflow.isSome ||
        !decide (scope.source.size ≤ scope.siteAt state outcome.failurePosition))
      (fun _ _ together => by rw [pairing.siteAt together]) (.pure outcome) ?_
    refine ((steps_insertAtEnd repairs outcome none (insertable outcome)).bind
      (.option (.pure outcome) fun attempt => (steps_run attempt).bind (ih attempt))).congr
        fun flag state => ?_
    rcases (scope.memoizing flag).insertAtEnd repairs outcome none (insertable outcome) state with
      ⟨_ | attempt, next⟩ <;> rfl

/-! ### The search -/

/-- The result of a session whose last error is repaired by a cut, by the outcome after the cut. -/
def conclude (scope : RecoveryScope) (errors : List Diagnostic) (site : Nat)
    (failed outcome : Outcome) (state : RecoveryState) : Recovered :=
  match outcome.fragment with
  | none => scope.abandon errors (some (site, failed)) state
  | some fragment =>
    scope.succeed fragment (errors ++ [scope.report site failed (some .truncated)]) state

theorem ends_conclude (errors : List Diagnostic) (site : Nat) (failed outcome : Outcome) :
    Ends pairing fun flag => (scope.memoizing flag).conclude errors site failed outcome := by
  rcases outcome with ⟨_ | fragment⟩
  · exact ends_abandon errors (some (site, failed))
  · exact ends_succeed fragment (errors ++ [scope.report site failed (some .truncated)])

theorem ends_truncate (repairs : List Repair) (errors : List Diagnostic) (site : Nat)
    (failed : Outcome) :
    Ends pairing fun flag => (scope.memoizing flag).truncate repairs errors site failed :=
  let last := if site < scope.source.size then Repair.add repairs [.skip site scope.source.size]
    else repairs
  (steps_run last).bind fun outcome =>
    (steps_completeAtEnd last outcome scope.options.maxInsertions).bind
      (ends_conclude errors site failed)

theorem ends_search (repairs : List Repair) (errors : List Diagnostic) (outcome : Outcome)
    (count : Nat) :
    Ends pairing fun flag state =>
      (scope.memoizing flag).search repairs errors outcome state count := by
  induction count generalizing repairs errors outcome with
  | zero =>
    unfold search
    cases outcome.fragment with
    | some fragment => exact ends_succeed ..
    | none =>
      exact .reads (scope.siteOf outcome)
        (fun site flag state =>
          if scope.options.maxRepairs = 0 then
            (scope.memoizing flag).abandon errors (some (site, outcome)) state
          else (scope.memoizing flag).truncate repairs errors site outcome state)
        (fun _ _ together => pairing.siteOf together outcome) fun site =>
          .ite (p := fun _ => scope.options.maxRepairs = 0) (fun _ _ _ => .rfl) (ends_abandon ..)
            (ends_truncate ..)
  | succ count ih =>
    unfold search
    cases outcome.fragment with
    | some fragment => exact ends_succeed ..
    | none =>
      refine (Steady.reads (scope.siteOf outcome) _
        (fun _ _ together => pairing.siteOf together outcome) fun site =>
          (steps_find? repairs outcome site).bind (.option
            (ends_truncate repairs errors site outcome) fun accepted => ih accepted.repairs
              (errors ++ [scope.report site outcome (some accepted.recovery)])
              accepted.outcome)).congr fun flag state => ?_
      simp only [siteOf_memoizing, report_memoizing]
      rcases (scope.memoizing flag).find? repairs outcome (scope.siteOf outcome state) state with
        ⟨_ | accepted, next⟩ <;> rfl

/-- **Sessions that start together give the same**, unless they go apart. -/
theorem Pairing.recover (pairing : Pairing scope) {first second : Memo}
    (start : pairing.Together ⟨scope.source.stream [], first, 0, [], false⟩
      ⟨scope.source.stream [], second, 0, [], false⟩)
    (close : ¬ pairing.Apart ((scope.memoizing pairing.one).recover first).outcomes
      ((scope.memoizing pairing.two).recover second).outcomes) :
    ((scope.memoizing pairing.one).recover first).tree =
        ((scope.memoizing pairing.two).recover second).tree ∧
      ((scope.memoizing pairing.one).recover first).errors =
        ((scope.memoizing pairing.two).recover second).errors ∧
      ((scope.memoizing pairing.one).recover first).strayed =
        ((scope.memoizing pairing.two).recover second).strayed := by
  have hends : Ends pairing fun flag state =>
      match (scope.memoizing flag).trial? [] state with
      | (none, state) => (scope.memoizing flag).abandon [] none state
      | (some outcome, state) =>
        (scope.memoizing flag).search [] [] outcome state scope.options.maxRepairs :=
    steady_afterTrial [] (ends_abandon ..) fun outcome => ends_search ..
  exact (hends.agree _ _ start).resolve_left close

/-! ### Right entries -/

section Search
variable {grammar : Grammar} (realizes : scope.compiled.Realizes grammar)
include realizes

/-- Two sessions that remember what is right: they go apart in a run that is cut. -/
def twins : Pairing scope where
  one := scope.options.memoize
  two := scope.options.memoize
  Together first second := first.tokens = second.tokens ∧ first.trials = second.trials ∧
    first.strayed = second.strayed ∧ scope.Sound first ∧ scope.Sound second
  Apart first second := Cut first ∨ Cut second
  tokens h := h.1
  trials h := h.2.1
  strayed h := h.2.2.1
  count h := ⟨h.1, congrArg (· + 1) h.2.1, h.2.2.1, h.2.2.2.1.count _, h.2.2.2.2.count _⟩
  straying strays {_ _} h :=
    ⟨h.1, h.2.1, congrArg (· || strays) h.2.2.1, h.2.2.2.1.straying _, h.2.2.2.2.straying _⟩
  apart h grows grows' := h.imp (·.mono grows) (·.mono grows')
  run repairs {first second} h := by
    obtain ⟨htokens, htrials, hstrayed, hfirst, hsecond⟩ := h
    have hone := runsTo_run realizes repairs hfirst
    have htwo := runsTo_run realizes repairs hsecond
    by_cases hcut : (scope.run repairs first).1.overflow = none
    · by_cases hcut' : (scope.run repairs second).1.overflow = none
      · exact .inr ⟨hone.unique htwo hcut hcut', rfl, htrials, hstrayed, hfirst.run repairs,
          hsecond.run repairs⟩
      · exact .inl (.inr ⟨_, List.mem_cons_self, hcut'⟩)
    · exact .inl (.inl ⟨_, List.mem_cons_self, hcut⟩)

/-- **What a session starts with makes no difference**, if it is right and no run is cut. -/
theorem recover_agree {first second : Memo}
    (one : first.Valid scope.compiled (scope.source.stream []))
    (two : second.Valid scope.compiled (scope.source.stream []))
    (uncut : ¬ Cut (scope.recover first).outcomes)
    (uncut' : ¬ Cut (scope.recover second).outcomes) :
    (scope.recover first).tree = (scope.recover second).tree ∧
      (scope.recover first).errors = (scope.recover second).errors ∧
      (scope.recover first).strayed = (scope.recover second).strayed :=
  (twins realizes).recover ⟨rfl, rfl, rfl, sound_start one, sound_start two⟩
    (not_or.mpr ⟨uncut, uncut'⟩)

end Search

end RecoveryScope

end Syntagm
