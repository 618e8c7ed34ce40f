import Syntagm.Parse.Recovery
import Syntagm.Proofs.Likeness

/-!
# Sessions in step

The significant tokens of two sources may differ in their texts and in the trivia around them, and
still be of the same kinds (`Source.Resembles`).  The same repairs then make streams of them whose
tokens are counterparts, one by one.

A session looks at no more of its source than the kinds, and at no more of a run than where it
failed, what was expected there, and whether it succeeded.  So if in addition the engines are in
step (`RecoveryScope.Lockstep`), two sessions try the same repairs in the same order, take the same
ones, and run into the same limits.  Each function of the search has a lemma that says so.  They end
in `Lockstep.recover`: both sessions end in the same way, and report the same failures at the same
sites (`Lockstep.Concluded`).
-/

namespace Syntagm

/-! ### Streams -/

namespace Source

/-- The kinds of the significant tokens. -/
def kinds (source : Source) : List Kind := source.tokens.toList.map (·.kind)

/-- Sources whose significant tokens are of the same kinds. -/
def Resembles (source other : Source) : Prop := source.kinds = other.kinds

theorem length_kinds (source : Source) : source.kinds.length = source.size := by
  simp [kinds, size]

theorem kind_eq (source : Source) (index : Nat) :
    source.kind index = (source.kinds[index]?).getD Kind.endOfInput := by
  rw [kinds, List.getElem?_map, Array.getElem?_toList, kind]

theorem Resembles.size {source other : Source} (h : source.Resembles other) :
    source.size = other.size := by
  rw [← length_kinds, ← length_kinds, h]

theorem Resembles.kind {source other : Source} (h : source.Resembles other) (index : Nat) :
    source.kind index = other.kind index := by
  rw [kind_eq, kind_eq, h]

/-- **Counterparts** in streams that the same repairs make of two sources. -/
inductive Counterparts (source other : Source) : StreamToken → StreamToken → Prop where
  | real (index : Nat) (pending : List Lead) :
    Counterparts source other (source.realToken index pending) (other.realToken index pending)
  | inserted (site : Nat) (kind : Kind) (pending : List Lead) :
    Counterparts source other (source.insertedToken site kind pending)
      (other.insertedToken site kind pending)

variable {source other : Source}

namespace Counterparts

variable {token token' : StreamToken} (h : source.Counterparts other token token')
include h

theorem site : token.site = token'.site := by
  cases h <;> rfl

theorem isReal : token.isReal = token'.isReal := by
  cases h <;> rfl

theorem lead : token.lead = token'.lead := by
  cases h <;> rfl

theorem kind (resembles : source.Resembles other) : token.kind = token'.kind := by
  cases h with
  | real index pending => exact resembles.kind index
  | inserted => rfl

theorem leading : token.leading = source.leading token.lead ∧
    token'.leading = other.leading token.lead := by
  cases h <;> exact ⟨rfl, rfl⟩

end Counterparts

theorem Counterparts.sameAs (resembles : source.Resembles other)
    {first first' second second' : StreamToken} (h : source.Counterparts other first first')
    (h' : source.Counterparts other second second') :
    first.sameAs second = first'.sameAs second' := by
  simp only [StreamToken.sameAs, h.kind resembles, h'.kind resembles, h.site, h'.site, h.isReal,
    h'.isReal, h.lead, h'.lead]

namespace Resembles

variable (resembles : source.Resembles other)
include resembles

theorem streamFrom (index : Nat) (pending : List Lead) (repairs : List Repair) :
    List.Forall₂ (source.Counterparts other) (source.streamFrom index pending repairs)
      (other.streamFrom index pending repairs) := by
  induction index, pending, repairs using streamFrom.induct source <;>
    rw [streamFrom.eq_def, streamFrom.eq_def other, ← resembles.size]
  case case1 index pending repairs outside =>
    simp only [if_pos outside]
    exact .nil
  case case2 index pending inside site kind rest before ih =>
    simp only [if_neg inside, if_pos before]
    exact .cons (.real index pending) ih
  case case3 index pending inside site kind rest before behind ih =>
    simp only [if_neg inside, if_neg before, if_pos behind]
    exact ih
  case case4 index pending inside site kind rest before behind ih =>
    simp only [if_neg inside, if_neg before, if_neg behind]
    exact .cons (.inserted site kind pending) ih
  case case5 index pending inside first stop rest before ih =>
    simp only [if_neg inside, if_pos before]
    exact .cons (.real index pending) ih
  case case6 index pending inside first stop rest before here stop' ih =>
    simp only [if_neg inside, if_neg before, if_pos here]
    exact ih
  case case7 index pending inside first stop rest before elsewhere ih =>
    simp only [if_neg inside, if_neg before, if_neg elsewhere]
    exact ih
  case case8 index pending inside ih =>
    simp only [if_neg inside]
    exact .cons (.real index pending) ih

/-- **The same repairs make streams of counterparts.** -/
theorem stream (repairs : List Repair) :
    List.Forall₂ (source.Counterparts other) (source.stream repairs).toList
      (other.stream repairs).toList :=
  resembles.streamFrom 0 [] repairs

theorem length_takeWhile_zip {first first' second second' : List StreamToken}
    (h : List.Forall₂ (source.Counterparts other) first first')
    (h' : List.Forall₂ (source.Counterparts other) second second') :
    ((first.zip second).takeWhile fun (x, y) => x.sameAs y).length =
      ((first'.zip second').takeWhile fun (x, y) => x.sameAs y).length := by
  induction h generalizing second second' with
  | nil => rfl
  | cons head _ ih =>
    cases h' with
    | nil => rfl
    | cons head' tail' =>
      simp only [List.zip_cons_cons, List.takeWhile_cons, ← head.sameAs resembles head']
      split
      · rw [List.length_cons, List.length_cons, ih tail']
      · rfl

theorem commonLength (repairs others : List Repair) :
    commonLength (source.stream repairs) (source.stream others) =
      commonLength (other.stream repairs) (other.stream others) :=
  resembles.length_takeWhile_zip (resembles.stream repairs) (resembles.stream others)

end Resembles

end Source

/-! ### Outcomes -/

namespace Outcome.Alike

variable {Like : Fragment → Fragment → Prop} {outcome outcome' : Outcome}
  (h : outcome.Alike Like outcome')
include h

theorem isSuccess : outcome.isSuccess = outcome'.isSuccess := by
  unfold Outcome.isSuccess
  rcases cases_of_rel h.fragment with ⟨hnone, hnone'⟩ | ⟨_, _, hsome, hsome', -⟩
  · rw [hnone, hnone']
  · rw [hsome, hsome', Option.isSome_some, Option.isSome_some]

theorem failurePosition : outcome.failurePosition = outcome'.failurePosition := by
  unfold Outcome.failurePosition
  rw [h.failure]

theorem expected : outcome.expected = outcome'.expected := by
  unfold Outcome.expected
  rw [h.failure]

theorem insertable : RecoveryScope.insertable outcome = RecoveryScope.insertable outcome' := by
  unfold RecoveryScope.insertable
  rw [h.expected]

end Outcome.Alike

/-- Repairs that were taken in two sessions: the same ones, with alike outcomes. -/
structure Accepted.Alike (Like : Fragment → Fragment → Prop) (first second : Accepted) : Prop where
  repairs : first.repairs = second.repairs
  outcome : first.outcome.Alike Like second.outcome
  recovery : first.recovery = second.recovery

namespace RecoveryScope

/-- **Two sessions in step**: the same options, sources that resemble each other, and grammars in
step on counterparts. -/
structure Lockstep (Like : Fragment → Fragment → Prop) (one two : RecoveryScope) : Prop where
  options : one.options = two.options
  sources : one.source.Resembles two.source
  grammars : one.compiled.Alike Like two.compiled
  sync : one.compiled.sync = two.compiled.sync
  names : ∀ kind, one.compiled.kindName kind = two.compiled.kindName kind
  tokens : ∀ {token token'}, one.source.Counterparts two.source token token' →
    token.Alike Like one.compiled.program token'

namespace Lockstep

section Relations
variable (Like : Fragment → Fragment → Prop) (one two : RecoveryScope)

/-- What two sessions in step have in common at the same point. -/
structure Together (first second : RecoveryState) : Prop where
  streams : ∃ repairs, first.tokens = one.source.stream repairs ∧
    second.tokens = two.source.stream repairs
  memos : first.memo.Alike Like second.memo
  trials : first.trials = second.trials
  strayed : first.strayed = second.strayed

/-- What a step gives in two sessions, and that they stay together. -/
structure Paired {α β : Type} (Same : α → β → Prop) (first : α × RecoveryState)
    (second : β × RecoveryState) : Prop where
  result : Same first.1 second.1
  together : Together Like one two first.2 second.2

/-- Reports of the same failure in two sessions. -/
inductive Reports : Diagnostic → Diagnostic → Prop where
  | failure (site : Nat) {outcome outcome' : Outcome} (alike : outcome.Alike Like outcome')
    (recovery : Option Recovery) :
    Reports (one.report site outcome recovery) (two.report site outcome' recovery)
  | untried : Reports (.ofCode .unparsable) (.ofCode .unparsable)
  | abandoned {error error' : Diagnostic} (reports : Reports error error') :
    Reports (error.withRecovery .abandoned) (error'.withRecovery .abandoned)

/-- Trees of two sessions that end in the same way. -/
inductive Trees : Element → Element → Prop where
  | finished {fragment fragment' : Fragment} (alike : Like fragment fragment')
    {state state' : RecoveryState} (together : Together Like one two state state') :
    Trees (one.finish fragment state) (two.finish fragment' state')
  | abandoned : Trees (.node one.compiled.startKind [.node Kind.error one.source.elements])
    (.node two.compiled.startKind [.node Kind.error two.source.elements])

/-- **Two sessions end in the same way.** -/
structure Concluded (first second : Recovered) : Prop where
  tree : Trees Like one two first.tree second.tree
  errors : List.Forall₂ (Reports Like one two) first.errors second.errors
  strayed : first.strayed = second.strayed

end Relations

variable {Like : Fragment → Fragment → Prop} {one two : RecoveryScope}

theorem Paired.none {α β : Type} {Same : α → β → Prop} {state state' : RecoveryState}
    (together : Together Like one two state state') :
    Paired Like one two (Option.Rel Same) (none, state) (none, state') :=
  ⟨.none, together⟩

theorem Paired.some {α β : Type} {Same : α → β → Prop} {a : α} {b : β}
    {state state' : RecoveryState} (together : Together Like one two state state')
    (same : Same a b) : Paired Like one two (Option.Rel Same) (some a, state) (some b, state') :=
  ⟨.some same, together⟩

variable (h : Lockstep Like one two) {state state' : RecoveryState}
include h

theorem inStep (repairs : List Repair) :
    Engine.InStep Like one.compiled two.compiled (one.source.stream repairs)
      (two.source.stream repairs) :=
  ⟨h.grammars, (h.sources.stream repairs).imp fun _ _ => h.tokens⟩

theorem kindName (kind : Kind) : one.kindName kind = two.kindName kind := by
  unfold RecoveryScope.kindName
  rw [h.names]

theorem canInsert (repairs : List Repair) (site : Nat) :
    one.canInsert repairs site = two.canInsert repairs site := by
  unfold RecoveryScope.canInsert
  rw [h.options]

theorem strays (site : Nat) : one.strays site = two.strays site := by
  unfold RecoveryScope.strays
  rw [h.sync, h.options]

theorem candidates (repairs : List Repair) (kinds : List Kind) (site : Nat) :
    one.candidates repairs kinds site = two.candidates repairs kinds site := by
  have hresume (point : Nat) : one.resumeCandidates repairs kinds site point =
      two.resumeCandidates repairs kinds site point := by
    simp only [resumeCandidates, h.kindName, h.strays]
  have hpoints : one.resumePoints site = two.resumePoints site := by
    simp only [resumePoints, syncSites, h.options, h.sources.size, h.sources.kind, h.sync]
  simp only [RecoveryScope.candidates, h.canInsert, h.kindName, h.sources.size, hpoints, h.strays,
    funext hresume]

section Common
variable (together : Together Like one two state state')
include together

theorem siteAt (position : Nat) : one.siteAt state position = two.siteAt state' position := by
  obtain ⟨repairs, htokens, htokens'⟩ := together.streams
  unfold RecoveryScope.siteAt
  rw [htokens, htokens', ← Array.getElem?_toList, ← Array.getElem?_toList, h.sources.size]
  rcases cases_of_rel (rel_getElem?_of_forall₂ (h.sources.stream repairs) position) with
    ⟨hnone, hnone'⟩ | ⟨token, token', hsome, hsome', counterparts⟩
  · rw [hnone, hnone']
  · rw [hsome, hsome']
    exact counterparts.site

/-- What stands in front of the end of the input. -/
theorem trailing : ∃ lead,
    ((state.tokens.back?).map (·.leading)).getD [] = one.source.leading lead ∧
      ((state'.tokens.back?).map (·.leading)).getD [] = two.source.leading lead := by
  obtain ⟨repairs, htokens, htokens'⟩ := together.streams
  have hlast := rel_getElem?_of_forall₂ (h.sources.stream repairs)
    ((one.source.stream repairs).size - 1)
  have hsize := (h.inStep repairs).size
  rw [htokens, htokens', Array.back?, Array.back?, ← hsize]
  rw [Array.getElem?_toList, Array.getElem?_toList] at hlast
  rcases cases_of_rel hlast with ⟨hnone, hnone'⟩ | ⟨token, token', hsome, hsome', counterparts⟩
  · rw [hnone, hnone']
    exact ⟨[], rfl, rfl⟩
  · rw [hsome, hsome']
    exact ⟨token.lead, counterparts.leading⟩

theorem isPast {outcome outcome' : Outcome} (alike : outcome.Alike Like outcome') (token : Nat) :
    one.isPast state outcome token = two.isPast state' outcome' token := by
  unfold RecoveryScope.isPast
  rw [alike.isSuccess, alike.overflow, alike.failurePosition, h.siteAt together]

theorem siteOf {outcome outcome' : Outcome} (alike : outcome.Alike Like outcome') :
    one.siteOf outcome state = two.siteOf outcome' state' := by
  unfold RecoveryScope.siteOf
  rw [alike.overflow, alike.failurePosition]
  split <;> exact h.siteAt together _

/-! ### Runs -/

/-- **Runs keep sessions together.** -/
theorem run (repairs : List Repair) :
    Paired Like one two (Outcome.Alike Like) (one.run repairs state) (two.run repairs state') := by
  obtain ⟨before, htokens, htokens'⟩ := together.streams
  obtain ⟨hresult, hmemo⟩ := (h.inStep repairs).run one.options
    (together.memos.filter (commonLength state.tokens (one.source.stream repairs)))
  have hcommon : commonLength state.tokens (one.source.stream repairs) =
      commonLength state'.tokens (two.source.stream repairs) := by
    rw [htokens, htokens']
    exact h.sources.commonLength before repairs
  simp only [RecoveryScope.run, ← hcommon, ← h.options]
  exact ⟨hresult, ⟨repairs, rfl, rfl⟩, hmemo, together.trials, together.strayed⟩

theorem trial? (repairs : List Repair) :
    Paired Like one two (Option.Rel (Outcome.Alike Like)) (one.trial? repairs state)
      (two.trial? repairs state') := by
  unfold RecoveryScope.trial?
  rw [← h.options, ← together.trials]
  split
  · have hcounted : Together Like one two { state with trials := state.trials + 1 }
        { state' with trials := state.trials + 1 } :=
      ⟨together.streams, together.memos, rfl, together.strayed⟩
    have hrun := h.run hcounted repairs
    exact .some hrun.together hrun.result
  · exact .none together

/-- A trial is made in both sessions, or in none. -/
theorem trial_cases (repairs : List Repair) :
    (∃ next next', one.trial? repairs state = (none, next) ∧
      two.trial? repairs state' = (none, next') ∧ Together Like one two next next') ∨
    ∃ outcome outcome' next next', one.trial? repairs state = (some outcome, next) ∧
      two.trial? repairs state' = (some outcome', next') ∧ outcome.Alike Like outcome' ∧
      Together Like one two next next' := by
  obtain ⟨hresult, hnext⟩ := h.trial? together repairs
  rcases cases_of_rel hresult with ⟨hnone, hnone'⟩ | ⟨outcome, outcome', hsome, hsome', alike⟩
  · exact .inl ⟨_, _, Prod.ext hnone rfl, Prod.ext hnone' rfl, hnext⟩
  · exact .inr ⟨outcome, outcome', _, _, Prod.ext hsome rfl, Prod.ext hsome' rfl, alike, hnext⟩

/-! ### Looking for a repair -/

theorem tryAll? (candidates : List Candidate) :
    Paired Like one two (Option.Rel (Accepted.Alike Like)) (one.tryAll? candidates state)
      (two.tryAll? candidates state') := by
  induction candidates generalizing state state' with
  | nil => exact .none together
  | cons first rest ih =>
    have hnoted : Together Like one two (state.straying first.strays)
        (state'.straying first.strays) :=
      ⟨together.streams, together.memos, together.trials, congrArg (· || first.strays)
        together.strayed⟩
    rw [RecoveryScope.tryAll?, RecoveryScope.tryAll?]
    rcases h.trial_cases hnoted first.repairs with
      ⟨next, next', hone, htwo, hnext⟩ | ⟨outcome, outcome', next, next', hone, htwo, alike, hnext⟩
    · simp only [hone, htwo]
      exact .none hnext
    · simp only [hone, htwo, h.isPast hnext alike]
      split
      · exact .some hnext ⟨rfl, alike, rfl⟩
      · exact ih hnext

theorem complete? (repairs : List Repair) {failed failed' : Outcome}
    (failures : failed.Alike Like failed') (fallback : Option Kind) (kinds : List Kind) :
    Paired Like one two (Option.Rel (Accepted.Alike Like))
      (one.complete? repairs failed fallback kinds state)
      (two.complete? repairs failed' fallback kinds state') := by
  have attempt (kind : Kind) {outcome outcome' : Outcome} (alike : outcome.Alike Like outcome') :
      Accepted.Alike Like
        ⟨Repair.add repairs [.insert one.source.size kind], outcome,
          .inserted (one.kindName kind)⟩
        ⟨Repair.add repairs [.insert one.source.size kind], outcome',
          .inserted (two.kindName kind)⟩ :=
    ⟨rfl, alike, congrArg Recovery.inserted (h.kindName kind)⟩
  induction kinds generalizing fallback state state' with
  | nil =>
    cases fallback with
    | none => exact .none together
    | some kind =>
      have htrial := h.trial? together (Repair.add repairs [.insert one.source.size kind])
      simp only [RecoveryScope.complete?, ← h.sources.size]
      exact ⟨rel_map htrial.result fun alike => attempt kind alike, htrial.together⟩
  | cons kind rest ih =>
    simp only [RecoveryScope.complete?, ← h.sources.size]
    rcases h.trial_cases together (Repair.add repairs [.insert one.source.size kind]) with
      ⟨next, next', hone, htwo, hnext⟩ | ⟨outcome, outcome', next, next', hone, htwo, alike, hnext⟩
    · simp only [hone, htwo]
      exact .none hnext
    · simp only [hone, htwo, ← alike.isSuccess, ← alike.failurePosition, ← failures.failurePosition]
      split
      · exact .some hnext (attempt kind alike)
      · exact ih hnext _

theorem repair? (repairs : List Repair) {failed failed' : Outcome}
    (failures : failed.Alike Like failed') (site : Nat) :
    Paired Like one two (Option.Rel (Accepted.Alike Like)) (one.repair? repairs failed site state)
      (two.repair? repairs failed' site state') := by
  simp only [RecoveryScope.repair?, ← h.canInsert, ← h.sources.size, ← h.candidates,
    ← failures.insertable]
  split
  · exact h.tryAll? together _
  · split
    · exact h.complete? together repairs failures none _
    · exact .none together

theorem unnestAt (repairs : List Repair) (site past : Nat) (best : Option (Nat × Nat))
    (points : List Nat) :
    Paired Like one two
      (fun first second => Option.Rel (Accepted.Alike Like) first.1 second.1 ∧ first.2 = second.2)
      (one.unnestAt repairs site past best points state)
      (two.unnestAt repairs site past best points state') := by
  induction points generalizing best state state' with
  | nil => exact ⟨⟨.none, rfl⟩, together⟩
  | cons point rest ih =>
    simp only [RecoveryScope.unnestAt]
    rcases h.trial_cases together (Repair.add repairs [.skip site point]) with
      ⟨next, next', hone, htwo, hnext⟩ | ⟨outcome, outcome', next, next', hone, htwo, alike, hnext⟩
    · simp only [hone, htwo]
      exact ⟨⟨.none, rfl⟩, hnext⟩
    · simp only [hone, htwo, h.isPast hnext alike, h.siteAt hnext, alike.isSuccess,
        alike.failurePosition]
      split
      · exact ⟨⟨.some ⟨rfl, alike, rfl⟩, rfl⟩, hnext⟩
      · exact ih hnext _

theorem unnest? (repairs : List Repair) (overflow : Overflow) (site : Nat) :
    Paired Like one two (Option.Rel (Accepted.Alike Like))
      (one.unnest? repairs overflow site state) (two.unnest? repairs overflow site state') := by
  simp only [RecoveryScope.unnest?, ← h.sources.size, ← h.siteAt together]
  have hpoints := h.unnestAt together repairs site
    (max (one.siteAt state overflow.position) site) none
    (List.range' (site + 1) (one.source.size - site))
  generalize one.unnestAt repairs site _ none _ state = found,
    two.unnestAt repairs site _ none _ state' = found' at hpoints ⊢
  obtain ⟨⟨accepted, best⟩, next⟩ := found
  obtain ⟨⟨accepted', best'⟩, next'⟩ := found'
  obtain ⟨⟨haccepted, hbest⟩, hnext⟩ := hpoints
  obtain rfl : best = best' := hbest
  rcases cases_of_rel haccepted with ⟨hnone, hnone'⟩ | ⟨_, _, hsome, hsome', alike⟩
  · obtain rfl : accepted = none := hnone
    obtain rfl : accepted' = none := hnone'
    rcases best with _ | ⟨point, reached⟩
    · exact .none hnext
    · have hrun := h.run hnext (Repair.add repairs [.skip site point])
      exact .some hrun.together ⟨rfl, hrun.result, rfl⟩
  · obtain rfl : accepted = some _ := hsome
    obtain rfl : accepted' = some _ := hsome'
    exact .some hnext alike

theorem find? (repairs : List Repair) {outcome outcome' : Outcome}
    (alike : outcome.Alike Like outcome') (site : Nat) :
    Paired Like one two (Option.Rel (Accepted.Alike Like)) (one.find? repairs outcome site state)
      (two.find? repairs outcome' site state') := by
  unfold RecoveryScope.find?
  rw [← alike.overflow]
  split
  · exact h.unnest? together repairs _ site
  · exact h.repair? together repairs alike site

/-! ### The end of the input -/

theorem insertAtEnd (repairs : List Repair) {failed failed' : Outcome}
    (failures : failed.Alike Like failed') (best : Option (List Repair)) (kinds : List Kind) :
    Paired Like one two Eq (one.insertAtEnd repairs failed best kinds state)
      (two.insertAtEnd repairs failed' best kinds state') := by
  induction kinds generalizing best state state' with
  | nil => exact ⟨rfl, together⟩
  | cons kind rest ih =>
    have hrun := h.run together (Repair.add repairs [.insert one.source.size kind])
    simp only [RecoveryScope.insertAtEnd, ← h.sources.size, ← hrun.result.isSuccess,
      ← hrun.result.failurePosition, ← failures.failurePosition]
    split
    · exact ⟨rfl, hrun.together⟩
    · exact ih hrun.together _

theorem completeAtEnd (repairs : List Repair) {outcome outcome' : Outcome}
    (alike : outcome.Alike Like outcome') (count : Nat) :
    Paired Like one two (Outcome.Alike Like) (one.completeAtEnd repairs outcome state count)
      (two.completeAtEnd repairs outcome' state' count) := by
  induction count generalizing repairs outcome outcome' state state' with
  | zero => exact ⟨alike, together⟩
  | succ count ih =>
    simp only [RecoveryScope.completeAtEnd, ← h.sources.size, ← alike.isSuccess, ← alike.overflow,
      ← alike.failurePosition, ← h.siteAt together, ← alike.insertable]
    split
    · exact ⟨alike, together⟩
    · have hinserted := h.insertAtEnd together repairs alike none (insertable outcome)
      generalize one.insertAtEnd repairs outcome none _ state = inserted,
        two.insertAtEnd repairs outcome' none _ state' = inserted' at hinserted ⊢
      obtain ⟨attempt, next⟩ := inserted
      obtain ⟨attempt', next'⟩ := inserted'
      obtain ⟨hattempt, hnext⟩ := hinserted
      obtain rfl : attempt = attempt' := hattempt
      cases attempt with
      | none => exact ⟨alike, hnext⟩
      | some attempt =>
        have hrun := h.run hnext attempt
        exact ih hrun.together attempt hrun.result

/-! ### The result -/

variable {errors errors' : List Diagnostic}
  (reports : List.Forall₂ (Reports Like one two) errors errors')
include reports

omit h in
theorem succeed {fragment fragment' : Fragment} (alike : Like fragment fragment') :
    Concluded Like one two (one.succeed fragment errors state)
      (two.succeed fragment' errors' state') :=
  ⟨.finished alike together, reports, together.strayed⟩

omit h in
theorem abandon {current current' : Option (Nat × Outcome)}
    (failures : Option.Rel
      (fun first second => first.1 = second.1 ∧ first.2.Alike Like second.2) current current') :
    Concluded Like one two (one.abandon errors current state)
      (two.abandon errors' current' state') := by
  refine ⟨.abandoned, .cons (.abandoned ?_) .nil, together.strayed⟩
  cases reports with
  | cons first _ => exact first
  | nil =>
    cases failures with
    | none => exact .untried
    | @some failure failure' same =>
      obtain ⟨site, outcome⟩ := failure
      obtain ⟨site', outcome'⟩ := failure'
      obtain ⟨hsite, alike⟩ := same
      obtain rfl : site = site' := hsite
      exact .failure site alike none

theorem truncate (repairs : List Repair) (site : Nat) {failed failed' : Outcome}
    (failures : failed.Alike Like failed') :
    Concluded Like one two (one.truncate repairs errors site failed state)
      (two.truncate repairs errors' site failed' state') := by
  simp only [RecoveryScope.truncate, ← h.sources.size, ← h.options]
  generalize (if site < one.source.size then Repair.add repairs [.skip site one.source.size]
    else repairs) = all
  have hrun := h.run together all
  have hcompleted := h.completeAtEnd hrun.together all hrun.result one.options.maxInsertions
  generalize one.completeAtEnd all _ _ _ = completed, two.completeAtEnd all _ _ _ = completed'
    at hcompleted ⊢
  obtain ⟨outcome, next⟩ := completed
  obtain ⟨outcome', next'⟩ := completed'
  obtain ⟨hlast, hnext⟩ := hcompleted
  have alike : outcome.Alike Like outcome' := hlast
  rcases cases_of_rel alike.fragment with ⟨hnone, hnone'⟩ | ⟨_, _, hsome, hsome', fragments⟩
  · simp only [hnone, hnone']
    exact abandon hnext reports (.some ⟨rfl, failures⟩)
  · simp only [hsome, hsome']
    refine succeed hnext ?_ fragments
    exact List.rel_append reports (.cons (.failure site failures _) .nil)

/-! ### The search -/

theorem search (repairs : List Repair) {outcome outcome' : Outcome}
    (alike : outcome.Alike Like outcome') (count : Nat) :
    Concluded Like one two (one.search repairs errors outcome state count)
      (two.search repairs errors' outcome' state' count) := by
  induction count generalizing repairs errors errors' outcome outcome' state state' with
  | zero =>
    simp only [RecoveryScope.search, ← h.options, ← h.siteOf together alike]
    rcases cases_of_rel alike.fragment with ⟨hnone, hnone'⟩ | ⟨_, _, hsome, hsome', fragments⟩
    · simp only [hnone, hnone']
      split
      · exact abandon together reports (.some ⟨rfl, alike⟩)
      · exact h.truncate together reports repairs _ alike
    · simp only [hsome, hsome']
      exact succeed together reports fragments
  | succ count ih =>
    simp only [RecoveryScope.search, ← h.siteOf together alike]
    rcases cases_of_rel alike.fragment with ⟨hnone, hnone'⟩ | ⟨_, _, hsome, hsome', fragments⟩
    · simp only [hnone, hnone']
      have hfound := h.find? together repairs alike (one.siteOf outcome state)
      generalize hsite : one.siteOf outcome state = site at hfound ⊢
      generalize one.find? repairs outcome site state = found,
        two.find? repairs outcome' site state' = found' at hfound ⊢
      obtain ⟨accepted, next⟩ := found
      obtain ⟨accepted', next'⟩ := found'
      obtain ⟨haccepted, hnext⟩ := hfound
      rcases cases_of_rel haccepted with ⟨hnone, hnone'⟩ | ⟨taken, taken', hsome, hsome', same⟩
      · obtain rfl : accepted = none := hnone
        obtain rfl : accepted' = none := hnone'
        exact h.truncate hnext reports repairs site alike
      · obtain rfl : accepted = some taken := hsome
        obtain rfl : accepted' = some taken' := hsome'
        simp only [← same.repairs, ← same.recovery]
        refine ih hnext ?_ taken.repairs same.outcome
        exact List.rel_append reports (.cons (.failure site alike _) .nil)
    · simp only [hsome, hsome']
      exact succeed together reports fragments

omit together reports in
/-- **Sessions in step end in the same way**, and report the same failures at the same sites. -/
theorem recover {seed seed' : Memo} (seeds : seed.Alike Like seed') :
    Concluded Like one two (one.recover seed) (two.recover seed') := by
  have start : Together Like one two ⟨one.source.stream [], seed, 0, [], false⟩
      ⟨two.source.stream [], seed', 0, [], false⟩ := ⟨⟨[], rfl, rfl⟩, seeds, rfl, rfl⟩
  simp only [RecoveryScope.recover, ← h.options]
  rcases h.trial_cases start [] with
    ⟨next, next', hone, htwo, hnext⟩ | ⟨outcome, outcome', next, next', hone, htwo, alike, hnext⟩
  · simp only [hone, htwo]
    exact abandon hnext .nil .none
  · simp only [hone, htwo]
    exact h.search hnext .nil [] alike _

end Common

end Lockstep

end RecoveryScope

end Syntagm
