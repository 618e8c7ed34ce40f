import Syntagm.Proofs.MemoValidity
import Syntagm.Proofs.Recovery

/-!
# What the tree of a session is made of

If what a session starts with is right for the input, then the run behind its result evaluates
the start rule on a stream that fitting repairs make of the source (`RecoveryScope.Ran`).  If
the run succeeded, the match takes the whole stream but the end of the input: no other token of
the stream has that kind, as long as no token of the source has (`Source.Proper`).

What a run gives depends on its repairs alone, whatever is remembered, unless it is cut short by
the limit on depth (`RecoveryScope.RunsTo.unique`).
-/

namespace Syntagm

/-- No token of the source is the end of the input. -/
def Source.Proper (source : Source) : Prop :=
  ∀ token ∈ source.tokens, token.kind ≠ Kind.endOfInput

namespace Source

variable {source : Source}

theorem Proper.kind_ne (h : source.Proper) {index : Nat} (lt : index < source.size) :
    source.kind index ≠ Kind.endOfInput := by
  have htoken := Array.getElem?_eq_getElem lt
  simp only [kind, htoken, Option.map_some, Option.getD_some]
  exact h _ (Array.getElem_mem lt)

/-- The end of the input stands at the end of a stream, and nowhere else. -/
theorem Proper.ends (proper : source.Proper) {repairs : List Repair} (fits : Fitting repairs) :
    ∃ front waiting,
      (source.stream repairs).toList = front ++ [source.realToken source.size waiting] ∧
        ∀ token ∈ front, token.kind ≠ Kind.endOfInput := by
  obtain ⟨front, waiting, heq, hfront⟩ := (lays_stream fits).ends (Nat.zero_le _)
  refine ⟨front, waiting, heq, fun token hmem hkind => ?_⟩
  rcases hfront token hmem with hallowed | ⟨place, hlt, hplace⟩
  · rw [hkind] at hallowed
    cases hallowed
  · exact proper.kind_ne hlt (hplace.symm.trans hkind)

end Source

namespace RecoveryScope

variable {scope : RecoveryScope} {grammar : Grammar} {state : RecoveryState} {outcome : Outcome}

/-- **What a run gives**: what an evaluation of the start rule on the stream amounts to. -/
structure Ran (scope : RecoveryScope) (outcome : Outcome) (state : RecoveryState) : Prop where
  tokens : ∃ repairs, Fitting repairs ∧ state.tokens = scope.source.stream repairs
  evaluates : ∃ rule result seen, scope.compiled.program.rules[scope.compiled.start]? = some rule ∧
    Evaluates scope.compiled state.tokens (.body rule leastLevel) 0 result seen ∧
    outcome = Engine.outcomeOf state.tokens result seen

/-- In a session all that is remembered is right for the stream of the last run. -/
def Sound (scope : RecoveryScope) (state : RecoveryState) : Prop :=
  ∃ repairs, scope.Consistent repairs state

theorem sound_start {seed : Memo} (right : seed.Valid scope.compiled (scope.source.stream [])) :
    scope.Sound ⟨scope.source.stream [], seed, 0, [], false⟩ :=
  ⟨[], rfl, right⟩

/-- What a run with some repairs can give: what an evaluation of the start rule amounts to. -/
def RunsTo (scope : RecoveryScope) (repairs : List Repair) (outcome : Outcome) : Prop :=
  ∃ rule result seen, scope.compiled.program.rules[scope.compiled.start]? = some rule ∧
    Evaluates scope.compiled (scope.source.stream repairs) (.body rule leastLevel) 0 result seen ∧
    outcome = Engine.outcomeOf (scope.source.stream repairs) result seen

/-- **Runs with the same repairs give the same**, unless one of them is cut. -/
theorem RunsTo.unique {repairs : List Repair} {other : Outcome}
    (h : scope.RunsTo repairs outcome) (h' : scope.RunsTo repairs other)
    (uncut : outcome.overflow = none) (uncut' : other.overflow = none) : outcome = other := by
  obtain ⟨rule, result, seen, hrule, hone, rfl⟩ := h
  obtain ⟨rule', result', seen', hrule', htwo, rfl⟩ := h'
  rw [Engine.overflow_outcomeOf] at uncut uncut'
  obtain rfl := Option.some.inj (hrule.symm.trans hrule')
  obtain ⟨rfl, rfl⟩ := hone.unique htwo uncut uncut'
  rfl

/-- **A run evaluates the start rule**, whatever is remembered. -/
theorem runsTo_run (realizes : scope.compiled.Realizes grammar) (repairs : List Repair)
    (sound : scope.Sound state) : scope.RunsTo repairs (scope.run repairs state).1 := by
  obtain ⟨before, hconsistent⟩ := sound
  obtain ⟨rule, hrule, -⟩ := realizes.start
  have hmemo := hconsistent.memo
  rw [hconsistent.tokens] at hmemo
  obtain ⟨⟨result, seen, hevaluates, heq⟩, -⟩ :=
    Engine.sound_run hrule scope.options (hmemo.filter repairs)
  refine ⟨rule, result, seen, hrule, hevaluates, ?_⟩
  simp only [RecoveryScope.run, hconsistent.tokens]
  exact heq

theorem Sound.run (h : scope.Sound state) (repairs : List Repair) :
    scope.Sound (scope.run repairs state).2 := by
  obtain ⟨before, hconsistent⟩ := h
  exact ⟨repairs, hconsistent.run repairs⟩

theorem Sound.count (h : scope.Sound state) (trials : Nat) :
    scope.Sound { state with trials := trials } := by
  obtain ⟨repairs, hconsistent⟩ := h
  exact ⟨repairs, hconsistent.tokens, hconsistent.memo⟩

theorem Sound.straying (h : scope.Sound state) (strays : Bool) :
    scope.Sound (state.straying strays) := by
  obtain ⟨repairs, hconsistent⟩ := h
  exact ⟨repairs, hconsistent.tokens, hconsistent.memo⟩

theorem keeps_sound (realizes : scope.compiled.Realizes grammar) :
    scope.Keeps scope.Sound scope.Ran where
  count _ trials sound := sound.count trials
  straying _ _ sound := sound.straying true
  run repairs _ _ sound := sound.run repairs
  gives repairs _ fits sound := ⟨⟨repairs, fits, rfl⟩, runsTo_run realizes repairs sound⟩

/-- **The result of a session** that starts with right entries. -/
theorem settled_recover (realizes : scope.compiled.Realizes grammar) {seed : Memo}
    (right : seed.Valid scope.compiled (scope.source.stream [])) :
    scope.Settled scope.Sound scope.Ran (scope.recover seed) :=
  (keeps_sound realizes).recover seed (sound_start right)

/-- A match of the start rule that takes the whole stream but the end of the input. -/
structure Matched (scope : RecoveryScope) (fragment : Fragment) (tokens : Array StreamToken) :
    Prop where
  start : ∃ rule stop seen, scope.compiled.program.rules[scope.compiled.start]? = some rule ∧
    Evaluates scope.compiled tokens (.body rule leastLevel) 0 (some ⟨fragment, stop⟩) seen ∧
    stop + 1 = tokens.size
  repairs : ∃ repairs, Fitting repairs ∧ tokens = scope.source.stream repairs
  last : ∃ waiting, tokens.back? = some (scope.source.realToken scope.source.size waiting)

/-- **A run that succeeds matches the whole stream.** -/
theorem Ran.matched (h : scope.Ran outcome state) (realizes : scope.compiled.Realizes grammar)
    (proper : scope.source.Proper) {fragment : Fragment}
    (success : outcome.fragment = some fragment) : scope.Matched fragment state.tokens := by
  obtain ⟨repairs, fits, htokens⟩ := h.tokens
  obtain ⟨rule, result, seen, hrule, hevaluates, rfl⟩ := h.evaluates
  obtain ⟨front, waiting, hlist, hfront⟩ := proper.ends fits
  rw [← htokens] at hlist
  have hsize : state.tokens.size = front.length + 1 := by
    rw [← Array.length_toList, hlist, List.length_append, List.length_singleton]
  have hlast : state.tokens.back? = some (scope.source.realToken scope.source.size waiting) := by
    rw [← Array.getLast?_toList, hlist, List.getLast?_concat]
  refine ⟨?_, ⟨repairs, fits, htokens⟩, waiting, hlast⟩
  unfold Engine.outcomeOf at success
  split at success
  · cases success
  · rename_i found
    split at success
    · rename_i hend
      obtain rfl := Option.some.inj success
      refine ⟨rule, found.stop, seen, hrule, hevaluates, ?_⟩
      -- the match stays in the stream, in front of a token that is the end of the input
      have hinside := (hevaluates.inside ⟨_, hlast, Source.kind_size⟩ realizes
        (by omega)).stop found rfl
      by_contra hne
      have hlt : found.stop < front.length := by omega
      have htoken : state.tokens[found.stop]? = some front[found.stop] := by
        rw [← Array.getElem?_toList, hlist, List.getElem?_append_left hlt,
          List.getElem?_eq_getElem hlt]
      refine hfront _ (List.getElem_mem hlt) ?_
      rw [← hend, Engine.kindAt, htoken]
      rfl
    · cases success

end RecoveryScope

end Syntagm
