import Syntagm.Parse.Recovery
import Syntagm.Proofs.Lowering
import Syntagm.Proofs.Stream
import Syntagm.Proofs.Unlimited

/-!
# What is remembered is right

A recovery session runs the engine over one stream after the other and hands on what it
remembers.  An entry is **right** for a stream if the engine without memory and without limit
on depth gives what the entry says (`MemoEntry.Right`).

**From run to run.**  An entry is kept if it looked at no more than the common beginning of the
old and the new stream.  There the streams look the same, so the entry is right for both
(`Memo.Valid.filter`).  A run adds only right entries, whatever it is cut short by
(`Engine.sound_run`).  So all entries are right after any number of runs.

**For the next parse.**  An entry is exported if no repair touched a token that it looked at.
Such a stretch is a stretch of the source, and the entry is right there, at the place of its
first significant token (`RecoveryScope.evaluates_of_reusable?`).  The end of the stretch is in
the stream because no operation matches the end of the input.
-/

namespace Syntagm

/-! ### Right entries -/

namespace MemoEntry

/-- **An entry is right** for a stream: from some limit on depth on, the engine that remembers
nothing gives the result of the entry and sees what the entry says. -/
def Right (compiled : CompiledGrammar) (tokens : Array StreamToken) (key : MemoKey)
    (entry : MemoEntry) : Prop :=
  ∃ enough, ∀ depth, enough ≤ depth → ∀ frames,
    Engine.callRule compiled tokens false depth frames key.rule key.bound key.position ∅ =
      ⟨entry.result, entry.seen, ∅⟩

variable {compiled : CompiledGrammar} {tokens : Array StreamToken} {key : MemoKey}
  {entry : MemoEntry}

theorem right_iff_evaluates :
    entry.Right compiled tokens key ↔
      Evaluates compiled tokens (.call key.rule key.bound) key.position entry.result
        entry.seen := by
  constructor
  · rintro ⟨enough, h⟩
    have hcall := (Engine.sound_callRule false enough [] key.rule key.bound key.position ∅
      (@Memo.valid_empty compiled tokens)).1
    rwa [h enough (Nat.le_refl _) []] at hcall
  · intro h
    exact h.unlimited rfl

/-- **An entry carried elsewhere.**  Where the stretch that an entry looked at is also, an entry
is right that says the same with all places carried there. -/
theorem evaluates_carried {others : Array StreamToken} {goal : Goal} {other : MemoEntry}
    {origin target count position place : Nat}
    (right : Evaluates compiled tokens goal position entry.result entry.seen)
    (same : SameStretch tokens others origin target count) (le : origin ≤ position)
    (fit : entry.lookahead ≤ origin + count)
    (place_eq : place = carried origin target position)
    (result_eq : other.result = entry.result.map (Match.relocate origin target))
    (failure_eq : other.failure = entry.failure.map (Failure.relocate origin target))
    (lookahead_eq : other.lookahead = carriedEnd origin target entry.lookahead) :
    Evaluates compiled others goal place other.result other.seen := by
  have hseen : other.seen = entry.seen.relocate origin target := by
    rw [seen, failure_eq, lookahead_eq]
    rfl
  rw [place_eq, result_eq, hseen]
  exact right.relocate same le fit

end MemoEntry

theorem Memo.valid_iff_right {compiled : CompiledGrammar} {tokens : Array StreamToken}
    {memo : Memo} :
    memo.Valid compiled tokens ↔
      ∀ (key : MemoKey) (entry : MemoEntry), memo[key]? = some entry →
        entry.Right compiled tokens key :=
  forall₃_congr fun _ _ _ => MemoEntry.right_iff_evaluates.symm

/-! ### From one run to the next -/

section Runs
variable {compiled : CompiledGrammar} {source : Source}

/-- Entries that looked at no more than the common beginning of two streams are right for
both. -/
theorem Memo.Valid.filter {memo : Memo} {repairs : List Repair}
    (h : memo.Valid compiled (source.stream repairs)) (others : List Repair) :
    Memo.Valid compiled (source.stream others) (memo.filter fun _ entry =>
      entry.lookahead ≤ commonLength (source.stream repairs) (source.stream others)) := by
  intro key entry hentry
  rw [Std.HashMap.getElem?_filter', Option.filter_eq_some_iff] at hentry
  obtain ⟨hold, hfits⟩ := hentry
  exact (h key entry hold).stay (Source.sameStretch_commonLength repairs others)
    (of_decide_eq_true hfits)

/-- A run keeps what is remembered right. -/
theorem Engine.valid_run (options : ParserOptions) {tokens : Array StreamToken} {memo : Memo}
    (h : memo.Valid compiled tokens) :
    Memo.Valid compiled tokens (run compiled options tokens memo).2 := by
  cases hstart : compiled.program.rules[compiled.start]? with
  | none =>
    simp only [run, hstart]
    exact h
  | some start => exact (sound_run hstart options h).2

end Runs

namespace RecoveryScope

variable {scope : RecoveryScope} {state : RecoveryState} {repairs : List Repair}

/-- The stream of a session is the one that repairs make, and all that is remembered is right
for it. -/
structure Consistent (scope : RecoveryScope) (repairs : List Repair) (state : RecoveryState) :
    Prop where
  tokens : state.tokens = scope.source.stream repairs
  memo : state.memo.Valid scope.compiled state.tokens

theorem Consistent.run (h : scope.Consistent repairs state) (others : List Repair) :
    scope.Consistent others (scope.run others state).2 where
  tokens := rfl
  memo := by
    have hmemo := h.memo
    rw [h.tokens] at hmemo
    simp only [RecoveryScope.run, h.tokens]
    exact Engine.valid_run _ (hmemo.filter others)

/-- The state after runs with some repairs, one after the other. -/
def afterRuns (scope : RecoveryScope) (attempts : List (List Repair)) (state : RecoveryState) :
    RecoveryState :=
  attempts.foldl (fun state repairs => (scope.run repairs state).2) state

theorem Consistent.afterRuns (h : scope.Consistent repairs state)
    (attempts : List (List Repair)) :
    scope.Consistent (attempts.getLastD repairs) (scope.afterRuns attempts state) := by
  induction attempts generalizing repairs state with
  | nil => exact h
  | cons first rest ih =>
    rw [List.getLastD_cons]
    exact ih (h.run first)

end RecoveryScope

/-! ### Staying inside the stream -/

section Inside
variable {compiled : CompiledGrammar} {grammar : Grammar} {tokens : Array StreamToken}
  {goal : Goal} {position : Nat} {result : Option Match} {seen : Observation}

/-- A stream that ends with the end of the input. -/
def Ended (tokens : Array StreamToken) : Prop :=
  ∃ token, tokens.back? = some token ∧ token.kind = Kind.endOfInput

/-- A token of another kind is not the last one of a stream. -/
theorem Ended.succ_lt (ended : Ended tokens) {token : StreamToken}
    (found : tokens[position]? = some token) (other : token.kind ≠ Kind.endOfInput) :
    position + 1 < tokens.size := by
  obtain ⟨hlt, -⟩ := Array.getElem?_eq_some_iff.mp found
  obtain ⟨last, hlast, hend⟩ := ended
  refine Nat.lt_of_le_of_ne hlt fun hsize => ?_
  rw [Array.back?_eq_getElem?, ← hsize, Nat.add_sub_cancel, found] at hlast
  obtain rfl := Option.some.inj hlast
  exact other hend

/-- A token that an operation matches is not the last one of a stream: no terminal has the kind of
the end of the input. -/
theorem Ended.lt_of_matches (ended : Ended tokens) (realizes : compiled.Realizes grammar)
    {op : Nat} {kind : Kind} {token : StreamToken} (view : compiled.program.view op = .token kind)
    (found : (tokens[position]?).filter (·.kind = kind) = some token) :
    position + 1 < tokens.size := by
  obtain ⟨htoken, hkind⟩ := Option.filter_eq_some_iff.mp found
  refine ended.succ_lt htoken fun hend => ?_
  have hreserved := (realizes.owns_of_view view).not_reserved
  rw [← of_decide_eq_true hkind, hend] at hreserved
  cases hreserved

/-- What an evaluation looks at and matches ends in the stream. -/
structure Inside (tokens : Array StreamToken) (result : Option Match) (seen : Observation) :
    Prop where
  lookahead : seen.lookahead ≤ tokens.size
  stop : ∀ found, result = some found → found.stop < tokens.size

namespace Inside

variable {after : Observation} {final : Option Match}

theorem failed (h : seen.lookahead ≤ tokens.size) : Inside tokens none seen :=
  ⟨h, fun _ hnone => (nomatch hnone)⟩

theorem still (h : seen.lookahead ≤ tokens.size) (start : position < tokens.size)
    {found : Match} (stop : found.stop = position) : Inside tokens (some found) seen := by
  refine ⟨h, ?_⟩
  rintro _ ⟨⟩
  rwa [stop]

/-- A step behind another one. -/
theorem behind (le : seen.lookahead ≤ tokens.size) (h : Inside tokens result after) :
    Inside tokens result (seen.followedBy after) :=
  ⟨Nat.max_le.mpr ⟨le, h.lookahead⟩, h.stop⟩

/-- A match that stops where another one does. -/
theorem transfer (h : Inside tokens result seen)
    (stops : ∀ whole, final = some whole → ∃ part, result = some part ∧ whole.stop = part.stop) :
    Inside tokens final seen := by
  refine ⟨h.lookahead, fun whole hwhole => ?_⟩
  obtain ⟨part, hpart, heq⟩ := stops whole hwhole
  rw [heq]
  exact h.stop part hpart

end Inside

/-- **Evaluations stay inside the stream.**  No operation matches the end of the input, so
none gets behind it. -/
theorem Evaluates.inside (h : Evaluates compiled tokens goal position result seen)
    (ended : Ended tokens) (realizes : compiled.Realizes grammar)
    (start : position < tokens.size) : Inside tokens result seen := by
  induction h with
  | token view found =>
    refine ⟨start, ?_⟩
    rintro _ ⟨⟩
    exact ended.lt_of_matches realizes view found
  | otherToken => exact .failed (Nat.max_le.mpr ⟨start, Nat.zero_le _⟩)
  | seq _ _ ih => exact ih start
  | choice _ _ ih => exact .behind start (ih start)
  | repetition _ _ ih => exact ih start
  | @optional _ _ _ result _ _ _ ih =>
    cases result with
    | none => exact .still (ih start).lookahead start rfl
    | some found => exact ih start
  | blank => exact .still (Nat.zero_le _) start rfl
  | callOp _ _ ih => exact ih start
  | allNil => exact .still (Nat.zero_le _) start rfl
  | allFail _ ih => exact ih start
  | allCons _ _ ihHead ihRest =>
    have hhead := ihHead start
    exact .behind hhead.lookahead ((ihRest (hhead.stop _ rfl)).transfer Match.stops_of_prepend)
  | firstNil => exact .failed (Nat.zero_le _)
  | firstPruned _ _ ih => exact .behind (Nat.zero_le _) (ih start)
  | firstFound _ _ ih => exact ih start
  | firstNext _ _ _ ihHead ihRest => exact .behind (ihHead start).lookahead (ihRest start)
  | manyEnd _ ih =>
    split
    · exact .still (ih start).lookahead start rfl
    · exact ih start
  | @manyEmpty least _ _ found _ _ _ ih =>
    match least with
    | 0 => exact .still (ih start).lookahead start rfl
    | 1 => exact ih start
    | _ + 2 => exact .failed (ih start).lookahead
  | manyMore _ _ _ ihRound ihRest =>
    have hround := ihRound start
    exact .behind hround.lookahead ((ihRest (hround.stop _ rfl)).transfer Match.stops_of_prepend)
  | tailNil => exact .failed (Nat.zero_le _)
  | tailFound _ _ ih => exact ih start
  | tailNext _ _ _ ihHead ihRest => exact .behind (ihHead start).lookahead (ihRest start)
  | growEnd _ ih => exact .still (ih start).lookahead start rfl
  | growMore _ _ _ ihTail ihRest =>
    have htail := ihTail start
    exact .behind htail.lookahead (ihRest (htail.stop _ rfl))
  | plain _ _ ih => exact ih start
  | noBase _ _ ih => exact ih start
  | base _ _ _ ihEntry ihRest =>
    have hentry := ihEntry start
    exact .behind hentry.lookahead (ihRest (hentry.stop _ rfl))
  | noRule => exact .failed (Nat.zero_le _)
  | @call _ rule _ _ result _ _ _ ih =>
    refine (ih start).transfer fun whole hwhole => ?_
    obtain ⟨part, hpart, rfl⟩ := Option.map_eq_some_iff.mp hwhole
    exact ⟨part, hpart, rfl⟩
  | tooDeep => exact .failed (Nat.zero_le _)

end Inside

/-! ### Exported entries -/

namespace RecoveryScope

variable {scope : RecoveryScope} {grammar : Grammar} {repairs : List Repair}

/-- A stretch of tokens that `reusable?` has found to be without repairs. -/
structure Unrepaired (tokens : Array StreamToken) (position stop : Nat) (first : StreamToken) :
    Prop where
  first : tokens[position]? = some first
  fits : stop ≤ tokens.size
  plain : ((tokens.extract position stop).any (·.isRepaired)) = false

namespace Unrepaired

variable {source : Source} {position stop : Nat} {first : StreamToken}

theorem plain_at {tokens : Array StreamToken} (h : Unrepaired tokens position stop first)
    (index : Nat) (lt : index < stop - position) (token : StreamToken)
    (found : tokens[position + index]? = some token) : token.isRepaired = false := by
  have hmem : token ∈ tokens.extract position stop := by
    refine Array.mem_of_getElem? (i := index) ?_
    have := h.fits
    rw [Array.getElem?_extract, if_pos (by omega), found]
  have hall := Array.any_eq_false'.mp h.plain token hmem
  exact Bool.eq_false_iff.mpr hall

/-- The stretch is one of the stream without repairs. -/
theorem sameStretch (h : Unrepaired (source.stream repairs) position stop first)
    (lt : position < stop) :
    SameStretch (source.stream repairs) (source.stream []) position first.site
      (stop - position) := by
  have := h.fits
  exact Source.sameStretch_of_plain h.first (by omega) h.plain_at

/-- The places of its tokens in the source. -/
theorem site_eq (h : Unrepaired (source.stream repairs) position stop first) {place : Nat}
    (le : position ≤ place) (lt : place < stop) :
    ((source.stream repairs)[place]?).map (·.site) =
      some (carried position first.site place) := by
  have := h.fits
  have htoken := Array.getElem?_eq_getElem (show place < (source.stream repairs).size by omega)
  have hsite := Source.site_of_plain h.first h.plain_at (place - position) (by omega) _
    ((congrArg ((source.stream repairs)[·]?) (Nat.add_sub_cancel' le)).trans htoken)
  rw [htoken, Option.map_some, hsite, carried, Nat.add_comm]

/-- Where a part of a stretch ends in the source, by the token in front of its end. -/
def endOf (tokens : Array StreamToken) (position : Nat) (first : StreamToken) (place : Nat) :
    Nat :=
  if position < place then ((tokens[place - 1]?).map (·.site + 1)).getD 0 else first.site

theorem endOf_eq (h : Unrepaired (source.stream repairs) position stop first) {place : Nat}
    (le : position ≤ place) (fits : position < place → place ≤ stop) :
    endOf (source.stream repairs) position first place = carried position first.site place := by
  unfold endOf
  split
  · rename_i hlt
    have hsite := h.site_eq (show position ≤ place - 1 by omega) (by have := fits hlt; omega)
    have hnext := congrArg (Option.map (· + 1)) hsite
    rw [Option.map_map] at hnext
    have hsame : ((source.stream repairs)[place - 1]?).map (·.site + 1) =
        some (carried position first.site (place - 1) + 1) := hnext
    rw [hsame, Option.getD_some, ← carried_succ (by omega), Nat.sub_add_cancel (by omega)]
  · obtain rfl : place = position := by omega
    rw [carried_self]

section Confined
variable {slack : Nat} {result : Option Match} {seen : Observation}
  (h : Unrepaired (source.stream repairs) position stop first)
  (confined : Confined (source.stream repairs) slack position result seen)
include h confined

/-- The match of an entry, carried to the source. -/
theorem result_eq (le : seen.lookahead ≤ stop) :
    (result.map fun found =>
      { found with stop := endOf (source.stream repairs) position first found.stop }) =
      result.map (Match.relocate position first.site) := by
  refine Option.map_congr fun found hfound => ?_
  rw [h.endOf_eq (confined.le_stop found hfound) fun hmore => ?_]
  · rfl
  · exact Nat.le_trans (confined.read found hfound hmore).1 le

/-- The failure of an entry, carried to the source. -/
theorem failure_eq (le : seen.lookahead ≤ stop) (lt : position + slack < stop) :
    (seen.failure.map fun failure =>
      { failure with position :=
        (((source.stream repairs)[failure.position]?).map (·.site)).getD 0 }) =
      seen.failure.map (Failure.relocate position first.site) := by
  refine Option.map_congr fun failure hfound => ?_
  obtain ⟨hle, hlt⟩ := confined.within.failure failure hfound
  rw [h.site_eq hle (by omega)]
  rfl

/-- The end of what an entry looked at, carried to the source. -/
theorem lookahead_eq (le : seen.lookahead ≤ stop) :
    (if position < seen.lookahead then
        endOf (source.stream repairs) position first seen.lookahead
      else 0) = carriedEnd position first.site seen.lookahead := by
  rcases confined.within.lookahead with hzero | hmore
  · rw [hzero]
    rfl
  · rw [if_pos hmore, h.endOf_eq (Nat.le_of_lt hmore) fun _ => le, carriedEnd,
      if_neg (Nat.ne_zero_of_lt hmore)]

end Confined

end Unrepaired

/-- **What is exported is right for the stream without repairs.** -/
theorem evaluates_of_reusable? (realizes : scope.compiled.Realizes grammar)
    {key : MemoKey} {entry : MemoEntry} {exported : MemoKey × MemoEntry}
    (right : Evaluates scope.compiled (scope.source.stream repairs) (.call key.rule key.bound)
      key.position entry.result entry.seen)
    (done : reusable? (scope.source.stream repairs) key entry = some exported) :
    Evaluates scope.compiled (scope.source.stream []) (.call exported.1.rule exported.1.bound)
      exported.1.position exported.2.result exported.2.seen := by
  unfold reusable? at done
  obtain ⟨first, hfirst, done⟩ := Option.bind_eq_some_iff.mp done
  split at done
  · cases done
  · rename_i hplain
    obtain rfl := Option.some.inj done
    have hlt := (Array.getElem?_eq_some_iff.mp hfirst).1
    -- what is checked to be without repairs is all that the call looked at
    have hinside := right.inside (Source.stream_ends repairs) realizes hlt
    have hlook : entry.lookahead ≤ (scope.source.stream repairs).size := hinside.lookahead
    have hstretch : Unrepaired (scope.source.stream repairs) key.position
        (max entry.lookahead (key.position + 1)) first :=
      ⟨hfirst, by omega, Bool.eq_false_iff.mpr hplain⟩
    have hconfined : Confined _ 0 key.position entry.result entry.seen := right.confined
    have hlooked : entry.lookahead ≤ max entry.lookahead (key.position + 1) :=
      Nat.le_max_left ..
    exact MemoEntry.evaluates_carried right (hstretch.sameStretch (by omega)) (Nat.le_refl _)
      (by omega) (carried_self ..).symm (hstretch.result_eq hconfined hlooked)
      (hstretch.failure_eq hconfined hlooked (by omega))
      (hstretch.lookahead_eq hconfined hlooked)

/-- All that a session exports is right for the stream without repairs. -/
theorem Consistent.evaluates_reuseTable (realizes : scope.compiled.Realizes grammar)
    {state : RecoveryState} (h : scope.Consistent repairs state) :
    ∀ exported ∈ reuseTable state,
      Evaluates scope.compiled (scope.source.stream []) (.call exported.1.rule exported.1.bound)
        exported.1.position exported.2.result exported.2.seen := by
  intro exported hexported
  obtain ⟨⟨key, entry⟩, hmem, hone⟩ :=
    List.mem_filterMap.mp (List.mem_mergeSort.mp hexported)
  have hentry := h.memo key entry (Std.HashMap.mem_toList_iff_getElem?_eq_some.mp hmem)
  rw [h.tokens] at hentry hone
  exact evaluates_of_reusable? realizes hentry hone

/-- **Everything remembered is right, after any runs.**  A session starts with entries that are
right for the input without repairs and runs with any repairs, one after the other.  Then all
entries are right for the stream of the last run, and all that is exported is right for the
input without repairs. -/
theorem right_afterRuns (done : grammar.compile = .ok scope.compiled) (seed : Memo)
    (right : ∀ (key : MemoKey) (entry : MemoEntry), seed[key]? = some entry →
      entry.Right scope.compiled (scope.source.stream []) key)
    (attempts : List (List Repair)) (trials : Nat) (outcomes : List Outcome) (strayed : Bool) :
    let state := scope.afterRuns attempts
      ⟨scope.source.stream [], seed, trials, outcomes, strayed⟩
    state.tokens = scope.source.stream (attempts.getLastD []) ∧
      (∀ (key : MemoKey) (entry : MemoEntry), state.memo[key]? = some entry →
        entry.Right scope.compiled state.tokens key) ∧
      ∀ exported ∈ reuseTable state,
        exported.2.Right scope.compiled (scope.source.stream []) exported.1 := by
  intro state
  have hstart : scope.Consistent [] ⟨scope.source.stream [], seed, trials, outcomes, strayed⟩ :=
    ⟨rfl, Memo.valid_iff_right.mpr right⟩
  have hend : scope.Consistent _ state := hstart.afterRuns attempts
  exact ⟨hend.tokens, Memo.valid_iff_right.mp hend.memo, fun exported hexported =>
    MemoEntry.right_iff_evaluates.mpr
      (hend.evaluates_reuseTable (Grammar.realizes_compile done) exported hexported)⟩

/-- A session for the text `ab`. -/
def ofPair : RecoveryScope :=
  ⟨.pair, .standard, Source.ofTokens ['a', 'b'] (CompiledGrammar.pair.tokenize ['a', 'b'])⟩

/-- What calling the only rule of the grammar gives there. -/
theorem evaluates_ofPair :
    Evaluates .pair (ofPair.source.stream []) (.call 0 leastLevel) 0
      (some ⟨⟨[], [.node ⟨7⟩ [.token ⟨5⟩ ['a'], .token ⟨6⟩ ['b']]]⟩, 2⟩) ⟨none, 2, none⟩ := by
  have hrule : CompiledGrammar.pair.program.rules[0]? =
      some ⟨"pair", ⟨7⟩, false, .plain 2⟩ := by with_unfolding_all decide
  have hseq : CompiledGrammar.pair.program.view 2 = .seq [0, 1] := by with_unfolding_all decide
  have hfirst : CompiledGrammar.pair.program.view 0 = .token ⟨5⟩ := by with_unfolding_all decide
  have hsecond : CompiledGrammar.pair.program.view 1 = .token ⟨6⟩ := by with_unfolding_all decide
  have hone : ((ofPair.source.stream [])[0]?).filter (·.kind = ⟨5⟩) =
      some ⟨⟨5⟩, 0, true, [.trivia 0], [], some (.token ⟨5⟩ ['a'])⟩ := by
    with_unfolding_all decide
  have htwo : ((ofPair.source.stream [])[1]?).filter (·.kind = ⟨6⟩) =
      some ⟨⟨6⟩, 1, true, [.trivia 1], [], some (.token ⟨6⟩ ['b'])⟩ := by
    with_unfolding_all decide
  exact .call hrule (.plain rfl (.seq hseq (.allCons (.token hfirst hone)
    (.allCons (.token hsecond htwo) .allNil))))

/-- A session for `ab` that starts with what the rule gives, and runs with an `a` put in, with
the `a` left out, and as it started. -/
theorem right_afterRuns_pair :
    let key : MemoKey := ⟨0, 0, leastLevel⟩
    let entry : MemoEntry :=
      ⟨some ⟨⟨[], [.node ⟨7⟩ [.token ⟨5⟩ ['a'], .token ⟨6⟩ ['b']]]⟩, 2⟩, none, 2⟩
    let seed := (∅ : Memo).insert key entry
    let state := ofPair.afterRuns [[.insert 0 ⟨5⟩], [.skip 0 1], []]
      ⟨ofPair.source.stream [], seed, 0, [], false⟩
    Grammar.pair.compile = .ok ofPair.compiled ∧
      entry.Right ofPair.compiled (ofPair.source.stream []) key ∧
      (∀ (key : MemoKey) (entry : MemoEntry), state.memo[key]? = some entry →
        entry.Right ofPair.compiled state.tokens key) ∧
      ∀ exported ∈ reuseTable state,
        exported.2.Right ofPair.compiled (ofPair.source.stream []) exported.1 := by
  intro key entry seed state
  have hright : entry.Right ofPair.compiled (ofPair.source.stream []) key :=
    MemoEntry.right_iff_evaluates.mpr evaluates_ofPair
  refine ⟨Grammar.compile_pair, hright,
    (right_afterRuns Grammar.compile_pair seed (fun other found hfound => ?_) _ 0 [] false).2⟩
  rw [Std.HashMap.getElem?_insert] at hfound
  split at hfound
  · rename_i heq
    rw [← eq_of_beq heq, ← Option.some.inj hfound]
    exact hright
  · simp at hfound

end RecoveryScope

end Syntagm
