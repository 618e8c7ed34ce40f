import Syntagm.Proofs.Incremental
import Syntagm.Proofs.Pruning

/-!
# The same tokens elsewhere

What the engine gives depends only on the tokens that it looked at (`Evaluates.carry`).  Where the
same tokens stand elsewhere, in the same stream or in another one, it gives the same there, with
all positions shifted (`Engine.evaluation_shifts`).

**The end.**  Past the stream the input ends, which looks like a token of that kind.  No operation
of a lowered program matches such a token, so it makes no difference whether there is one.

**Depth.**  A call that is remembered takes no depth.  So an engine that remembers other calls may
run into the limit elsewhere; but one that starts with the same calls remembered does not.  That is
shown by running both in step (`Moving`): as long as the first one looks only at tokens that are
the same for the second one, and does not run into the limit, they look up and remember the same
calls.
-/

namespace Syntagm

open Engine MemoEntry

/-! ### Looks -/

/-- What the engine can see at a position; past the stream the input ends. -/
def Engine.lookAt (tokens : Array StreamToken) (position : Nat) :
    Kind × List Element × Option Element :=
  ((tokens[position]?).map StreamToken.view).getD (Kind.endOfInput, [], none)

section Looks
variable {compiled : CompiledGrammar} {tokens others : Array StreamToken} {position : Nat}

theorem Engine.kindAt_eq_lookAt : kindAt tokens position = (lookAt tokens position).1 := by
  unfold kindAt lookAt
  cases tokens[position]? <;> rfl

/-- A token of a kind that is not the end of the input is what is seen. -/
theorem Engine.filter_kind_eq_lookAt {kind : Kind} (ne : kind ≠ Kind.endOfInput) :
    ((tokens[position]?).filter (·.kind = kind)).map StreamToken.view =
      if (lookAt tokens position).1 = kind then some (lookAt tokens position) else none := by
  unfold lookAt
  cases tokens[position]? with
  | none => simp [ne.symm]
  | some token =>
    by_cases hkind : token.kind = kind
    · simp [Option.filter, hkind, StreamToken.view]
    · simp [Option.filter, hkind, StreamToken.view]

/-- A program that does not match the end of the input sees the same where the looks are. -/
theorem CompiledGrammar.seesSame_of_lookAt {origin target count : Nat}
    (unmatched : ∀ op kind, compiled.program.view op = .token kind → kind ≠ Kind.endOfInput)
    (same : ∀ position, origin ≤ position → position < origin + count →
      lookAt tokens position = lookAt others (carried origin target position)) :
    compiled.SeesSame tokens others origin target count where
  kind position le lt := by rw [kindAt_eq_lookAt, kindAt_eq_lookAt, same position le lt]
  token op kind view position le lt := by
    have hkind := unmatched op kind view
    rw [filter_kind_eq_lookAt hkind, filter_kind_eq_lookAt hkind, same position le lt]

/-- The program of a compiled grammar is lowered. -/
theorem Grammar.lowered_compile {grammar : Grammar} (done : grammar.compile = .ok compiled) :
    ∃ draft kinds, Lexicon.ofGrammar grammar grammar.tokenRules = .ok draft ∧
      Program.ofGrammar grammar grammar.tokenRules draft = .ok (compiled.program, kinds) := by
  unfold compile at done
  obtain ⟨_, _, done⟩ := bind_eq_ok.mp done
  obtain ⟨draft, hdraft, done⟩ := bind_eq_ok.mp done
  obtain ⟨⟨program, kinds⟩, hprogram, done⟩ := bind_eq_ok.mp done
  obtain ⟨_, _, done⟩ := bind_eq_ok.mp done
  obtain ⟨_, _, done⟩ := bind_eq_ok.mp done
  split at done
  · obtain ⟨_, _, done⟩ := bind_eq_ok.mp done
    obtain rfl := pure_eq_ok.mp done
    exact ⟨draft, kinds, hdraft, hprogram⟩
  · exact absurd done throw_ne_ok

/-- **No operation of a lowered program matches the end of the input.** -/
theorem Program.kind_ne_endOfInput {grammar : Grammar} {names : List String}
    {draft : Lexicon.Draft} {program : Program} {kinds : KindTable}
    (drafted : Lexicon.ofGrammar grammar names = .ok draft)
    (lowered : Program.ofGrammar grammar names draft = .ok (program, kinds)) {op : Nat}
    {kind : Kind} (view : program.view op = .token kind) : kind ≠ Kind.endOfInput := by
  obtain ⟨after, hops, hlowers⟩ := Program.lowersRules_ofGrammar lowered
  obtain ⟨more, heq, hknown⟩ := hlowers.grows
  have hop := Array.mem_of_getElem? (Program.getElem?_of_view view (by simp))
  rw [hops, heq] at hop
  have hassigns : draft.lexicon.Assigns kind := hknown (.token kind)
    (by simpa [Arena.empty, Op.withoutLimit] using hop)
  have howns := (Lexicon.sound_ofGrammar drafted).owned.of_assigns hassigns
  rintro rfl
  exact absurd howns.not_reserved (by decide)

end Looks

/-! ### In step -/

/-- Two stretches in which a program sees the same. -/
structure Moving (compiled : CompiledGrammar) where
  tokens : Array StreamToken
  others : Array StreamToken
  origin : Nat
  target : Nat
  count : Nat
  same : compiled.SeesSame tokens others origin target count

/-- An entry elsewhere. -/
def MemoEntry.relocate (origin target : Nat) (entry : MemoEntry) : MemoEntry where
  result := entry.result.map (Match.relocate origin target)
  failure := entry.failure.map (Failure.relocate origin target)
  lookahead := carriedEnd origin target entry.lookahead

namespace Moving

variable {compiled : CompiledGrammar} (moving : Moving compiled)

/-- The place of a position in the other stretch. -/
abbrev place (position : Nat) : Nat := carried moving.origin moving.target position

/-- What is seen lies not in the stretch, or there was a cut.  Then nothing is known about the
other engine. -/
def Escapes (seen : Observation) : Prop :=
  seen.overflow ≠ none ∨ moving.origin + moving.count < seen.lookahead

/-- Both engines remember what is right, and from the origin on they remember the same. -/
structure Memos (memo memo' : Memo) : Prop where
  valid : memo.Valid compiled moving.tokens
  valid' : memo'.Valid compiled moving.others
  same : ∀ rule position bound, moving.origin ≤ position →
    memo'[(⟨rule, moving.place position, bound⟩ : MemoKey)]? =
      (memo[(⟨rule, position, bound⟩ : MemoKey)]?).map
        (MemoEntry.relocate moving.origin moving.target)

/-- Replies of the two engines to the same goal. -/
inductive Replies (reply reply' : Reply) : Prop where
  | escaped (escapes : moving.Escapes reply.seen)
  | same (result : reply'.result = reply.result.map (Match.relocate moving.origin moving.target))
      (uncut : reply'.seen.overflow = none) (memos : moving.Memos reply.memo reply'.memo)

/-- Two evaluators that go the same way from a position in the stretch on. -/
def InStep (evaluator evaluator' : Evaluator) : Prop :=
  ∀ position, moving.origin ≤ position → ∀ memo memo', moving.Memos memo memo' →
    moving.Replies (evaluator position memo) (evaluator' (moving.place position) memo')

variable {moving}

theorem Escapes.first {first : Observation} (h : moving.Escapes first) (second : Observation) :
    moving.Escapes (first.followedBy second) := by
  rcases h with hcut | hbeyond
  · exact .inl fun hnone => hcut ((Observation.followedBy_overflow_eq_none ..).mp hnone).1
  · exact .inr (Nat.lt_of_lt_of_le hbeyond (Nat.le_max_left ..))

theorem Escapes.second {second : Observation} (h : moving.Escapes second) (first : Observation) :
    moving.Escapes (first.followedBy second) := by
  rcases h with hcut | hbeyond
  · exact .inl fun hnone => hcut ((Observation.followedBy_overflow_eq_none ..).mp hnone).2
  · exact .inr (Nat.lt_of_lt_of_le hbeyond (Nat.le_max_right ..))

/-- A look behind the stretch. -/
theorem escapes_looked {position : Nat} (ge : moving.origin + moving.count ≤ position)
    (after : Observation) : moving.Escapes ((Observation.looked position).followedBy after) :=
  Escapes.first (.inr (Nat.lt_succ_of_le ge)) after

theorem le_stop {goal : Goal} {position : Nat} {found : Match} {seen : Observation}
    (le : moving.origin ≤ position)
    (h : Evaluates compiled moving.tokens goal position (some found) seen) :
    moving.origin ≤ found.stop :=
  Nat.le_trans le (h.confined.le_stop found rfl)

namespace Replies

variable {reply reply' : Reply}

theorem immediate {result result' : Option Match} {memo memo' : Memo}
    (result_eq : result' = result.map (Match.relocate moving.origin moving.target))
    (memos : moving.Memos memo memo') :
    moving.Replies (.immediate result memo) (.immediate result' memo') :=
  .same result_eq rfl memos

theorem withResult (h : moving.Replies reply reply') {result result' : Option Match}
    (result_eq : reply'.result = reply.result.map (Match.relocate moving.origin moving.target) →
      result' = result.map (Match.relocate moving.origin moving.target)) :
    moving.Replies (reply.withResult result) (reply'.withResult result') := by
  cases h with
  | escaped hescapes => exact .escaped hescapes
  | same hresult huncut hmemos => exact .same (result_eq hresult) huncut hmemos

theorem prepend (h : moving.Replies reply reply') (first : Match) :
    moving.Replies (reply.prepend first)
      (reply'.prepend (first.relocate moving.origin moving.target)) :=
  h.withResult fun hresult => by rw [hresult, Match.relocate_prepend]

theorem after (h : moving.Replies reply reply') (seen : Observation) {seen' : Observation}
    (uncut : seen'.overflow = none) : moving.Replies (reply.after seen) (reply'.after seen') := by
  cases h with
  | escaped hescapes => exact .escaped (hescapes.second seen)
  | same hresult huncut hmemos =>
    exact .same hresult ((Observation.followedBy_overflow_eq_none ..).mpr ⟨uncut, huncut⟩) hmemos

end Replies

/-- A match that moves on here moves on there. -/
theorem filter_stop_relocate {origin position : Nat} (target : Nat) (le : origin ≤ position)
    {result : Option Match} (within : ∀ found, result = some found → position ≤ found.stop) :
    (result.map (Match.relocate origin target)).filter
        (·.stop ≠ carried origin target position) =
      (result.filter (·.stop ≠ position)).map (Match.relocate origin target) := by
  cases result with
  | none => rfl
  | some found =>
    have hstop := within found rfl
    have hlt := @carried_lt_iff origin target _ _ le (Nat.le_trans le hstop)
    by_cases hstill : found.stop = position
    · simp [Option.filter, hstill]
    · have hne : carried origin target found.stop ≠ carried origin target position :=
        Nat.ne_of_gt (hlt.mpr (by omega))
      simp [Option.filter, hstill, hne]

/-! ### Operations -/

theorem inStep_matchToken {op : Nat} {kind : Kind}
    (view : compiled.program.view op = .token kind) :
    moving.InStep (matchToken moving.tokens kind) (matchToken moving.others kind) := by
  intro position le memo memo' hmemos
  rcases Nat.lt_or_ge position (moving.origin + moving.count) with lt | ge
  · have hsame := moving.same.token op kind view position le lt
    unfold matchToken place
    cases hone : (moving.tokens[position]?).filter (·.kind = kind) with
    | none =>
      rw [hone] at hsame
      rw [Option.map_eq_none_iff.mp hsame.symm]
      exact .same rfl rfl hmemos
    | some token =>
      rw [hone] at hsame
      obtain ⟨other, hother, heq⟩ := Option.map_eq_some_iff.mp hsame.symm
      rw [hother]
      exact .same (congrArg some (tokenMatch_relocate heq.symm le).symm) rfl hmemos
  · refine .escaped ?_
    unfold matchToken
    split
    · exact .inr (Nat.lt_succ_of_le ge)
    · exact escapes_looked ge _

section Parts
variable {limit : Nat} {evaluate evaluate' : Fin limit → Evaluator}

theorem inStep_matchAll (items : List (Fin limit))
    (hev : ∀ item ∈ items, moving.InStep (evaluate item) (evaluate' item))
    (sound : ∀ item ∈ items, Sound compiled moving.tokens (.op item) (evaluate item)) :
    moving.InStep (matchAll evaluate items) (matchAll evaluate' items) := by
  induction items with
  | nil => exact fun position _ memo memo' hmemos => .immediate rfl hmemos
  | cons item items ih =>
    intro position le memo memo' hmemos
    simp only [matchAll]
    rcases hev item List.mem_cons_self position le memo memo' hmemos with
      hescapes | ⟨hresult, huncut, hmemos'⟩
    · refine .escaped ?_
      split
      · exact hescapes
      · exact hescapes.first _
    · cases hfound : (evaluate item position memo).result with
      | none =>
        rw [hfound] at hresult
        simp only [hresult, Option.map_none]
        exact .same (by rw [hresult, hfound, Option.map_none]) huncut hmemos'
      | some found =>
        have hhead := (sound item List.mem_cons_self position memo hmemos.valid).1
        rw [hfound] at hresult hhead
        simp only [hresult, Option.map_some]
        exact ((ih (fun other hother => hev other (List.mem_cons_of_mem _ hother))
          (fun other hother => sound other (List.mem_cons_of_mem _ hother))
          found.stop (le_stop le hhead) _ _ hmemos').prepend found).after _ huncut

theorem inStep_matchFirst (current : Kind) (items : List (Fin limit))
    (hev : ∀ item ∈ items, moving.InStep (evaluate item) (evaluate' item)) :
    moving.InStep (matchFirst compiled.analysis current evaluate items)
      (matchFirst compiled.analysis current evaluate' items) := by
  induction items with
  | nil => exact fun position _ memo memo' hmemos => .immediate rfl hmemos
  | cons item items ih =>
    have ih := ih fun other hother => hev other (List.mem_cons_of_mem _ hother)
    intro position le memo memo' hmemos
    simp only [matchFirst]
    split
    · exact (ih position le memo memo' hmemos).after _ rfl
    · rcases hev item List.mem_cons_self position le memo memo' hmemos with
        hescapes | ⟨hresult, huncut, hmemos'⟩
      · refine .escaped ?_
        split
        · exact hescapes
        · exact hescapes.first _
      · cases hfound : (evaluate item position memo).result with
        | none =>
          rw [hfound] at hresult
          simp only [hresult, Option.map_none]
          exact (ih position le _ _ hmemos').after _ huncut
        | some found =>
          rw [hfound] at hresult
          simp only [hresult, Option.map_some]
          exact .same (by rw [hresult, hfound, Option.map_some]) huncut hmemos'

end Parts

theorem inStep_matchMany {evaluate evaluate' : Evaluator} {inner : Nat}
    (hev : moving.InStep evaluate evaluate')
    (sound : Sound compiled moving.tokens (.op inner) evaluate)
    (sound' : Sound compiled moving.others (.op inner) evaluate') (least : Nat) :
    moving.InStep (matchMany evaluate moving.tokens.size least)
      (matchMany evaluate' moving.others.size least) := by
  intro position le memo memo' hmemos
  induction least, position, memo using matchMany.induct evaluate moving.tokens.size
    generalizing memo' with
  | case1 least position memo reply hnone =>
    have hround := hev position le memo memo' hmemos
    rw [matchMany, matchMany]
    simp only [reply] at hnone
    simp only [hnone]
    rcases hround with hescapes | ⟨hresult, huncut, hmemos'⟩
    · exact .escaped hescapes
    · rw [hnone] at hresult
      simp only [hresult, Option.map_none]
      refine .same ?_ huncut hmemos'
      simp only [Reply.withResult]
      split <;> rfl
  | case2 least position memo reply found hfound hmoved ih =>
    have hround := hev position le memo memo' hmemos
    rw [matchMany, matchMany]
    simp only [reply] at hfound ih
    simp only [hfound]
    rw [dif_pos hmoved]
    rcases hround with hescapes | ⟨hresult, huncut, hmemos'⟩
    · exact .escaped (hescapes.first _)
    · have hone := (sound position memo hmemos.valid).1
      have hother := (sound' (moving.place position) memo' hmemos.valid').1
      rw [hfound] at hresult hone
      rw [hresult] at hother
      have hstop := le_stop le hone
      have hlt : moving.place position < (found.relocate moving.origin moving.target).stop :=
        (carried_lt_iff le hstop).mpr hmoved.1
      have hmoved' := And.intro hlt (hother.confined.read _ rfl hlt).2
      simp only [hresult, Option.map_some]
      rw [dif_pos hmoved']
      exact ((ih hstop _ hmemos').prepend found).after _ huncut
  | case3 least position memo reply found hfound hstill =>
    have hround := hev position le memo memo' hmemos
    rw [matchMany, matchMany]
    simp only [reply] at hfound
    simp only [hfound]
    rw [dif_neg hstill]
    rcases hround with hescapes | ⟨hresult, huncut, hmemos'⟩
    · exact .escaped hescapes
    · have hone := (sound position memo hmemos.valid).1
      rw [hfound] at hresult hone
      have hstop := le_stop le hone
      have hstill' : ¬ (moving.place position < (found.relocate moving.origin moving.target).stop ∧
          (found.relocate moving.origin moving.target).stop ≤ moving.others.size) := fun hboth =>
        have hlt := (carried_lt_iff le hstop).mp hboth.1
        hstill ⟨hlt, (hone.confined.read found rfl hlt).2⟩
      simp only [hresult, Option.map_some]
      rw [dif_neg hstill']
      exact .same (emptyRound_relocate ..).symm huncut hmemos'

theorem inStep_matchOptional {evaluate evaluate' : Evaluator}
    (hev : moving.InStep evaluate evaluate') :
    moving.InStep (matchOptional evaluate) (matchOptional evaluate') := by
  intro position le memo memo' hmemos
  refine (hev position le memo memo' hmemos).withResult fun hresult => ?_
  rw [hresult]
  cases (evaluate position memo).result <;> rfl

section Calls
variable {call call' : Nat → Int → Evaluator}
  (hcall : ∀ rule bound, moving.InStep (call rule bound) (call' rule bound))
  (sound : ∀ rule bound, Sound compiled moving.tokens (.call rule bound) (call rule bound))
  (sound' : ∀ rule bound, Sound compiled moving.others (.call rule bound) (call' rule bound))
include hcall sound sound'

theorem inStep_evaluate (op : Nat) :
    moving.InStep (evaluate compiled moving.tokens call op)
      (evaluate compiled moving.others call' op) := by
  induction op using Nat.strongRecOn with
  | _ op ih =>
    rw [evaluate, evaluate]
    split
    · exact inStep_matchToken ‹_›
    · rename_i items hview
      exact inStep_matchAll items (fun item _ => ih item item.isLt)
        fun item _ => sound_evaluate sound item
    · rename_i alternatives hview
      intro position le memo memo' hmemos
      rcases Nat.lt_or_ge position (moving.origin + moving.count) with lt | ge
      · -- pruning looks at the same kind
        simp only [place, ← moving.same.kind position le lt]
        exact (inStep_matchFirst _ alternatives (fun item _ => ih item item.isLt) position le memo
          memo' hmemos).after _ rfl
      · exact .escaped (escapes_looked ge _)
    · rename_i least inner hview
      exact inStep_matchMany (ih inner inner.isLt) (sound_evaluate sound inner)
        (sound_evaluate sound' inner) least
    · rename_i inner hview
      exact inStep_matchOptional (ih inner inner.isLt)
    · exact fun position _ memo memo' hmemos => .immediate rfl hmemos
    · exact hcall _ _

/-! ### Rules -/

theorem inStep_matchTail (tails : List Tail) :
    moving.InStep (matchTail (evaluate compiled moving.tokens call) tails)
      (matchTail (evaluate compiled moving.others call') tails) := by
  induction tails with
  | nil => exact fun position _ memo memo' hmemos => .immediate rfl hmemos
  | cons tail tails ih =>
    intro position le memo memo' hmemos
    simp only [matchTail]
    rcases inStep_evaluate hcall sound sound' tail.op position le memo memo' hmemos with
      hescapes | ⟨hresult, huncut, hmemos'⟩
    · refine .escaped ?_
      split
      · exact hescapes
      · exact hescapes.first _
    · have hhead := (sound_evaluate sound tail.op position memo hmemos.valid).1
      have hfilter := filter_stop_relocate (moving.target) le hhead.confined.le_stop
      rw [← hresult] at hfilter
      rw [hfilter]
      cases (evaluate compiled moving.tokens call tail.op position memo).result.filter
          (·.stop ≠ position) with
      | none => exact (ih position le _ _ hmemos').after _ huncut
      | some found => exact .same hresult huncut hmemos'

theorem inStep_growFrom (rule : Rule) (tails : List Tail) (found : Match)
    (le : moving.origin ≤ found.stop) (memo memo' : Memo) (hmemos : moving.Memos memo memo') :
    moving.Replies
      (growFrom (evaluate compiled moving.tokens call) rule tails moving.tokens.size found memo)
      (growFrom (evaluate compiled moving.others call') rule tails moving.others.size
        (found.relocate moving.origin moving.target) memo') := by
  have hev := sound_evaluate sound
  have hev' := sound_evaluate sound'
  induction found, memo using growFrom.induct (evaluate compiled moving.tokens call) rule tails
    moving.tokens.size generalizing memo' with
  | case1 found memo reply hnone =>
    have htail := inStep_matchTail hcall sound sound' tails found.stop le memo memo' hmemos
    rw [growFrom, growFrom]
    simp only [reply] at hnone
    simp only [hnone, Match.relocate_stop]
    rcases htail with hescapes | ⟨hresult, huncut, hmemos'⟩
    · exact .escaped hescapes
    · rw [hnone, place] at hresult
      simp only [hresult, Option.map_none]
      exact .same rfl huncut hmemos'
  | case2 found memo reply next hnext hmoved ih =>
    have htail := inStep_matchTail hcall sound sound' tails found.stop le memo memo' hmemos
    rw [growFrom, growFrom]
    simp only [reply] at hnext ih
    simp only [hnext]
    rw [dif_pos hmoved]
    rcases htail with hescapes | ⟨hresult, huncut, hmemos'⟩
    · exact .escaped (hescapes.first _)
    · have hone := (sound_matchTail hev tails found.stop memo hmemos.valid).1
      have hother := (sound_matchTail hev' tails (moving.place found.stop) memo' hmemos.valid').1
      rw [hnext] at hresult hone
      rw [hresult] at hother
      have hstop := le_stop le hone
      have hlt : (found.relocate moving.origin moving.target).stop <
          (next.relocate moving.origin moving.target).stop := (carried_lt_iff le hstop).mpr hmoved.1
      have hmoved' := And.intro hlt (hother.confined.read _ rfl hlt).2
      have hnext' : (matchTail (evaluate compiled moving.others call') tails
          (found.relocate moving.origin moving.target).stop memo').result =
            some (next.relocate moving.origin moving.target) := hresult
      simp only [hnext']
      rw [dif_pos hmoved']
      exact (ih hstop _ hmemos').after _ huncut
  | case3 found memo reply next hnext hstill =>
    -- a tail moves on and ends in the stream, so growing never stops for the bound
    have htail := (sound_matchTail hev tails found.stop memo hmemos.valid).1
    simp only [reply] at hnext
    rw [hnext] at htail
    have hlt := lt_stop_of_tail htail
    exact absurd ⟨hlt, (htail.confined.read next rfl hlt).2⟩ hstill

theorem inStep_matchBody (rule : Rule) (bound : Int) :
    moving.InStep
      (matchBody (evaluate compiled moving.tokens call) moving.tokens.size rule bound)
      (matchBody (evaluate compiled moving.others call') moving.others.size rule bound) := by
  intro position le memo memo' hmemos
  unfold matchBody
  split
  · exact inStep_evaluate hcall sound sound' _ position le memo memo' hmemos
  · rename_i base tails hbody
    simp only
    rcases inStep_evaluate hcall sound sound' base position le memo memo' hmemos with
      hescapes | ⟨hresult, huncut, hmemos'⟩
    · refine .escaped ?_
      split
      · exact hescapes
      · exact hescapes.first _
    · have hentry := (sound_evaluate sound base position memo hmemos.valid).1
      cases hfound : (evaluate compiled moving.tokens call base position memo).result with
      | none =>
        rw [hfound] at hresult
        simp only [hresult, Option.map_none]
        exact .same (by rw [hresult, hfound, Option.map_none]) huncut hmemos'
      | some found =>
        rw [hfound] at hresult hentry
        simp only [hresult, Option.map_some]
        exact (inStep_growFrom hcall sound sound' rule _ found (le_stop le hentry) _ _
          hmemos').after _ huncut

end Calls

/-! ### Calls -/

theorem closedMatch_relocate (origin target : Nat) (rule : Rule) (result : Option Match) :
    (result.map (Match.relocate origin target)).map (closedMatch rule) =
      (result.map (closedMatch rule)).map (Match.relocate origin target) := by
  cases result <;> rfl

/-- What is remembered of a call in one stretch is remembered of it in the other one. -/
theorem Replies.remembered {reply reply' : Reply} (h : moving.Replies reply reply')
    {number position : Nat} {bound : Int} (le : moving.origin ≤ position)
    (one : Evaluates compiled moving.tokens (.call number bound) position reply.result reply.seen)
    (other : Evaluates compiled moving.others (.call number bound) (moving.place position)
      reply'.result reply'.seen) (memoize : Bool) :
    moving.Replies (reply.remembered memoize ⟨number, position, bound⟩)
      (reply'.remembered memoize ⟨number, moving.place position, bound⟩) := by
  by_cases hescapes : moving.Escapes reply.seen
  · exact .escaped (by rwa [Reply.remembered_seen])
  · rcases h with hescapes' | ⟨hresult, huncut', hmemos⟩
    · exact absurd hescapes' hescapes
    · simp only [Escapes, not_or, not_not, Nat.not_lt] at hescapes
      obtain ⟨huncut, hfit⟩ := hescapes
      have hseen := ((one.carry moving.same le hfit).unique other huncut huncut').2
      refine .same (by simpa using hresult) (by simpa using huncut')
        ⟨Reply.valid_remembered memoize one hmemos.valid,
          Reply.valid_remembered memoize other hmemos.valid', fun rule there bound' le' => ?_⟩
      have hsame := hmemos.same rule there bound' le'
      simp only [Reply.remembered, huncut, huncut', Option.isNone_none, Bool.and_true]
      cases memoize with
      | false => exact hsame
      | true =>
        simp only [if_true, Std.HashMap.getElem?_insert, beq_iff_eq, MemoKey.mk.injEq]
        have hplace : moving.place position = moving.place there ↔ position = there := by
          simp only [place, carried]
          omega
        simp only [hplace]
        split
        · rw [Option.map_some, MemoEntry.relocate, hresult, ← hseen]
          rfl
        · exact hsame

/-- **Calls go in step**, if the second engine may go at least as deep. -/
theorem inStep_callRule (memoize : Bool) {depth depth' : Nat} (deep : depth ≤ depth')
    (frames frames' : List Nat) (rule : Nat) (bound : Int) :
    moving.InStep (callRule compiled moving.tokens memoize depth frames rule bound)
      (callRule compiled moving.others memoize depth' frames' rule bound) := by
  induction depth generalizing depth' frames frames' rule bound with
  | zero =>
    intro position le memo memo' hmemos
    unfold callRule
    split
    · exact .immediate rfl hmemos
    · rename_i body hlookup
      have hsame := hmemos.same rule position (effectiveBound body bound) le
      simp only
      cases hentry : memo[(⟨rule, position, effectiveBound body bound⟩ : MemoKey)]? with
      | some entry =>
        rw [hentry, place] at hsame
        simp only [hsame, Option.map_some]
        exact .same rfl rfl hmemos
      | none => exact .escaped (.inl (Option.some_ne_none _))
  | succ depth ih =>
    obtain ⟨depth', rfl⟩ : ∃ less, depth' = less + 1 := ⟨depth' - 1, by omega⟩
    intro position le memo memo' hmemos
    have hcall (number : Nat) (least : Int) :
        moving.InStep
          (callRule compiled moving.tokens memoize depth (position :: frames) number least)
          (callRule compiled moving.others memoize depth' (moving.place position :: frames') number
            least) := ih (by omega) _ _ number least
    rw [callRule, callRule]
    split
    · exact .immediate rfl hmemos
    · rename_i body hlookup
      have hsame := hmemos.same rule position (effectiveBound body bound) le
      simp only
      cases hentry : memo[(⟨rule, position, effectiveBound body bound⟩ : MemoKey)]? with
      | some entry =>
        rw [hentry, place] at hsame
        simp only [hsame, Option.map_some]
        exact .same rfl rfl hmemos
      | none =>
        rw [hentry, place] at hsame
        simp only [hsame, Option.map_none]
        have hone := sound_matchBody (sound_evaluate
          (sound_callRule memoize depth (position :: frames))) body (effectiveBound body bound)
          position memo hmemos.valid
        have hother := sound_matchBody (sound_evaluate
          (sound_callRule memoize depth' (moving.place position :: frames'))) body
          (effectiveBound body bound) (moving.place position) memo' hmemos.valid'
        have hreplies := inStep_matchBody hcall (sound_callRule memoize depth (position :: frames))
          (sound_callRule memoize depth' (moving.place position :: frames')) body
          (effectiveBound body bound) position le memo memo' hmemos
        refine Replies.remembered (hreplies.withResult fun hresult => ?_) le
          (.rebound hlookup (effectiveBound_idem body bound).symm (.call hlookup hone.1))
          (.rebound hlookup (effectiveBound_idem body bound).symm (.call hlookup hother.1)) memoize
        rw [hresult]
        exact closedMatch_relocate ..

/-- **The parts of the engine go in step.** -/
theorem inStep_evaluator (goal : Goal) (whole : goal.slack = 0) (memoize : Bool)
    {depth depth' : Nat} (deep : depth ≤ depth') (frames frames' : List Nat) :
    moving.InStep
      (goal.evaluator compiled moving.tokens
        (callRule compiled moving.tokens memoize depth frames))
      (goal.evaluator compiled moving.others
        (callRule compiled moving.others memoize depth' frames')) := by
  have hcall (rule : Nat) (bound : Int) :
      moving.InStep (callRule compiled moving.tokens memoize depth frames rule bound)
        (callRule compiled moving.others memoize depth' frames' rule bound) :=
    inStep_callRule memoize deep frames frames' rule bound
  have sound (rule : Nat) (bound : Int) : Sound compiled moving.tokens (.call rule bound)
      (callRule compiled moving.tokens memoize depth frames rule bound) :=
    sound_callRule memoize depth frames rule bound
  have sound' (rule : Nat) (bound : Int) : Sound compiled moving.others (.call rule bound)
      (callRule compiled moving.others memoize depth' frames' rule bound) :=
    sound_callRule memoize depth' frames' rule bound
  cases goal with
  | op number => exact inStep_evaluate hcall sound sound' number
  | all items =>
    exact inStep_matchAll items (fun item _ => inStep_evaluate hcall sound sound' item)
      fun item _ => sound_evaluate sound item
  | first => cases whole
  | many least inner =>
    exact inStep_matchMany (inStep_evaluate hcall sound sound' inner) (sound_evaluate sound inner)
      (sound_evaluate sound' inner) least
  | tail tails => exact inStep_matchTail hcall sound sound' tails
  | grow rule tails fragment =>
    exact fun position le memo memo' hmemos =>
      inStep_growFrom hcall sound sound' rule tails ⟨fragment, position⟩ le memo memo' hmemos
  | body rule bound => exact inStep_matchBody hcall sound sound' rule bound
  | call rule bound => exact hcall rule bound

end Moving

/-- **The parts of the engine are sound.** -/
theorem Engine.sound_evaluator {compiled : CompiledGrammar} {tokens : Array StreamToken}
    {call : Nat → Int → Evaluator}
    (sound : ∀ rule bound, Sound compiled tokens (.call rule bound) (call rule bound))
    (goal : Goal) : Sound compiled tokens goal (goal.evaluator compiled tokens call) := by
  have hev := sound_evaluate sound
  cases goal with
  | op number => exact hev number
  | all items => exact sound_matchAll items fun item _ => hev item
  | first current alternatives => exact sound_matchFirst current alternatives fun item _ => hev item
  | many least inner => exact sound_matchMany (hev inner) least
  | tail tails => exact sound_matchTail hev tails
  | grow rule tails fragment =>
    exact fun position memo valid => sound_growFrom hev rule tails ⟨fragment, position⟩ memo valid
  | body rule bound => exact sound_matchBody hev rule bound
  | call rule bound => exact sound rule bound

/-! ### What the engine gives elsewhere -/

namespace Engine

/-- **The same reply, shifted**: the same fragment, which stops as much farther on, a failure as
much farther on at which the same is expected, and a look as much farther on, if any. -/
structure Shifted (shift : Int) (reply other : Reply) : Prop where
  result : other.result =
    reply.result.map fun found => { found with stop := moved shift found.stop }
  failure : other.seen.failure =
    reply.seen.failure.map fun failure => { failure with position := moved shift failure.position }
  lookahead : other.seen.lookahead =
    if reply.seen.lookahead = 0 then 0 else moved shift reply.seen.lookahead

/-- **What was matched and what failed lies in what was looked at.**  Without a look, nothing was
matched and nothing failed. -/
structure Covered (position : Nat) (reply : Reply) : Prop where
  stop : reply.seen.lookahead ≠ 0 → ∀ found, reply.result = some found →
    found.stop ≤ reply.seen.lookahead
  failure : reply.seen.lookahead ≠ 0 → ∀ failure, reply.seen.failure = some failure →
    failure.position < reply.seen.lookahead
  nothing : reply.seen.lookahead = 0 →
    (∀ found, reply.result = some found → found.stop = position) ∧ reply.seen.failure = none

/-- From a position on, the second memory has what the first one has, shifted. -/
def SameMemory (shift : Int) (position : Nat) (memo memo' : Memo) : Prop :=
  ∀ rule (there : Nat) bound, position ≤ there →
    memo'[(⟨rule, moved shift there, bound⟩ : MemoKey)]? =
      (memo[(⟨rule, there, bound⟩ : MemoKey)]?).map
        (MemoEntry.relocate position (moved shift position))

theorem sameMemory_of_blank {shift : Int} {position : Nat} {memo memo' : Memo} (blank : memo.Blank)
    (blank' : memo'.Blank) : SameMemory shift position memo memo' := by
  intro rule there bound _
  rw [blank, blank']
  rfl

theorem Covered.of_confined {tokens : Array StreamToken} {position : Nat} {reply : Reply}
    (h : Confined tokens 0 position reply.result reply.seen) : Covered position reply where
  stop looked found hfound := by
    have hlook := h.within.lookahead.resolve_left looked
    rcases Nat.lt_or_ge position found.stop with moved | still
    · exact (h.read found hfound moved).1
    · omega
  failure looked failure hfailure := by
    have hlook := h.within.lookahead.resolve_left looked
    have := (h.within.failure failure hfailure).2
    omega
  nothing unlooked := by
    refine ⟨fun found hfound => ?_,
      Option.eq_none_iff_forall_ne_some.mpr fun failure hfailure => ?_⟩
    · refine Nat.le_antisymm (Nat.not_lt.mp fun moved => ?_) (h.le_stop found hfound)
      have := (h.read found hfound moved).1
      omega
    · have := h.within.failure failure hfailure
      omega

/-- What is seen elsewhere is the same, shifted. -/
theorem Shifted.of_relocate {tokens : Array StreamToken} {origin target : Nat} {reply other : Reply}
    (confined : Confined tokens 0 origin reply.result reply.seen)
    (result : reply.result.map (Match.relocate origin target) = other.result)
    (seen : reply.seen.relocate origin target = other.seen) :
    Shifted ((target : Int) - (origin : Int)) reply other where
  result := by
    rw [← result]
    refine Option.map_congr fun found hfound => ?_
    rw [moved_eq_carried (confined.le_stop found hfound)]
    rfl
  failure := by
    rw [← seen]
    refine Option.map_congr fun failure hfailure => ?_
    rw [moved_eq_carried (confined.within.failure failure hfailure).1]
    rfl
  lookahead := by
    rw [← seen]
    simp only [Observation.relocate, carriedEnd]
    split
    · rfl
    · rename_i looked
      have := confined.within.lookahead.resolve_left looked
      rw [moved_eq_carried (by omega)]

end Engine

end Syntagm
