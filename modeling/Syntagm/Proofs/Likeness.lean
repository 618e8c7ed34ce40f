import Mathlib.Data.List.Forall2
import Syntagm.Parse.Engine

/-!
# Engines in step

Two engines may run different grammars on different streams and still do the same at every step,
as long as no step tells the two apart.  An engine looks at the kinds of tokens, at the operations
of its program and at what these can begin with, and at where matches stop, but never into a
fragment.  So it is enough that the fragments of tokens are alike, and that fragments stay alike
when they are put together and closed (`Engine.InStep`); what alike means does not matter.

Each function of the engine then gives alike replies: matches with alike fragments that stop at
the same place, the same observations, and memories that remember alike matches for the same keys.
The limit on depth is no exception, since calls run into it at the same places, and calls are found
in the two memories at the same places.
-/

namespace Syntagm

open Engine

/-! ### What is alike -/

section Alike
variable (Like : Fragment → Fragment → Prop)

/-- Matches with alike fragments that stop at the same place. -/
structure Match.Alike (first second : Match) : Prop where
  fragment : Like first.fragment second.fragment
  stop : first.stop = second.stop

structure MemoEntry.Alike (first second : MemoEntry) : Prop where
  result : Option.Rel (Match.Alike Like) first.result second.result
  failure : first.failure = second.failure
  lookahead : first.lookahead = second.lookahead

/-- Memories that hold alike entries for the same keys. -/
def Memo.Alike (first second : Memo) : Prop :=
  ∀ key : MemoKey, Option.Rel (MemoEntry.Alike Like) first[key]? second[key]?

structure Reply.Alike (first second : Reply) : Prop where
  result : Option.Rel (Match.Alike Like) first.result second.result
  seen : first.seen = second.seen
  memo : first.memo.Alike Like second.memo

/-- Evaluators that give alike replies if what they remember is alike. -/
def Evaluator.Alike (first second : Evaluator) : Prop :=
  ∀ position memo memo', Memo.Alike Like memo memo' →
    (first position memo).Alike Like (second position memo')

structure Outcome.Alike (first second : Outcome) : Prop where
  fragment : Option.Rel Like first.fragment second.fragment
  failure : first.failure = second.failure
  overflow : first.overflow = second.overflow

/-- Rules with the same body that close alike fragments alike. -/
structure Rule.Alike (first second : Rule) : Prop where
  body : first.body = second.body
  closed : ∀ {fragment other}, Like fragment other →
    Like (closed first fragment) (closed second other)

/-- Tokens of the same kind whose matches are alike, if an operation of the program matches that
kind. -/
structure StreamToken.Alike (program : Program) (first second : StreamToken) : Prop where
  kind : first.kind = second.kind
  fragment : ∀ op, program.view op = .token first.kind →
    Like ⟨first.leading, first.element.toList⟩ ⟨second.leading, second.element.toList⟩

/-- Fragments stay alike when they are put together. -/
structure Fragment.Congruent : Prop where
  blank : Like .blank .blank
  append : ∀ {first first' second second' : Fragment}, Like first first' → Like second second' →
    Like (first ++ second) (first' ++ second')

/-- Grammars whose programs do the same but for how rules close what they match. -/
structure CompiledGrammar.Alike (first second : CompiledGrammar) : Prop where
  congruent : Fragment.Congruent Like
  view : ∀ op, first.program.view op = second.program.view op
  rules : ∀ rule : Nat, Option.Rel (Rule.Alike Like) first.program.rules[rule]?
    second.program.rules[rule]?
  analysis : first.analysis = second.analysis
  start : first.start = second.start

/-- **Two engines in step**: they run alike grammars on streams of alike tokens. -/
structure Engine.InStep (compiled compiled' : CompiledGrammar)
    (tokens tokens' : Array StreamToken) : Prop where
  grammars : compiled.Alike Like compiled'
  tokens : List.Forall₂ (StreamToken.Alike Like compiled.program) tokens.toList tokens'.toList

end Alike

variable {Like : Fragment → Fragment → Prop}

theorem rel_getElem?_of_forall₂ {α β : Type} {R : α → β → Prop} {first : List α} {second : List β}
    (h : List.Forall₂ R first second) (index : Nat) :
    Option.Rel R first[index]? second[index]? := by
  induction h generalizing index with
  | nil => exact .none
  | cons head _ ih =>
    cases index with
    | zero => exact .some head
    | succ index => exact ih index

theorem rel_map {α β γ δ : Type} {R : α → β → Prop} {S : γ → δ → Prop} {f : α → γ} {g : β → δ}
    {first : Option α} {second : Option β} (h : Option.Rel R first second)
    (maps : ∀ {a b}, R a b → S (f a) (g b)) : Option.Rel S (first.map f) (second.map g) := by
  cases h with
  | none => exact .none
  | some related => exact .some (maps related)

theorem rel_filter {α β : Type} {R : α → β → Prop} {p : α → Bool} {q : β → Bool}
    {first : Option α} {second : Option β} (h : Option.Rel R first second)
    (same : ∀ {a b}, R a b → p a = q b) : Option.Rel R (first.filter p) (second.filter q) := by
  cases h with
  | none => exact .none
  | @some a b related =>
    rw [Option.filter_some, Option.filter_some, ← same related]
    split
    · exact .some related
    · exact .none

/-- Related options are both empty, or both hold something. -/
theorem cases_of_rel {α β : Type} {R : α → β → Prop} {first : Option α} {second : Option β}
    (h : Option.Rel R first second) : (first = none ∧ second = none) ∨
      ∃ a b, first = some a ∧ second = some b ∧ R a b := by
  cases h with
  | none => exact .inl ⟨rfl, rfl⟩
  | some related => exact .inr ⟨_, _, rfl, rfl, related⟩

theorem MemoEntry.Alike.seen {entry entry' : MemoEntry} (h : entry.Alike Like entry') :
    entry.seen = entry'.seen := by
  unfold MemoEntry.seen
  rw [h.failure, h.lookahead]

theorem Rule.Alike.effectiveBound {rule rule' : Rule} (h : rule.Alike Like rule') (bound : Int) :
    effectiveBound rule bound = effectiveBound rule' bound := by
  unfold Engine.effectiveBound Rule.isLeftRecursive
  rw [h.body]

namespace Memo.Alike

variable {memo memo' : Memo}

theorem empty : Memo.Alike Like ∅ ∅ := by
  intro key
  simp only [Std.HashMap.getElem?_empty]
  exact .none

theorem insert (h : memo.Alike Like memo') (key : MemoKey) {entry entry' : MemoEntry}
    (entries : entry.Alike Like entry') :
    Memo.Alike Like (memo.insert key entry) (memo'.insert key entry') := by
  intro other
  simp only [Std.HashMap.getElem?_insert]
  split
  · exact .some entries
  · exact h other

/-- What depends on no more than the first tokens is alike. -/
theorem filter (h : memo.Alike Like memo') (common : Nat) :
    Memo.Alike Like (memo.filter fun _ entry => entry.lookahead ≤ common)
      (memo'.filter fun _ entry => entry.lookahead ≤ common) := by
  intro key
  simp only [Std.HashMap.getElem?_filter']
  exact rel_filter (h key) fun entries => by rw [entries.lookahead]

end Memo.Alike

namespace Reply.Alike

variable {reply reply' : Reply} (h : reply.Alike Like reply')

theorem immediate {result result' : Option Match} {memo memo' : Memo}
    (results : Option.Rel (Match.Alike Like) result result') (memos : memo.Alike Like memo') :
    Reply.Alike Like (.immediate result memo) (.immediate result' memo') :=
  ⟨results, rfl, memos⟩

include h

theorem after (seen : Observation) :
    (reply.after seen).Alike Like (reply'.after seen) :=
  ⟨h.result, congrArg seen.followedBy h.seen, h.memo⟩

theorem prepend (congruent : Fragment.Congruent Like) {found found' : Match}
    (alike : found.Alike Like found') :
    (reply.prepend found).Alike Like (reply'.prepend found') := by
  refine ⟨rel_map h.result fun rest => ?_, h.seen, h.memo⟩
  exact ⟨congruent.append alike.fragment rest.fragment, rest.stop⟩

theorem withResult {result result' : Option Match}
    (results : Option.Rel (Match.Alike Like) result result') :
    (reply.withResult result).Alike Like (reply'.withResult result') :=
  ⟨results, h.seen, h.memo⟩

theorem remembered (memoize : Bool) (key : MemoKey) :
    (reply.remembered memoize key).Alike Like (reply'.remembered memoize key) := by
  unfold Reply.remembered
  rw [← h.seen]
  split
  · exact ⟨h.result, rfl, h.memo.insert key ⟨h.result, rfl, rfl⟩⟩
  · exact h

end Reply.Alike

/-! ### Parts of operations -/

namespace Fragment.Congruent

variable (congruent : Fragment.Congruent Like)
include congruent

theorem matchBlank (position : Nat) : (Match.blank position).Alike Like (Match.blank position) :=
  ⟨congruent.blank, rfl⟩

section Parts
variable {limit : Nat} {evaluate evaluate' : Fin limit → Evaluator}
  (parts : ∀ item, (evaluate item).Alike Like (evaluate' item))
include parts

theorem matchAll (items : List (Fin limit)) :
    Evaluator.Alike Like (matchAll evaluate items) (matchAll evaluate' items) := by
  induction items with
  | nil => exact fun position _ _ memos => .immediate (.some (congruent.matchBlank position)) memos
  | cons item items ih =>
    intro position memo memo' memos
    have hhead := parts item position memo memo' memos
    simp only [Engine.matchAll]
    rcases cases_of_rel hhead.result with ⟨hnone, hnone'⟩ | ⟨found, found', hfound, hfound', hmatch⟩
    · simp only [hnone, hnone']
      exact hhead
    · simp only [hfound, hfound']
      rw [← hhead.seen, ← hmatch.stop]
      exact ((ih found.stop _ _ hhead.memo).prepend congruent hmatch).after _

omit congruent in
theorem matchFirst (analysis : Analysis) (current : Kind) (items : List (Fin limit)) :
    Evaluator.Alike Like (matchFirst analysis current evaluate items)
      (matchFirst analysis current evaluate' items) := by
  induction items with
  | nil => exact fun _ _ _ memos => .immediate .none memos
  | cons item items ih =>
    intro position memo memo' memos
    simp only [Engine.matchFirst]
    split
    · exact (ih position memo memo' memos).after _
    · have hhead := parts item position memo memo' memos
      rcases cases_of_rel hhead.result with
        ⟨hnone, hnone'⟩ | ⟨found, found', hfound, hfound', hmatch⟩
      · simp only [hnone, hnone']
        rw [← hhead.seen]
        exact (ih position _ _ hhead.memo).after _
      · simp only [hfound, hfound']
        exact hhead

end Parts

theorem emptyRound (least position : Nat) {found found' : Match}
    (alike : found.Alike Like found') :
    Option.Rel (Match.Alike Like) (emptyRound least position found)
      (emptyRound least position found') := by
  unfold Engine.emptyRound
  split
  · exact .some (congruent.matchBlank position)
  · exact .some alike
  · exact .none

section Part
variable {evaluate evaluate' : Evaluator} (part : evaluate.Alike Like evaluate')
include part

theorem matchMany (size least : Nat) :
    Evaluator.Alike Like (matchMany evaluate size least) (matchMany evaluate' size least) := by
  intro position memo memo' memos
  induction least, position, memo using matchMany.induct evaluate size generalizing memo' with
  | case1 least position memo reply hnone =>
    have hround := part position memo memo' memos
    rcases cases_of_rel hround.result with ⟨-, hnone'⟩ | ⟨found, found', hfound, -, -⟩
    · rw [Engine.matchMany, Engine.matchMany]
      simp only [reply] at hnone
      simp only [hnone, hnone']
      refine hround.withResult ?_
      split
      · exact .some (congruent.matchBlank position)
      · exact .none
    · exact absurd (hnone.symm.trans hfound) (by simp)
  | case2 least position memo reply found hfound hmoved ih =>
    have hround := part position memo memo' memos
    rcases cases_of_rel hround.result with ⟨hnone, -⟩ | ⟨other, found', hother, hfound', alike⟩
    · exact absurd (hfound.symm.trans hnone) (by simp)
    · obtain rfl := Option.some.inj (hfound.symm.trans hother)
      rw [Engine.matchMany, Engine.matchMany]
      simp only [reply] at hfound ih
      simp only [hfound, hfound']
      rw [dif_pos hmoved, dif_pos (alike.stop ▸ hmoved), ← hround.seen, ← alike.stop]
      exact ((ih _ hround.memo).prepend congruent alike).after _
  | case3 least position memo reply found hfound hstill =>
    have hround := part position memo memo' memos
    rcases cases_of_rel hround.result with ⟨hnone, -⟩ | ⟨other, found', hother, hfound', alike⟩
    · exact absurd (hfound.symm.trans hnone) (by simp)
    · obtain rfl := Option.some.inj (hfound.symm.trans hother)
      rw [Engine.matchMany, Engine.matchMany]
      simp only [reply] at hfound
      simp only [hfound, hfound']
      rw [dif_neg hstill, dif_neg (alike.stop ▸ hstill)]
      exact hround.withResult (congruent.emptyRound least position alike)

theorem matchOptional :
    Evaluator.Alike Like (matchOptional evaluate) (matchOptional evaluate') := by
  intro position memo memo' memos
  have hone := part position memo memo' memos
  refine hone.withResult ?_
  rcases cases_of_rel hone.result with ⟨hnone, hnone'⟩ | ⟨found, found', hfound, hfound', hmatch⟩
  · rw [hnone, hnone']
    exact .some (congruent.matchBlank position)
  · rw [hfound, hfound']
    exact .some hmatch

end Part

end Fragment.Congruent

/-! ### Rules -/

namespace Engine.InStep

variable {compiled compiled' : CompiledGrammar} {tokens tokens' : Array StreamToken}
  (h : InStep Like compiled compiled' tokens tokens')
include h

theorem size : tokens.size = tokens'.size := by
  rw [← Array.length_toList, ← Array.length_toList, List.Forall₂.length_eq h.tokens]

theorem getElem? (position : Nat) :
    Option.Rel (StreamToken.Alike Like compiled.program) tokens[position]? tokens'[position]? := by
  rw [← Array.getElem?_toList, ← Array.getElem?_toList]
  exact rel_getElem?_of_forall₂ h.tokens position

theorem kindAt (position : Nat) : kindAt tokens position = kindAt tokens' position := by
  unfold Engine.kindAt
  have htoken := h.getElem? position
  generalize tokens[position]? = token, tokens'[position]? = token' at htoken ⊢
  cases htoken with
  | none => rfl
  | some alike => exact congrArg (fun kind => (some kind).getD Kind.endOfInput) alike.kind

theorem matchToken {op : Nat} {kind : Kind} (view : compiled.program.view op = .token kind) :
    Evaluator.Alike Like (matchToken tokens kind) (matchToken tokens' kind) := by
  intro position memo memo' memos
  have htoken := rel_filter (p := fun token => decide (token.kind = kind))
    (q := fun token => decide (token.kind = kind)) (h.getElem? position)
    fun alike => by rw [alike.kind]
  unfold Engine.matchToken
  generalize hfound : (tokens[position]?).filter _ = token at htoken ⊢
  generalize (tokens'[position]?).filter _ = token' at htoken ⊢
  cases htoken with
  | none => exact ⟨.none, rfl, memos⟩
  | some alike =>
    have hkind := of_decide_eq_true (Option.filter_eq_some_iff.mp hfound).2
    exact ⟨.some ⟨alike.fragment op (hkind ▸ view), rfl⟩, rfl, memos⟩

section Calls
variable {call call' : Nat → Int → Evaluator}
  (calls : ∀ rule bound, (call rule bound).Alike Like (call' rule bound))
include calls

/-- **Operations are in step** if calls are. -/
theorem evaluate (op : Nat) :
    Evaluator.Alike Like (evaluate compiled tokens call op)
      (evaluate compiled' tokens' call' op) := by
  induction op using Nat.strongRecOn with
  | _ op ih =>
    have congruent := h.grammars.congruent
    rw [Engine.evaluate, Engine.evaluate, ← h.grammars.view op, ← h.size, ← h.grammars.analysis]
    split
    · rename_i kind hview
      exact h.matchToken hview
    · exact congruent.matchAll (fun item => ih item item.isLt) _
    · intro position memo memo' memos
      simp only [← h.kindAt position]
      exact (Fragment.Congruent.matchFirst (fun item => ih item item.isLt) _ _ _ position memo memo'
        memos).after _
    · rename_i least inner hview
      exact congruent.matchMany (ih inner inner.isLt) _ _
    · rename_i inner hview
      exact congruent.matchOptional (ih inner inner.isLt)
    · exact fun position _ _ memos => .immediate (.some (congruent.matchBlank position)) memos
    · exact calls _ _

omit calls
section Growth
variable {evaluate evaluate' : Nat → Evaluator}
  (parts : ∀ op, (evaluate op).Alike Like (evaluate' op))
include parts

omit h in
theorem matchTail (tails : List Tail) :
    Evaluator.Alike Like (matchTail evaluate tails) (matchTail evaluate' tails) := by
  induction tails with
  | nil => exact fun _ _ _ memos => .immediate .none memos
  | cons tail tails ih =>
    intro position memo memo' memos
    have hone := parts tail.op position memo memo' memos
    have hmoved := rel_filter (p := (·.stop ≠ position)) (q := (·.stop ≠ position)) hone.result
      fun alike => by rw [alike.stop]
    simp only [Engine.matchTail]
    rcases cases_of_rel hmoved with ⟨hnone, hnone'⟩ | ⟨found, found', hfound, hfound', -⟩
    · simp only [hnone, hnone']
      rw [← hone.seen]
      exact (ih position _ _ hone.memo).after _
    · simp only [hfound, hfound']
      exact hone

theorem growFrom {rule rule' : Rule} (rules : rule.Alike Like rule') (tails : List Tail)
    (found found' : Match) (alike : found.Alike Like found') (memo memo' : Memo)
    (memos : memo.Alike Like memo') :
    Reply.Alike Like (growFrom evaluate rule tails tokens.size found memo)
      (growFrom evaluate' rule' tails tokens'.size found' memo') := by
  rw [← h.size]
  induction found, memo using growFrom.induct evaluate rule tails tokens.size
    generalizing found' memo' with
  | case1 found memo reply hnone =>
    have htail := matchTail parts tails found.stop memo memo' memos
    rcases cases_of_rel htail.result with ⟨-, hnone'⟩ | ⟨next, next', hnext, -, -⟩
    · rw [Engine.growFrom, Engine.growFrom, ← alike.stop]
      simp only [reply] at hnone
      simp only [hnone, hnone']
      exact htail.withResult (.some alike)
    · exact absurd (hnone.symm.trans hnext) (by simp)
  | case2 found memo reply next hnext hmoved ih =>
    have htail := matchTail parts tails found.stop memo memo' memos
    rcases cases_of_rel htail.result with ⟨hnone, -⟩ | ⟨other, next', hother, hnext', tail⟩
    · exact absurd (hnext.symm.trans hnone) (by simp)
    · obtain rfl := Option.some.inj (hnext.symm.trans hother)
      rw [Engine.growFrom, Engine.growFrom, ← alike.stop]
      simp only [reply] at hnext ih
      simp only [hnext, hnext']
      rw [dif_pos hmoved, dif_pos (tail.stop ▸ hmoved), ← htail.seen]
      have longer : Match.Alike Like ⟨closed rule found.fragment ++ next.fragment, next.stop⟩
          ⟨closed rule' found'.fragment ++ next'.fragment, next'.stop⟩ :=
        ⟨h.grammars.congruent.append (rules.closed alike.fragment) tail.fragment, tail.stop⟩
      exact (ih _ longer _ htail.memo).after _
  | case3 found memo reply next hnext hstill =>
    have htail := matchTail parts tails found.stop memo memo' memos
    rcases cases_of_rel htail.result with ⟨hnone, -⟩ | ⟨other, next', hother, hnext', tail⟩
    · exact absurd (hnext.symm.trans hnone) (by simp)
    · obtain rfl := Option.some.inj (hnext.symm.trans hother)
      rw [Engine.growFrom, Engine.growFrom, ← alike.stop]
      simp only [reply] at hnext
      simp only [hnext, hnext']
      rw [dif_neg hstill, dif_neg (tail.stop ▸ hstill)]
      exact htail.withResult (.some alike)

theorem matchBody {rule rule' : Rule} (rules : rule.Alike Like rule') (bound : Int) :
    Evaluator.Alike Like (matchBody evaluate tokens.size rule bound)
      (matchBody evaluate' tokens'.size rule' bound) := by
  intro position memo memo' memos
  unfold Engine.matchBody
  rw [← rules.body]
  split
  · exact parts _ position memo memo' memos
  · rename_i base tails _
    have hbase := parts base position memo memo' memos
    rcases cases_of_rel hbase.result with ⟨hnone, hnone'⟩ | ⟨found, found', hfound, hfound', alike⟩
    · simp only [hnone, hnone']
      exact hbase
    · simp only [hfound, hfound']
      rw [← hbase.seen]
      exact (h.growFrom parts rules _ _ _ alike _ _ hbase.memo).after _

end Growth

end Calls

/-- **Calls are in step**, also where they run into the limit on depth. -/
theorem callRule (memoize : Bool) (depth : Nat) (frames : List Nat) (rule : Nat) (bound : Int) :
    Evaluator.Alike Like (callRule compiled tokens memoize depth frames rule bound)
      (callRule compiled' tokens' memoize depth frames rule bound) := by
  induction depth generalizing frames rule bound with
  | zero =>
    intro position memo memo' memos
    rw [Engine.callRule, Engine.callRule]
    rcases cases_of_rel (h.grammars.rules rule) with
      ⟨hnone, hnone'⟩ | ⟨body, body', hbody, hbody', rules⟩
    · simp only [hnone, hnone']
      exact .immediate .none memos
    · simp only [hbody, hbody', ← rules.effectiveBound]
      rcases cases_of_rel (memos ⟨rule, position, effectiveBound body bound⟩) with
        ⟨hnone, hnone'⟩ | ⟨entry, entry', hentry, hentry', entries⟩
      · simp only [hnone, hnone']
        exact ⟨.none, rfl, memos⟩
      · simp only [hentry, hentry']
        exact ⟨entries.result, entries.seen, memos⟩
  | succ depth ih =>
    intro position memo memo' memos
    rw [Engine.callRule, Engine.callRule]
    rcases cases_of_rel (h.grammars.rules rule) with
      ⟨hnone, hnone'⟩ | ⟨body, body', hbody, hbody', rules⟩
    · simp only [hnone, hnone']
      exact .immediate .none memos
    · simp only [hbody, hbody', ← rules.effectiveBound]
      rcases cases_of_rel (memos ⟨rule, position, effectiveBound body bound⟩) with
        ⟨hnone, hnone'⟩ | ⟨entry, entry', hentry, hentry', entries⟩
      · simp only [hnone, hnone']
        have hbody := h.matchBody (h.evaluate fun rule bound => ih (position :: frames) rule bound)
          rules (effectiveBound body bound) position memo memo' memos
        refine (hbody.withResult (rel_map hbody.result fun alike => ?_)).remembered memoize _
        exact ⟨rules.closed alike.fragment, alike.stop⟩
      · simp only [hentry, hentry']
        exact ⟨entries.result, entries.seen, memos⟩

/-! ### Runs -/

theorem outcomeOf {result result' : Option Match}
    (results : Option.Rel (Match.Alike Like) result result') (seen : Observation) :
    (outcomeOf tokens result seen).Alike Like (outcomeOf tokens' result' seen) := by
  cases results with
  | none => exact ⟨.none, rfl, rfl⟩
  | some alike =>
    unfold Engine.outcomeOf
    simp only [← alike.stop, ← h.kindAt]
    split
    · exact ⟨.some alike.fragment, rfl, rfl⟩
    · exact ⟨.none, rfl, rfl⟩

/-- **Runs are in step.** -/
theorem run (options : ParserOptions) {memo memo' : Memo} (memos : memo.Alike Like memo') :
    (run compiled options tokens memo).1.Alike Like (run compiled' options tokens' memo').1 ∧
      (run compiled options tokens memo).2.Alike Like (run compiled' options tokens' memo').2 := by
  unfold Engine.run
  rw [← h.grammars.start]
  rcases cases_of_rel (h.grammars.rules compiled.start) with
    ⟨hnone, hnone'⟩ | ⟨start, start', hstart, hstart', rules⟩
  · simp only [hnone, hnone']
    exact ⟨⟨.none, rfl, rfl⟩, memos⟩
  · simp only [hstart, hstart']
    have hbody := h.matchBody (h.evaluate (h.callRule options.memoize options.maxDepth [])) rules
      leastLevel 0 memo memo' memos
    rw [← hbody.seen]
    exact ⟨h.outcomeOf hbody.result _, hbody.memo⟩

end Engine.InStep

end Syntagm
