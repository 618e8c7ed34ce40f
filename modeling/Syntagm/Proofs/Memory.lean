import Syntagm.Proofs.Evaluation

/-!
# The engine evaluates, whatever it remembers

If everything remembered is an evaluation of its call, then every reply of the engine is an
evaluation of what was asked for, and everything remembered afterwards is one again
(`Engine.Sound`).  Each operation of the engine has a lemma of this form, and the loops of the
engine agree with the rules of `Evaluates` because a match never stops outside the stretch that was
looked at.

A reply of a call that went too deep is not remembered.  So what is remembered saw no cut, also
when the run as a whole did.
-/

namespace Syntagm

variable (compiled : CompiledGrammar) (tokens : Array StreamToken)

/-- **Everything remembered is right**: each entry is an evaluation of its call. -/
def Memo.Valid (memo : Memo) : Prop :=
  ∀ (key : MemoKey) (entry : MemoEntry), memo[key]? = some entry →
    Evaluates compiled tokens (.call key.rule key.bound) key.position entry.result entry.seen

variable {compiled tokens}

/-- Nothing is remembered. -/
def Memo.Blank (memo : Memo) : Prop := ∀ key : MemoKey, memo[key]? = none

theorem Memo.blank_empty : Memo.Blank ∅ := fun _ => Std.HashMap.getElem?_empty

theorem Memo.Blank.filter {memo : Memo} (h : memo.Blank) (p : MemoKey → MemoEntry → Bool) :
    Memo.Blank (memo.filter p) := by
  intro key
  rw [Std.HashMap.getElem?_filter', h key]
  rfl

theorem Memo.Blank.valid {memo : Memo} (h : memo.Blank) : Memo.Valid compiled tokens memo := by
  intro key entry hentry
  rw [h key] at hentry
  cases hentry

theorem Memo.valid_empty : Memo.Valid compiled tokens ∅ := Memo.blank_empty.valid

theorem Memo.Valid.insert {memo : Memo} (h : memo.Valid compiled tokens) {key : MemoKey}
    {entry : MemoEntry}
    (right : Evaluates compiled tokens (.call key.rule key.bound) key.position entry.result
      entry.seen) : Memo.Valid compiled tokens (memo.insert key entry) := by
  intro other found hfound
  rw [Std.HashMap.getElem?_insert] at hfound
  split at hfound
  · rename_i heq
    rw [← eq_of_beq heq, ← Option.some.inj hfound]
    exact right
  · exact h other found hfound

theorem Engine.effectiveBound_idem (rule : Rule) (bound : Int) :
    effectiveBound rule (effectiveBound rule bound) = effectiveBound rule bound := by
  unfold effectiveBound
  split <;> rfl

/-- The bound of a call counts only as far as it is effective. -/
theorem Evaluates.rebound {number : Nat} {bound other : Int} {position : Nat}
    {result : Option Match} {seen : Observation} {rule : Rule}
    (lookup : compiled.program.rules[number]? = some rule)
    (same : Engine.effectiveBound rule bound = Engine.effectiveBound rule other)
    (h : Evaluates compiled tokens (.call number bound) position result seen) :
    Evaluates compiled tokens (.call number other) position result seen := by
  cases h with
  | noRule hnone => simp [lookup] at hnone
  | call hlookup body =>
    obtain rfl := Option.some.inj (lookup.symm.trans hlookup)
    exact .call lookup (same ▸ body)
  | tooDeep => exact .tooDeep

/-- What is remembered of a rule answers its calls. -/
theorem Memo.Valid.recall {memo : Memo} (h : memo.Valid compiled tokens) {number position : Nat}
    {bound : Int} {rule : Rule} (lookup : compiled.program.rules[number]? = some rule)
    {entry : MemoEntry}
    (found : memo[(⟨number, position, Engine.effectiveBound rule bound⟩ : MemoKey)]? =
      some entry) :
    Evaluates compiled tokens (.call number bound) position entry.result entry.seen :=
  .rebound lookup (Engine.effectiveBound_idem rule bound) (h _ entry found)

namespace Reply

@[simp] theorem remembered_result (reply : Reply) (memoize : Bool) (key : MemoKey) :
    (reply.remembered memoize key).result = reply.result := by
  unfold remembered
  split <;> rfl

@[simp] theorem remembered_seen (reply : Reply) (memoize : Bool) (key : MemoKey) :
    (reply.remembered memoize key).seen = reply.seen := by
  unfold remembered
  split <;> rfl

/-- What is remembered of a reply without a cut is right. -/
theorem valid_remembered {reply : Reply} (memoize : Bool) {key : MemoKey}
    (hreply : Evaluates compiled tokens (.call key.rule key.bound) key.position reply.result
      reply.seen) (hmemo : Memo.Valid compiled tokens reply.memo) :
    Memo.Valid compiled tokens (reply.remembered memoize key).memo := by
  unfold remembered
  split
  · rename_i hkept
    simp only [Bool.and_eq_true, Option.isNone_iff_eq_none] at hkept
    refine hmemo.insert ?_
    -- without a cut, the entry holds all that the reply saw
    have hseen : reply.seen = ⟨reply.seen.failure, reply.seen.lookahead, none⟩ := by
      rw [← hkept.2]
    rw [MemoEntry.seen, ← hseen]
    exact hreply
  · exact hmemo

end Reply

namespace Engine

/-- The evaluator evaluates the goal and remembers only what is right. -/
def Sound (compiled : CompiledGrammar) (tokens : Array StreamToken) (goal : Goal)
    (evaluator : Evaluator) : Prop :=
  ∀ position memo, Memo.Valid compiled tokens memo →
    Evaluates compiled tokens goal position (evaluator position memo).result
        (evaluator position memo).seen ∧
      Memo.Valid compiled tokens (evaluator position memo).memo

/-! ### Operations -/

theorem sound_matchToken {op : Nat} {kind : Kind}
    (view : compiled.program.view op = .token kind) :
    Sound compiled tokens (.op op) (matchToken tokens kind) := by
  intro position memo hmemo
  unfold matchToken
  split
  · rename_i token hfound
    exact ⟨.token view hfound, hmemo⟩
  · rename_i hnone
    exact ⟨.otherToken view hnone, hmemo⟩

section Parts
variable {limit : Nat} {evaluate : Fin limit → Evaluator}

theorem sound_matchAll (items : List (Fin limit))
    (hev : ∀ item ∈ items, Sound compiled tokens (.op item) (evaluate item)) :
    Sound compiled tokens (.all items) (matchAll evaluate items) := by
  induction items with
  | nil => exact fun position memo hmemo => ⟨.allNil, hmemo⟩
  | cons item items ih =>
    intro position memo hmemo
    obtain ⟨hhead, hmemo'⟩ := hev item List.mem_cons_self position memo hmemo
    simp only [matchAll]
    split
    · rename_i hnone
      rw [hnone] at hhead ⊢
      exact ⟨.allFail hhead, hmemo'⟩
    · rename_i found hfound
      rw [hfound] at hhead
      have hrest := ih (fun other hother => hev other (List.mem_cons_of_mem _ hother))
        found.stop _ hmemo'
      exact ⟨.allCons hhead hrest.1, hrest.2⟩

theorem sound_matchFirst (current : Kind) (items : List (Fin limit))
    (hev : ∀ item ∈ items, Sound compiled tokens (.op item) (evaluate item)) :
    Sound compiled tokens (.first current items)
      (matchFirst compiled.analysis current evaluate items) := by
  induction items with
  | nil => exact fun position memo hmemo => ⟨.firstNil, hmemo⟩
  | cons item items ih =>
    have ih := ih fun other hother => hev other (List.mem_cons_of_mem _ hother)
    intro position memo hmemo
    simp only [matchFirst]
    split
    · rename_i hpruned
      exact ⟨.firstPruned hpruned (ih position memo hmemo).1, (ih position memo hmemo).2⟩
    · rename_i htried
      have htried := Bool.eq_false_iff.mpr htried
      obtain ⟨hhead, hmemo'⟩ := hev item List.mem_cons_self position memo hmemo
      split
      · rename_i found hfound
        rw [hfound] at hhead ⊢
        exact ⟨.firstFound htried hhead, hmemo'⟩
      · rename_i hnone
        rw [hnone] at hhead
        exact ⟨.firstNext htried hhead (ih position _ hmemo').1, (ih position _ hmemo').2⟩

end Parts

theorem sound_matchMany {evaluate : Evaluator} {inner : Nat}
    (hev : Sound compiled tokens (.op inner) evaluate) (least : Nat) :
    Sound compiled tokens (.many least inner) (matchMany evaluate tokens.size least) := by
  intro position memo hmemo
  induction least, position, memo using matchMany.induct evaluate tokens.size with
  | case1 least position memo reply hnone =>
    obtain ⟨hround, hmemo'⟩ := hev position memo hmemo
    rw [matchMany]
    simp only [reply] at hnone
    simp only [hnone] at hround ⊢
    exact ⟨.manyEnd hround, hmemo'⟩
  | case2 least position memo reply found hfound hmoved ih =>
    obtain ⟨hround, hmemo'⟩ := hev position memo hmemo
    have hrest := ih hmemo'
    rw [matchMany]
    simp only [reply] at hfound
    simp only [hfound] at hround ⊢
    rw [dif_pos hmoved]
    exact ⟨.manyMore hround hmoved.1 hrest.1, hrest.2⟩
  | case3 least position memo reply found hfound hstill =>
    obtain ⟨hround, hmemo'⟩ := hev position memo hmemo
    rw [matchMany]
    simp only [reply] at hfound
    simp only [hfound] at hround ⊢
    -- a match ends in the stream, so this round ended where it started
    have hstill' : ¬ position < found.stop := fun hlt =>
      hstill ⟨hlt, (hround.confined.read found rfl hlt).2⟩
    rw [dif_neg hstill]
    exact ⟨.manyEmpty hround hstill', hmemo'⟩

theorem sound_matchOptional {evaluate : Evaluator} {op : Nat} {inner : Fin op}
    (view : compiled.program.view op = .optional inner)
    (hev : Sound compiled tokens (.op inner) evaluate) :
    Sound compiled tokens (.op op) (matchOptional evaluate) := by
  intro position memo hmemo
  obtain ⟨hone, hmemo'⟩ := hev position memo hmemo
  exact ⟨.optional view hone, hmemo'⟩

/-- **Operations are evaluated soundly if calls are.**  The parts of an operation have smaller
numbers. -/
theorem sound_evaluate {call : Nat → Int → Evaluator}
    (hcall : ∀ rule bound, Sound compiled tokens (.call rule bound) (call rule bound)) (op : Nat) :
    Sound compiled tokens (.op op) (evaluate compiled tokens call op) := by
  induction op using Nat.strongRecOn with
  | _ op ih =>
    rw [evaluate]
    split
    · exact sound_matchToken ‹_›
    · rename_i items hview
      intro position memo hmemo
      have hall := sound_matchAll items (fun item _ => ih item item.isLt) position memo hmemo
      exact ⟨.seq hview hall.1, hall.2⟩
    · rename_i alternatives hview
      intro position memo hmemo
      have hfirst := sound_matchFirst (kindAt tokens position) alternatives
        (fun item _ => ih item item.isLt) position memo hmemo
      exact ⟨.choice hview hfirst.1, hfirst.2⟩
    · rename_i least inner hview
      intro position memo hmemo
      have hmany := sound_matchMany (ih inner inner.isLt) least position memo hmemo
      exact ⟨.repetition hview hmany.1, hmany.2⟩
    · rename_i inner hview
      exact sound_matchOptional hview (ih inner inner.isLt)
    · rename_i hview
      exact fun position memo hmemo => ⟨.blank hview, hmemo⟩
    · rename_i rule bound hview
      intro position memo hmemo
      have hreply := hcall rule bound position memo hmemo
      exact ⟨.callOp hview hreply.1, hreply.2⟩

/-! ### Rules -/

/-- A tail that matches moves on. -/
theorem lt_stop_of_tail {tails : List Tail} {position : Nat} {found : Match}
    {seen : Observation} (h : Evaluates compiled tokens (.tail tails) position (some found) seen) :
    position < found.stop := by
  induction tails generalizing seen with
  | nil => cases h
  | cons tail tails ih =>
    cases h with
    | tailFound head moved => exact Nat.lt_of_le_of_ne (head.confined.le_stop found rfl) moved.symm
    | tailNext _ _ rest => exact ih rest

section Rules
variable {evaluate : Nat → Evaluator}
  (hev : ∀ op, Sound compiled tokens (.op op) (evaluate op))
include hev

theorem sound_matchTail (tails : List Tail) :
    Sound compiled tokens (.tail tails) (matchTail evaluate tails) := by
  induction tails with
  | nil => exact fun position memo hmemo => ⟨.tailNil, hmemo⟩
  | cons tail tails ih =>
    intro position memo hmemo
    obtain ⟨hhead, hmemo'⟩ := hev tail.op position memo hmemo
    simp only [matchTail]
    split
    · rename_i found hfound
      obtain ⟨hresult, hmoved⟩ := Option.filter_eq_some_iff.mp hfound
      rw [hresult] at hhead ⊢
      exact ⟨.tailFound hhead (of_decide_eq_true hmoved), hmemo'⟩
    · rename_i hstill
      exact ⟨.tailNext hhead hstill (ih position _ hmemo').1, (ih position _ hmemo').2⟩

theorem sound_growFrom (rule : Rule) (tails : List Tail) (found : Match) (memo : Memo)
    (hmemo : memo.Valid compiled tokens) :
    Evaluates compiled tokens (.grow rule tails found.fragment) found.stop
        (growFrom evaluate rule tails tokens.size found memo).result
        (growFrom evaluate rule tails tokens.size found memo).seen ∧
      Memo.Valid compiled tokens (growFrom evaluate rule tails tokens.size found memo).memo := by
  induction found, memo using growFrom.induct evaluate rule tails tokens.size with
  | case1 found memo reply hnone =>
    obtain ⟨htail, hmemo'⟩ := sound_matchTail hev tails found.stop memo hmemo
    rw [growFrom]
    simp only [reply] at hnone
    simp only [hnone] at htail ⊢
    exact ⟨.growEnd htail, hmemo'⟩
  | case2 found memo reply next hnext hmoved ih =>
    obtain ⟨htail, hmemo'⟩ := sound_matchTail hev tails found.stop memo hmemo
    have hrest := ih hmemo'
    rw [growFrom]
    simp only [reply] at hnext
    simp only [hnext] at htail ⊢
    rw [dif_pos hmoved]
    exact ⟨.growMore htail hmoved.1 hrest.1, hrest.2⟩
  | case3 found memo reply next hnext hstill =>
    obtain ⟨htail, hmemo'⟩ := sound_matchTail hev tails found.stop memo hmemo
    simp only [reply] at hnext
    rw [hnext] at htail
    -- a tail moves on and ends in the stream, so growing never stops for the bound
    have hlt := lt_stop_of_tail htail
    exact absurd ⟨hlt, (htail.confined.read next rfl hlt).2⟩ hstill

theorem sound_matchBody (rule : Rule) (bound : Int) :
    Sound compiled tokens (.body rule bound) (matchBody evaluate tokens.size rule bound) := by
  intro position memo hmemo
  unfold matchBody
  split
  · rename_i op hbody
    have hentry := hev op position memo hmemo
    exact ⟨.plain hbody hentry.1, hentry.2⟩
  · rename_i base tails hbody
    obtain ⟨hentry, hmemo'⟩ := hev base position memo hmemo
    simp only
    split
    · rename_i hnone
      rw [hnone] at hentry ⊢
      exact ⟨.noBase hbody hentry, hmemo'⟩
    · rename_i found hfound
      rw [hfound] at hentry
      have hgrow := sound_growFrom hev rule (tails.filter (bound ≤ ·.level)) found _ hmemo'
      exact ⟨.base hbody hentry hgrow.1, hgrow.2⟩

end Rules

/-- **Calls are evaluated soundly**, also where memory or the limit on depth answers. -/
theorem sound_callRule (memoize : Bool) (depth : Nat) (frames : List Nat) (rule : Nat)
    (bound : Int) :
    Sound compiled tokens (.call rule bound)
      (callRule compiled tokens memoize depth frames rule bound) := by
  induction depth generalizing frames rule bound with
  | zero =>
    intro position memo hmemo
    rw [callRule]
    split
    · exact ⟨.noRule ‹_›, hmemo⟩
    · rename_i body hlookup
      simp only
      split
      · rename_i entry hentry
        exact ⟨hmemo.recall hlookup hentry, hmemo⟩
      · exact ⟨.tooDeep, hmemo⟩
  | succ depth ih =>
    intro position memo hmemo
    rw [callRule]
    split
    · exact ⟨.noRule ‹_›, hmemo⟩
    · rename_i body hlookup
      simp only
      split
      · rename_i entry hentry
        exact ⟨hmemo.recall hlookup hentry, hmemo⟩
      · have hbody := sound_matchBody
          (sound_evaluate fun rule bound => ih (position :: frames) rule bound) body
          (effectiveBound body bound) position memo hmemo
        have hcall := Evaluates.call hlookup hbody.1
        rw [Reply.remembered_result, Reply.remembered_seen]
        exact ⟨hcall, Reply.valid_remembered memoize
          (.rebound hlookup (effectiveBound_idem body bound).symm hcall) hbody.2⟩

/-! ### Whole streams -/

theorem overflow_outcomeOf (tokens : Array StreamToken) (result : Option Match)
    (seen : Observation) : (outcomeOf tokens result seen).overflow = seen.overflow := by
  unfold outcomeOf
  split
  · rfl
  · split <;> rfl

/-- The outcome of a run is what an evaluation of the start rule amounts to, and what is
remembered stays right. -/
theorem sound_run {start : Rule} (hstart : compiled.program.rules[compiled.start]? = some start)
    (options : ParserOptions) {memo : Memo} (hmemo : memo.Valid compiled tokens) :
    (∃ result seen, Evaluates compiled tokens (.body start leastLevel) 0 result seen ∧
        (run compiled options tokens memo).1 = outcomeOf tokens result seen) ∧
      Memo.Valid compiled tokens (run compiled options tokens memo).2 := by
  have hbody := sound_matchBody (sound_evaluate fun rule bound =>
    sound_callRule options.memoize options.maxDepth [] rule bound) start leastLevel 0 memo hmemo
  simp only [run, hstart]
  exact ⟨⟨_, _, hbody.1, rfl⟩, hbody.2⟩

end Engine

end Syntagm
