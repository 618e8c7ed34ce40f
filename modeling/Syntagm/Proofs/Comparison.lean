import Syntagm.Proofs.Unlimited

/-!
# Engines side by side

Engines that make rule calls in different ways give the same as long as their calls do.  Which
calls matter is said by `Calls`: those that matching a goal makes, without the calls inside of
them.  What the same is depends on why engines are compared, and so does when they need not agree
any more; a `Comparison` names both, and asks for what it takes to go on after a step.

Only calls differ, so each function of the engine has a lemma which says that it gives the same if
its parts do, and one for the body of a rule (`Comparison.alike_matchBody`) sums them up.
-/

namespace Syntagm

open Engine

/-- **The calls that matching a goal makes**, at most.  Where a part comes behind another one, an
evaluation of that one says where it starts. -/
inductive Calls (compiled : CompiledGrammar) (tokens : Array StreamToken) :
    Goal → Nat → (rule : Nat) → (bound : Int) → (place : Nat) → Prop where
  | seq {op position items rule bound place} (view : compiled.program.view op = .seq items)
      (all : Calls compiled tokens (.all items) position rule bound place) :
      Calls compiled tokens (.op op) position rule bound place
  | choice {op position alternatives rule bound place}
      (view : compiled.program.view op = .choice alternatives)
      (first : Calls compiled tokens (.first (kindAt tokens position) alternatives) position rule
        bound place) :
      Calls compiled tokens (.op op) position rule bound place
  | repetition {op position least inner rule bound place}
      (view : compiled.program.view op = .repetition least inner)
      (many : Calls compiled tokens (.many least inner) position rule bound place) :
      Calls compiled tokens (.op op) position rule bound place
  | optional {op position inner rule bound place}
      (view : compiled.program.view op = .optional inner)
      (one : Calls compiled tokens (.op inner) position rule bound place) :
      Calls compiled tokens (.op op) position rule bound place
  | call {op position rule bound} (view : compiled.program.view op = .call rule bound) :
      Calls compiled tokens (.op op) position rule bound position
  | allHead {limit} {item : Fin limit} {items position rule bound place}
      (head : Calls compiled tokens (.op item) position rule bound place) :
      Calls compiled tokens (.all (item :: items)) position rule bound place
  | allRest {limit} {item : Fin limit} {items position found seen rule bound place}
      (head : Evaluates compiled tokens (.op item) position (some found) seen)
      (rest : Calls compiled tokens (.all items) found.stop rule bound place) :
      Calls compiled tokens (.all (item :: items)) position rule bound place
  | first {current limit} {item : Fin limit} {items position rule bound place} (mem : item ∈ items)
      (one : Calls compiled tokens (.op item) position rule bound place) :
      Calls compiled tokens (.first current items) position rule bound place
  | manyRound {least inner position rule bound place}
      (round : Calls compiled tokens (.op inner) position rule bound place) :
      Calls compiled tokens (.many least inner) position rule bound place
  | manyRest {least inner position found seen rule bound place}
      (round : Evaluates compiled tokens (.op inner) position (some found) seen)
      (moved : position < found.stop)
      (rest : Calls compiled tokens (.many (least - 1) inner) found.stop rule bound place) :
      Calls compiled tokens (.many least inner) position rule bound place
  | tail {tail tails position rule bound place} (mem : tail ∈ tails)
      (one : Calls compiled tokens (.op tail.op) position rule bound place) :
      Calls compiled tokens (.tail tails) position rule bound place
  | growTail {rule' tails fragment position rule bound place}
      (tail : Calls compiled tokens (.tail tails) position rule bound place) :
      Calls compiled tokens (.grow rule' tails fragment) position rule bound place
  | growRest {rule' tails fragment position next seen rule bound place}
      (tail : Evaluates compiled tokens (.tail tails) position (some next) seen)
      (rest : Calls compiled tokens (.grow rule' tails (closed rule' fragment ++ next.fragment))
        next.stop rule bound place) :
      Calls compiled tokens (.grow rule' tails fragment) position rule bound place
  | plain {rule' op bound' position rule bound place} (body : rule'.body = .plain op)
      (entry : Calls compiled tokens (.op op) position rule bound place) :
      Calls compiled tokens (.body rule' bound') position rule bound place
  | base {rule' base tails bound' position rule bound place}
      (body : rule'.body = .leftRecursive base tails)
      (entry : Calls compiled tokens (.op base) position rule bound place) :
      Calls compiled tokens (.body rule' bound') position rule bound place
  | tails {rule' base tails bound' position found seen rule bound place}
      (body : rule'.body = .leftRecursive base tails)
      (entry : Evaluates compiled tokens (.op base) position (some found) seen)
      (rest : Calls compiled tokens
        (.grow rule' (tails.filter (bound' ≤ ·.level)) found.fragment) found.stop rule bound
        place) :
      Calls compiled tokens (.body rule' bound') position rule bound place

/-- **What it means that two engines give the same**, as far as it is not open. -/
structure Comparison (compiled : CompiledGrammar) (tokens : Array StreamToken) where
  /-- What was seen leaves it open what the other engine gives. -/
  escaped : Observation → Prop
  /-- What holds of everything that is seen otherwise. -/
  clean : Observation → Prop
  /-- What is remembered by the two engines at the same point. -/
  memos : Memo → Memo → Prop
  escaped_first : ∀ {first : Observation} second, escaped first → escaped (first.followedBy second)
  escaped_second : ∀ (first : Observation) {second}, escaped second →
    escaped (first.followedBy second)
  clean_of_uncut : ∀ {seen : Observation}, seen.overflow = none → clean seen
  clean_followedBy : ∀ {first second : Observation}, clean first → clean second →
    clean (first.followedBy second)
  /-- The second engine remembers what is right. -/
  valid : ∀ {memo memo' : Memo}, memos memo memo' → memo'.Valid compiled tokens

namespace Comparison

variable {compiled : CompiledGrammar} {tokens : Array StreamToken}
  (comparison : Comparison compiled tokens)

/-- Replies of the two engines to the same goal. -/
inductive Replies (reply reply' : Reply) : Prop where
  | escaped (open_ : comparison.escaped reply.seen)
  | same (result : reply.result = reply'.result) (seen : reply.seen = reply'.seen)
      (clean : comparison.clean reply.seen) (memos : comparison.memos reply.memo reply'.memo)

/-- Two evaluators that give the same at a position. -/
def Alike (evaluator evaluator' : Evaluator) (position : Nat) : Prop :=
  ∀ memo memo', comparison.memos memo memo' →
    comparison.Replies (evaluator position memo) (evaluator' position memo')

variable {comparison}

namespace Replies

variable {reply reply' : Reply}

theorem immediate (result : Option Match) {memo memo' : Memo}
    (memos : comparison.memos memo memo') :
    comparison.Replies (.immediate result memo) (.immediate result memo') :=
  .same rfl rfl (comparison.clean_of_uncut rfl) memos

theorem withResult (h : comparison.Replies reply reply') (f : Option Match → Option Match) :
    comparison.Replies (reply.withResult (f reply.result))
      (reply'.withResult (f reply'.result)) := by
  cases h with
  | escaped hopen => exact .escaped hopen
  | same hresult hseen hclean hmemos => exact .same (congrArg f hresult) hseen hclean hmemos

theorem prepend (h : comparison.Replies reply reply') (first : Match) :
    comparison.Replies (reply.prepend first) (reply'.prepend first) :=
  h.withResult (·.map (first ++ ·))

theorem after (h : comparison.Replies reply reply') {seen : Observation}
    (clean : comparison.clean seen) :
    comparison.Replies (reply.after seen) (reply'.after seen) := by
  cases h with
  | escaped hopen => exact .escaped (comparison.escaped_second seen hopen)
  | same hresult hseen hclean hmemos =>
    exact .same hresult (congrArg seen.followedBy hseen)
      (comparison.clean_followedBy clean hclean) hmemos

/-- Replies of engines that are never apart. -/
theorem observed (h : comparison.Replies reply reply')
    (close : ∀ seen, ¬ comparison.escaped seen) :
    reply.result = reply'.result ∧ reply.seen = reply'.seen ∧ comparison.clean reply'.seen := by
  cases h with
  | escaped hopen => exact absurd hopen (close _)
  | same hresult hseen hclean _ => exact ⟨hresult, hseen, hseen ▸ hclean⟩

theorem eq (h : comparison.Replies reply reply') (close : ∀ seen, ¬ comparison.escaped seen)
    (equal : ∀ {memo memo' : Memo}, comparison.memos memo memo' → memo = memo') :
    reply = reply' := by
  cases h with
  | escaped hopen => exact absurd hopen (close _)
  | same hresult hseen _ hmemos =>
    obtain ⟨result, seen, memo⟩ := reply
    obtain ⟨result', seen', memo'⟩ := reply'
    obtain rfl : result = result' := hresult
    obtain rfl : seen = seen' := hseen
    obtain rfl : memo = memo' := equal hmemos
    rfl

end Replies

/-- Two ways to make calls give the same for the calls of a goal. -/
def Related (comparison : Comparison compiled tokens) (call call' : Nat → Int → Evaluator)
    (goal : Goal) (position : Nat) : Prop :=
  ∀ rule bound place, Calls compiled tokens goal position rule bound place →
    comparison.Alike (call rule bound) (call' rule bound) place

section Engine
variable {call call' : Nat → Int → Evaluator}

theorem Related.mono {goal part : Goal} {position place : Nat}
    (h : comparison.Related call call' goal position)
    (calls : ∀ {rule bound other}, Calls compiled tokens part place rule bound other →
      Calls compiled tokens goal position rule bound other) :
    comparison.Related call call' part place :=
  fun _ _ _ hcalls => h _ _ _ (calls hcalls)

/-- Two evaluators of an operation give the same wherever its calls do. -/
def AlikeFor (comparison : Comparison compiled tokens) (call call' : Nat → Int → Evaluator)
    (op : Nat) (evaluator evaluator' : Evaluator) : Prop :=
  ∀ position, comparison.Related call call' (.op op) position →
    comparison.Alike evaluator evaluator' position

theorem alike_matchToken (kind : Kind) (position : Nat) :
    comparison.Alike (matchToken tokens kind) (matchToken tokens kind) position := by
  intro memo memo' hmemos
  unfold matchToken
  split
  · exact .same rfl rfl (comparison.clean_of_uncut rfl) hmemos
  · exact .same rfl rfl (comparison.clean_of_uncut rfl) hmemos

section Parts
variable {limit : Nat} {evaluate evaluate' : Fin limit → Evaluator}

theorem alike_matchAll (items : List (Fin limit)) {position : Nat}
    (hev : ∀ item ∈ items, comparison.AlikeFor call call' item (evaluate item) (evaluate' item))
    (sound : ∀ item ∈ items, Sound compiled tokens (.op item) (evaluate' item))
    (related : comparison.Related call call' (.all items) position) :
    comparison.Alike (matchAll evaluate items) (matchAll evaluate' items) position := by
  induction items generalizing position with
  | nil => exact fun memo memo' hmemos => .immediate _ hmemos
  | cons item items ih =>
    intro memo memo' hmemos
    have hhead := hev item List.mem_cons_self position (related.mono .allHead) memo memo' hmemos
    simp only [matchAll]
    cases hhead with
    | escaped hopen =>
      refine .escaped ?_
      split
      · exact hopen
      · exact comparison.escaped_first _ hopen
    | same hresult hseen hclean hmemos' =>
      rw [hresult]
      split
      · exact .same hresult hseen hclean hmemos'
      · rename_i found hfound
        have hsound := (sound item List.mem_cons_self position memo' (comparison.valid hmemos)).1
        rw [hfound] at hsound
        rw [← hseen]
        exact (ih (fun other hother => hev other (List.mem_cons_of_mem _ hother))
          (fun other hother => sound other (List.mem_cons_of_mem _ hother))
          (related.mono (.allRest hsound)) _ _ hmemos').prepend found |>.after hclean

theorem alike_matchFirst (current : Kind) (items : List (Fin limit)) {position : Nat}
    (hev : ∀ item ∈ items, comparison.AlikeFor call call' item (evaluate item) (evaluate' item))
    (related : comparison.Related call call' (.first current items) position) :
    comparison.Alike (matchFirst compiled.analysis current evaluate items)
      (matchFirst compiled.analysis current evaluate' items) position := by
  induction items with
  | nil => exact fun memo memo' hmemos => .immediate _ hmemos
  | cons item items ih =>
    have ih := ih (fun other hother => hev other (List.mem_cons_of_mem _ hother))
      fun rule bound place hcalls => by
        cases hcalls with
        | first hmem hone => exact related _ _ _ (.first (List.mem_cons_of_mem _ hmem) hone)
    intro memo memo' hmemos
    simp only [matchFirst]
    split
    · exact (ih memo memo' hmemos).after (comparison.clean_of_uncut rfl)
    · have hhead := hev item List.mem_cons_self position
        (related.mono (.first List.mem_cons_self)) memo memo' hmemos
      cases hhead with
      | escaped hopen =>
        refine .escaped ?_
        split
        · exact hopen
        · exact comparison.escaped_first _ hopen
      | same hresult hseen hclean hmemos' =>
        rw [hresult]
        split
        · exact .same hresult hseen hclean hmemos'
        · rw [← hseen]
          exact (ih _ _ hmemos').after hclean

end Parts

theorem alike_matchMany {evaluate evaluate' : Evaluator} {inner : Nat}
    (hev : comparison.AlikeFor call call' inner evaluate evaluate')
    (sound : Sound compiled tokens (.op inner) evaluate') (least : Nat) {position : Nat}
    (related : comparison.Related call call' (.many least inner) position) :
    comparison.Alike (matchMany evaluate tokens.size least)
      (matchMany evaluate' tokens.size least) position := by
  intro memo memo' hmemos
  induction least, position, memo using matchMany.induct evaluate tokens.size generalizing memo'
    with
  | case1 least position memo reply hnone =>
    have hround := hev position (related.mono .manyRound) memo memo' hmemos
    rw [matchMany, matchMany]
    simp only [reply] at hnone
    simp only [hnone]
    cases hround with
    | escaped hopen => exact .escaped hopen
    | same hresult hseen hclean hmemos' =>
      simp only [← hresult, hnone]
      exact .same rfl hseen hclean hmemos'
  | case2 least position memo reply found hfound hmoved ih =>
    have hround := hev position (related.mono .manyRound) memo memo' hmemos
    rw [matchMany, matchMany]
    simp only [reply] at hfound ih
    simp only [hfound]
    rw [dif_pos hmoved]
    cases hround with
    | escaped hopen => exact .escaped (comparison.escaped_first _ hopen)
    | same hresult hseen hclean hmemos' =>
      have hsound := (sound position memo' (comparison.valid hmemos)).1
      rw [← hresult, hfound] at hsound
      simp only [← hresult, hfound]
      rw [dif_pos hmoved, ← hseen]
      exact (ih (related.mono (.manyRest hsound hmoved.1)) _ hmemos').prepend found |>.after hclean
  | case3 least position memo reply found hfound hstill =>
    have hround := hev position (related.mono .manyRound) memo memo' hmemos
    rw [matchMany, matchMany]
    simp only [reply] at hfound
    simp only [hfound]
    rw [dif_neg hstill]
    cases hround with
    | escaped hopen => exact .escaped hopen
    | same hresult hseen hclean hmemos' =>
      simp only [← hresult, hfound]
      rw [dif_neg hstill]
      exact .same rfl hseen hclean hmemos'

theorem alike_evaluate
    (sound : ∀ rule bound, Sound compiled tokens (.call rule bound) (call' rule bound))
    (op : Nat) :
    comparison.AlikeFor call call' op (evaluate compiled tokens call op)
      (evaluate compiled tokens call' op) := by
  induction op using Nat.strongRecOn with
  | _ op ih =>
    intro position related
    rw [evaluate, evaluate]
    split
    · exact alike_matchToken _ position
    · rename_i items hview
      exact alike_matchAll items (fun item _ => ih item item.isLt)
        (fun item _ => sound_evaluate sound item) (related.mono (.seq hview))
    · rename_i alternatives hview
      intro memo memo' hmemos
      exact (alike_matchFirst _ alternatives (fun item _ => ih item item.isLt)
        (related.mono (.choice hview)) memo memo' hmemos).after (comparison.clean_of_uncut rfl)
    · rename_i least inner hview
      exact alike_matchMany (ih inner inner.isLt) (sound_evaluate sound inner) least
        (related.mono (.repetition hview))
    · rename_i inner hview
      intro memo memo' hmemos
      exact (ih inner inner.isLt position (related.mono (.optional hview)) memo memo'
        hmemos).withResult fun result => some (result.getD (.blank position))
    · exact fun memo memo' hmemos => .immediate _ hmemos
    · rename_i rule bound hview
      exact related rule bound position (.call hview)

section Rules
variable {evaluate evaluate' : Nat → Evaluator}
  (hev : ∀ op, comparison.AlikeFor call call' op (evaluate op) (evaluate' op))
  (sound : ∀ op, Sound compiled tokens (.op op) (evaluate' op))
include hev

theorem alike_matchTail (tails : List Tail) {position : Nat}
    (related : comparison.Related call call' (.tail tails) position) :
    comparison.Alike (matchTail evaluate tails)
      (matchTail evaluate' tails) position := by
  induction tails with
  | nil => exact fun memo memo' hmemos => .immediate _ hmemos
  | cons tail tails ih =>
    have ih := ih fun rule bound place hcalls => by
      cases hcalls with
      | tail hmem hone => exact related _ _ _ (.tail (List.mem_cons_of_mem _ hmem) hone)
    intro memo memo' hmemos
    have hhead := hev tail.op position
      (related.mono (.tail List.mem_cons_self)) memo memo' hmemos
    simp only [matchTail]
    cases hhead with
    | escaped hopen =>
      refine .escaped ?_
      split
      · exact hopen
      · exact comparison.escaped_first _ hopen
    | same hresult hseen hclean hmemos' =>
      rw [hresult]
      split
      · exact .same hresult hseen hclean hmemos'
      · rw [← hseen]
        exact (ih _ _ hmemos').after hclean

include sound

theorem alike_growFrom (rule : Rule) (tails : List Tail) (found : Match)
    (related : comparison.Related call call' (.grow rule tails found.fragment) found.stop)
    (memo memo' : Memo) (hmemos : comparison.memos memo memo') :
    comparison.Replies (growFrom evaluate rule tails tokens.size found memo)
      (growFrom evaluate' rule tails tokens.size found memo') := by
  induction found, memo using growFrom.induct evaluate rule tails tokens.size
    generalizing memo' with
  | case1 found memo reply hnone =>
    have htail := alike_matchTail hev tails (related.mono .growTail) memo memo' hmemos
    rw [growFrom, growFrom]
    simp only [reply] at hnone
    simp only [hnone]
    cases htail with
    | escaped hopen => exact .escaped hopen
    | same hresult hseen hclean hmemos' =>
      simp only [← hresult, hnone]
      exact .same rfl hseen hclean hmemos'
  | case2 found memo reply next hnext hmoved ih =>
    have htail := alike_matchTail hev tails (related.mono .growTail) memo memo' hmemos
    rw [growFrom, growFrom]
    simp only [reply] at hnext ih
    simp only [hnext]
    rw [dif_pos hmoved]
    cases htail with
    | escaped hopen => exact .escaped (comparison.escaped_first _ hopen)
    | same hresult hseen hclean hmemos' =>
      have hsound := (sound_matchTail sound tails found.stop memo'
        (comparison.valid hmemos)).1
      rw [← hresult, hnext] at hsound
      simp only [← hresult, hnext]
      rw [dif_pos hmoved, ← hseen]
      exact (ih (related.mono (.growRest hsound)) _ hmemos').after hclean
  | case3 found memo reply next hnext hstill =>
    have htail := alike_matchTail hev tails (related.mono .growTail) memo memo' hmemos
    rw [growFrom, growFrom]
    simp only [reply] at hnext
    simp only [hnext]
    rw [dif_neg hstill]
    cases htail with
    | escaped hopen => exact .escaped hopen
    | same hresult hseen hclean hmemos' =>
      simp only [← hresult, hnext]
      rw [dif_neg hstill]
      exact .same rfl hseen hclean hmemos'

/-- **The body of a rule gives the same if its calls do.** -/
theorem alike_matchBody (rule : Rule) (bound : Int) {position : Nat}
    (related : comparison.Related call call' (.body rule bound) position) :
    comparison.Alike (matchBody evaluate tokens.size rule bound)
      (matchBody evaluate' tokens.size rule bound) position := by
  intro memo memo' hmemos
  unfold matchBody
  split
  · rename_i op hbody
    exact hev op position (related.mono (.plain hbody)) memo memo' hmemos
  · rename_i base tails hbody
    have hentry := hev base position (related.mono (.base hbody)) memo memo' hmemos
    simp only
    cases hentry with
    | escaped hopen =>
      refine .escaped ?_
      split
      · exact hopen
      · exact comparison.escaped_first _ hopen
    | same hresult hseen hclean hmemos' =>
      rw [hresult]
      split
      · exact .same hresult hseen hclean hmemos'
      · rename_i found hfound
        have hsound := (sound base position memo' (comparison.valid hmemos)).1
        rw [hfound] at hsound
        rw [← hseen]
        exact (alike_growFrom hev sound rule _ found (related.mono (.tails hbody hsound)) _ _
          hmemos').after hclean

end Rules

/-- **Against the engine**: the bodies give the same if the calls do. -/
theorem alike_engine (memoize : Bool) (depth : Nat) (frames : List Nat) (rule : Rule) (bound : Int)
    (position : Nat)
    (related : comparison.Related call (callRule compiled tokens memoize depth frames)
      (.body rule bound) position) :
    comparison.Alike (matchBody (evaluate compiled tokens call) tokens.size rule bound)
      (matchBody (evaluate compiled tokens (callRule compiled tokens memoize depth frames))
        tokens.size rule bound) position := by
  have sound (rule : Nat) (bound : Int) : Sound compiled tokens (.call rule bound)
      (callRule compiled tokens memoize depth frames rule bound) :=
    sound_callRule memoize depth frames rule bound
  exact alike_matchBody (alike_evaluate sound) (sound_evaluate sound) rule bound related

end Engine

end Comparison

/-! ### Without memory -/

namespace Engine

variable (compiled : CompiledGrammar) (tokens : Array StreamToken)

/-- Matches a rule without looking anything up or remembering it. -/
def callAfresh (depth : Nat) (frames : List Nat) (rule : Nat) (bound : Int) : Evaluator :=
  fun position memo =>
    match compiled.program.rules[rule]? with
    | none => .immediate none memo
    | some body =>
      match depth with
      | 0 =>
        let halfway := frames.reverse.getD (frames.length / 2) position
        ⟨none, .overflowed ⟨position, halfway⟩, memo⟩
      | depth + 1 =>
        let call := callAfresh depth (position :: frames)
        let reply := matchBody (evaluate compiled tokens call) tokens.size body
          (effectiveBound body bound) position memo
        reply.withResult (reply.result.map (closedMatch body))

/-- Engines that remember nothing, both. -/
def afresh : Comparison compiled tokens where
  escaped _ := False
  clean _ := True
  memos memo memo' := memo.Blank ∧ memo'.Blank
  escaped_first _ h := h
  escaped_second _ _ h := h
  clean_of_uncut _ := trivial
  clean_followedBy _ _ := trivial
  valid h := h.2.valid

theorem afresh_memos {memo memo' : Memo} (blank : memo.Blank) (blank' : memo'.Blank) :
    (afresh compiled tokens).memos memo memo' :=
  ⟨blank, blank'⟩

variable {compiled tokens}

/-- **Not to remember anything is to call afresh.** -/
theorem alike_callAfresh (depth : Nat) (frames : List Nat) (rule : Nat) (bound : Int)
    (position : Nat) :
    (afresh compiled tokens).Alike (callAfresh compiled tokens depth frames rule bound)
      (callRule compiled tokens false depth frames rule bound) position := by
  induction depth generalizing frames rule bound position with
  | zero =>
    rintro memo memo' ⟨blank, blank'⟩
    rw [callAfresh, callRule]
    cases compiled.program.rules[rule]? with
    | none => exact .immediate none ⟨blank, blank'⟩
    | some body =>
      simp only [blank' ⟨rule, position, effectiveBound body bound⟩]
      exact .same rfl rfl trivial ⟨blank, blank'⟩
  | succ depth ih =>
    rintro memo memo' ⟨blank, blank'⟩
    rw [callAfresh, callRule]
    cases compiled.program.rules[rule]? with
    | none => exact .immediate none ⟨blank, blank'⟩
    | some body =>
      simp only [blank' ⟨rule, position, effectiveBound body bound⟩]
      have hbody := Comparison.alike_engine false depth (position :: frames) body
        (effectiveBound body bound) position
        (fun rule bound place _ => ih (position :: frames) rule bound place) memo memo'
        (afresh_memos compiled tokens blank blank')
      exact hbody.withResult (Option.map (closedMatch body))

/-- What an operation gives if nothing is remembered. -/
theorem evaluate_afresh (depth : Nat) (frames : List Nat) (op position : Nat) :
    (afresh compiled tokens).Replies
      (evaluate compiled tokens (callAfresh compiled tokens depth frames) op position ∅)
      (evaluate compiled tokens (callRule compiled tokens false depth frames) op position ∅) :=
  Comparison.alike_evaluate (fun rule bound => sound_callRule false depth frames rule bound) op
    position
    (fun rule bound place _ => alike_callAfresh depth frames rule bound place) ∅ ∅
    (afresh_memos compiled tokens Memo.blank_empty Memo.blank_empty)

theorem result_evaluate_afresh (depth : Nat) (frames : List Nat) (op position : Nat) :
    (evaluate compiled tokens (callRule compiled tokens false depth frames) op position ∅).result =
      (evaluate compiled tokens (callAfresh compiled tokens depth frames) op position ∅).result :=
  ((evaluate_afresh depth frames op position).observed fun _ => id).1.symm

theorem seen_evaluate_afresh (depth : Nat) (frames : List Nat) (op position : Nat) :
    (evaluate compiled tokens (callRule compiled tokens false depth frames) op position ∅).seen =
      (evaluate compiled tokens (callAfresh compiled tokens depth frames) op position ∅).seen :=
  ((evaluate_afresh depth frames op position).observed fun _ => id).2.1.symm

/-- What the body of a rule gives if nothing is remembered. -/
theorem matchBody_afresh (depth : Nat) (frames : List Nat) (rule : Rule) (bound : Int)
    (position : Nat) {memo : Memo} (blank : memo.Blank) :
    let afresh := matchBody (evaluate compiled tokens (callAfresh compiled tokens depth frames))
      tokens.size rule bound position ∅
    let reply := matchBody (evaluate compiled tokens (callRule compiled tokens false depth frames))
      tokens.size rule bound position memo
    afresh.result = reply.result ∧ afresh.seen = reply.seen := by
  have hbody := Comparison.alike_engine false depth frames rule bound position
    (fun rule bound place _ => alike_callAfresh depth frames rule bound place) ∅ memo
    (afresh_memos compiled tokens Memo.blank_empty blank)
  obtain ⟨hresult, hseen, -⟩ := hbody.observed fun _ => id
  exact ⟨hresult, hseen⟩

/-- A run that remembers nothing. -/
def runAfresh (compiled : CompiledGrammar) (tokens : Array StreamToken) (depth : Nat) : Outcome :=
  match compiled.program.rules[compiled.start]? with
  | none => ⟨none, none, none⟩
  | some start =>
    let call := callAfresh compiled tokens depth []
    let reply := matchBody (evaluate compiled tokens call) tokens.size start leastLevel 0 ∅
    outcomeOf tokens reply.result reply.seen

theorem run_eq_runAfresh {options : ParserOptions} (forgets : options.memoize = false)
    {memo : Memo} (blank : memo.Blank) :
    (run compiled options tokens memo).1 = runAfresh compiled tokens options.maxDepth := by
  unfold run runAfresh
  cases compiled.program.rules[compiled.start]? with
  | none => rfl
  | some start =>
    obtain ⟨hresult, hseen⟩ :=
      @matchBody_afresh compiled tokens options.maxDepth [] start leastLevel 0 memo blank
    simp only [forgets]
    rw [hresult, hseen]

end Engine

end Syntagm
