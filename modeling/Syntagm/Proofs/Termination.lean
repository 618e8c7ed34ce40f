import Mathlib.Data.Prod.Lex
import Syntagm.Proofs.CallTrees
import Syntagm.Proofs.LeastSolution
import Syntagm.Proofs.Shifting
import Syntagm.Proofs.WellFormed

/-!
# The engine ends

The engine recurs from an operation to its parts, from a call to the body of the rule, and in two
loops, a repetition and the growing of a left-recursive rule, which have no bound of their own.
Here it is given by its call trees (`Engine.activation`): operations and rules are read where their
numbers say, a token is read where its kind was, and a loop goes on whenever a round stopped
elsewhere.  Nothing in a tree sees to it that the recursion ends, and a read outside of an array is
stuck.

**Why it ends.**  Calls descend in the lexicographic order of three numbers
(`Engine.Query.measure`): how many more rule calls may be active, the place of the task among the
operations, and how much of the stream is left.  A rule call takes the first one down.  A part comes
before its operation, and the operations of a rule before its body, which takes down the second.
Only the loops keep both, and they go on where a round stopped.

**What carries it.**  A round stops where it started or farther on inside of the stream, because no
operation matches the end of the input, and what is remembered is like that too (`Memo.Within`).  So
a loop that goes on has less of the stream in front of it, and no token behind the stream is read.
The engine gives the answers for these trees, whence running them returns what it gives
(`Engine.returns_answer`).
-/

namespace Syntagm

/-! ### Programs that can be run -/

/-- **A program that can be run**: parts come before their operation, all numbers are those of
operations and rules, no token has a reserved kind, and the analysis has all operations. -/
structure CompiledGrammar.Runnable (compiled : CompiledGrammar) : Prop where
  parts : ∀ (op : Nat) (what : Op Nat), compiled.program.ops[op]? = some what →
    ∀ part ∈ what.parts, part < op
  calls : ∀ (op rule : Nat) (bound : Int), compiled.program.ops[op]? = some (.call rule bound) →
    rule < compiled.program.rules.size
  bodies : ∀ rule ∈ compiled.program.rules, ∀ op ∈ rule.body.ops, op < compiled.program.ops.size
  tokens : ∀ (op : Nat) (kind : Kind), compiled.program.ops[op]? = some (.token kind) →
    kind.isReserved = false
  nullable_size : compiled.analysis.nullable.size = compiled.program.ops.size
  first_size : compiled.analysis.first.size = compiled.program.ops.size

/-- **What a grammar is compiled to can be run.** -/
theorem Grammar.runnable_compile {grammar : Grammar} {compiled : CompiledGrammar}
    (done : grammar.compile = .ok compiled) : compiled.Runnable := by
  obtain ⟨draft, kinds, drafted, lowered⟩ := lowered_compile done
  have hwf := Program.WellFormed.ofGrammar drafted lowered
  have hsolves := compiled.program.isLeast_analyze.1
  rw [← (analyzed_compile done).1] at hsolves
  refine ⟨hwf.parts, hwf.calls, fun rule hrule op hop => ?_,
    fun op kind found => (hwf.tokens op kind found).1, hsolves.nullable_size, hsolves.first_size⟩
  have hentry := hwf.entries rule hrule
  have htails := hwf.tails rule hrule
  unfold Rule.entry at hentry
  unfold RuleBody.ops at hop
  split at hop
  · rename_i heq
    rw [heq] at hentry
    exact List.mem_singleton.mp hop ▸ hentry
  · rename_i base tails heq
    rw [heq] at hentry
    rcases List.mem_cons.mp hop with rfl | hop
    · exact hentry
    · obtain ⟨tail, htail, rfl⟩ := List.mem_map.mp hop
      exact htails base tails heq tail htail

/-! ### Staying within the stream -/

/-- The match stops where it started, or farther on inside of a stream of `size` tokens. -/
def Match.Within (size position : Nat) (found : Match) : Prop :=
  found.stop = position ∨ position < found.stop ∧ found.stop < size

theorem Match.within_blank (size position : Nat) : (blank position).Within size position := .inl rfl

theorem Match.Within.trans {size position : Nat} {first second : Match}
    (h : first.Within size position) (h' : second.Within size first.stop) :
    second.Within size position := by
  unfold Within at *
  omega

/-- **What is remembered stays within the stream**: a match that is remembered stops where its call
started, or behind that and inside of the stream. -/
def Memo.Within (size : Nat) (memo : Memo) : Prop :=
  ∀ (key : MemoKey) (entry : MemoEntry) (found : Match), memo[key]? = some entry →
    entry.result = some found → found.Within size key.position

theorem Memo.within_empty (size : Nat) : Memo.Within size ∅ := fun key entry _ hentry => by
  rw [Std.HashMap.getElem?_empty] at hentry
  cases hentry

theorem Memo.Within.insert {size : Nat} {memo : Memo} (h : memo.Within size) {key : MemoKey}
    {entry : MemoEntry}
    (stop : ∀ found, entry.result = some found → found.Within size key.position) :
    Memo.Within size (memo.insert key entry) := by
  intro other found result hfound hresult
  rw [Std.HashMap.getElem?_insert] at hfound
  split at hfound
  · rename_i heq
    obtain rfl := eq_of_beq heq
    obtain rfl := Option.some.inj hfound
    exact stop result hresult
  · exact h other found result hfound hresult

/-- The match of a reply, if there is one, and what is remembered stay within the stream. -/
structure Reply.Within (size position : Nat) (reply : Reply) : Prop where
  result : ∀ found, reply.result = some found → found.Within size position
  memo : reply.memo.Within size

namespace Reply.Within

variable {size position : Nat} {reply : Reply} {found : Match}

theorem blank {memo : Memo} (h : memo.Within size) :
    (Reply.immediate (some (.blank position)) memo).Within size position := by
  refine ⟨fun found hfound => ?_, h⟩
  obtain rfl := Option.some.inj hfound
  exact Match.within_blank ..

theorem of_none (none : reply.result = none) (h : reply.memo.Within size) :
    reply.Within size position := by
  refine ⟨fun found hfound => ?_, h⟩
  rw [none] at hfound
  cases hfound

theorem after (h : reply.Within size position) (seen : Observation) :
    (reply.after seen).Within size position :=
  ⟨h.result, h.memo⟩

theorem withResult (h : reply.Within size position) {result : Option Match}
    (within : ∀ found, result = some found → found.Within size position) :
    (reply.withResult result).Within size position :=
  ⟨within, h.memo⟩

/-- A reply from where a match stopped is one from where the match started. -/
theorem from_start (h : reply.Within size found.stop) (first : found.Within size position) :
    reply.Within size position :=
  ⟨fun _ hresult => first.trans (h.result _ hresult), h.memo⟩

theorem prepend (h : reply.Within size position) (first : Match) :
    (reply.prepend first).Within size position := by
  refine ⟨fun whole hwhole => ?_, h.memo⟩
  obtain ⟨second, hsecond, rfl⟩ := Option.map_eq_some_iff.mp hwhole
  exact h.result second hsecond

/-- The match of a rule stops where the match of its body stops. -/
theorem closed (h : reply.Within size position) (rule : Rule) :
    (reply.withResult (reply.result.map (Engine.closedMatch rule))).Within size position := by
  refine h.withResult fun whole hwhole => ?_
  obtain ⟨part, hpart, rfl⟩ := Option.map_eq_some_iff.mp hwhole
  exact h.result part hpart

theorem remembered (key : MemoKey) (h : reply.Within size key.position) (memoize : Bool) :
    (reply.remembered memoize key).Within size key.position := by
  unfold Reply.remembered
  split
  · exact ⟨h.result, h.memo.insert h.result⟩
  · exact h

end Reply.Within

namespace Engine

/-! ### The engine as call trees -/

/-- What the engine can be called for. -/
inductive Task where
  | op (number : Nat)
  /-- An operation over and over, at least `least` times. -/
  | many (least inner : Nat)
  /-- A rule of which `fragment` is matched and which tails may make longer. -/
  | grow (rule : Rule) (tails : List Tail) (fragment : Fragment)
  | body (rule : Nat) (bound : Int)
  | call (rule : Nat) (bound : Int)

/-- A call of the engine. -/
structure Query where
  task : Task
  position : Nat
  memo : Memo
  /-- The positions of the active rule calls, the innermost first. -/
  frames : List Nat

section Trees
variable (frames : List Nat)

/-- Matches all parts of a list, one after the other. -/
def treeOfAll : List Nat → Nat → Memo → CallTree Query Reply
  | [], position, memo => .done (.immediate (some (.blank position)) memo)
  | first :: rest, position, memo =>
    .call ⟨.op first, position, memo, frames⟩ fun reply =>
      match reply.result with
      | none => .done reply
      | some found => (treeOfAll rest found.stop reply.memo).bind fun others =>
          .done ((others.prepend found).after reply.seen)

/-- Matches the first part of a list that matches. -/
def treeOfFirst (analysis : Analysis) (current : Kind) :
    List Nat → Nat → Memo → CallTree Query Reply
  | [], _, memo => .done (.immediate none memo)
  | first :: rest, position, memo =>
    match analysis.nullable[first]?, analysis.first[first]? with
    | some nullable, some firstSet =>
      if !nullable && !firstSet.contains current then
        (treeOfFirst analysis current rest position memo).bind fun others =>
          .done (others.after (.failed position firstSet))
      else
        .call ⟨.op first, position, memo, frames⟩ fun reply =>
          match reply.result with
          | some _ => .done reply
          | none => (treeOfFirst analysis current rest position reply.memo).bind fun others =>
              .done (others.after reply.seen)
    | _, _ => .stuck

/-- Matches the first tail of a list that matches some input. -/
def treeOfTail : List Tail → Nat → Memo → CallTree Query Reply
  | [], _, memo => .done (.immediate none memo)
  | first :: rest, position, memo =>
    .call ⟨.op first.op, position, memo, frames⟩ fun reply =>
      match reply.result.filter (·.stop ≠ position) with
      | some _ => .done reply
      | none => (treeOfTail rest position reply.memo).bind fun others =>
          .done (others.after reply.seen)

/-- Matches an operation, which was read. -/
def treeOfOp (analysis : Analysis) (tokens : Array StreamToken) (position : Nat) (memo : Memo) :
    Op Nat → CallTree Query Reply
  | .token kind =>
    if kindAt tokens position = kind then
      match tokens[position]? with
      | some token => .done ⟨some (tokenMatch token position), .looked position, memo⟩
      | none => .stuck
    else
      let seen := (Observation.looked position).followedBy
        (.failed position (KindSet.single kind))
      .done ⟨none, seen, memo⟩
  | .seq items => treeOfAll frames items position memo
  | .choice alternatives =>
    (treeOfFirst frames analysis (kindAt tokens position) alternatives position memo).bind
      fun reply => .done (reply.after (.looked position))
  | .repetition least inner => .call ⟨.many least inner, position, memo, frames⟩ .done
  | .optional inner =>
    .call ⟨.op inner, position, memo, frames⟩ fun reply =>
      .done (reply.withResult (some (reply.result.getD (.blank position))))
  | .blank => .done (.immediate (some (.blank position)) memo)
  | .call rule bound => .call ⟨.call rule bound, position, memo, frames⟩ .done

end Trees

variable (compiled : CompiledGrammar) (options : ParserOptions) (tokens : Array StreamToken)

/-- **One activation of the engine**, with the calls that it makes left open. -/
def activation : Query → CallTree Query Reply
  | ⟨.op op, position, memo, frames⟩ =>
    match compiled.program.ops[op]? with
    | some what => treeOfOp frames compiled.analysis tokens position memo what
    | none => .stuck
  | ⟨.many least inner, position, memo, frames⟩ =>
    .call ⟨.op inner, position, memo, frames⟩ fun reply =>
      match reply.result with
      | none => .done (reply.withResult (if least = 0 then some (.blank position) else none))
      | some found =>
        if found.stop = position then .done (reply.withResult (emptyRound least position found))
        else .call ⟨.many (least - 1) inner, found.stop, reply.memo, frames⟩ fun others =>
          .done ((others.prepend found).after reply.seen)
  | ⟨.grow rule tails fragment, position, memo, frames⟩ =>
    (treeOfTail frames tails position memo).bind fun reply =>
      match reply.result with
      | none => .done (reply.withResult (some ⟨fragment, position⟩))
      | some next =>
        .call ⟨.grow rule tails (closed rule fragment ++ next.fragment), next.stop, reply.memo,
          frames⟩ fun others => .done (others.after reply.seen)
  | ⟨.body rule bound, position, memo, frames⟩ =>
    match compiled.program.rules[rule]? with
    | none => .stuck
    | some found =>
      match found.body with
      | .plain op => .call ⟨.op op, position, memo, frames⟩ .done
      | .leftRecursive base tails =>
        .call ⟨.op base, position, memo, frames⟩ fun reply =>
          match reply.result with
          | none => .done reply
          | some first =>
            .call ⟨.grow found (tails.filter (bound ≤ ·.level)) first.fragment, first.stop,
              reply.memo, frames⟩ fun others => .done (others.after reply.seen)
  | ⟨.call rule bound, position, memo, frames⟩ =>
    match compiled.program.rules[rule]? with
    | none => .stuck
    | some found =>
      let key : MemoKey := ⟨rule, position, effectiveBound found bound⟩
      match memo[key]? with
      | some entry => .done ⟨entry.result, entry.seen, memo⟩
      | none =>
        if options.maxDepth ≤ frames.length then
          let halfway := frames.reverse.getD (frames.length / 2) position
          .done ⟨none, .overflowed ⟨position, halfway⟩, memo⟩
        else
          .call ⟨.body rule key.bound, position, memo, position :: frames⟩ fun reply =>
            .done ((reply.withResult (reply.result.map (closedMatch found))).remembered
              options.memoize key)

/-! ### What the engine answers -/

/-- All numbers in the task are those of operations and rules. -/
def Task.InRange (program : Program) : Task → Prop
  | .op number | .many _ number => number < program.ops.size
  | .grow _ tails _ => ∀ tail ∈ tails, tail.op < program.ops.size
  | .body rule _ | .call rule _ => rule < program.rules.size

/-- The place of a task among the operations: a repetition stands between its part and itself, and
rules stand behind all operations.  A call comes first, since what it leads to counts for the calls
that may still be active. -/
def Task.rank (program : Program) : Task → Nat
  | .call _ _ => 0
  | .op number => 2 * number + 2
  | .many _ inner => 2 * inner + 3
  | .grow _ _ _ => 2 * program.ops.size + 2
  | .body _ _ => 2 * program.ops.size + 3

theorem Task.rank_op_le {program : Program} {number : Nat} (inRange : number < program.ops.size) :
    (Task.op number).rank program ≤ 2 * program.ops.size := by
  simp only [rank]
  omega

/-- How the engine matches operations and rules inside of the given active calls. -/
def callInside (frames : List Nat) : Nat → Int → Evaluator :=
  callRule compiled tokens options.memoize (options.maxDepth - frames.length) frames

namespace Query

/-- What the engine gives for a query. -/
def answer (query : Query) : Reply :=
  let evaluator := evaluate compiled tokens (callInside compiled options tokens query.frames)
  match query.task with
  | .op op => evaluator op query.position query.memo
  | .many least inner => matchMany (evaluator inner) tokens.size least query.position query.memo
  | .grow rule tails fragment =>
    growFrom evaluator rule tails tokens.size ⟨fragment, query.position⟩ query.memo
  | .body rule bound =>
    match compiled.program.rules[rule]? with
    | none => .immediate none query.memo
    | some found => matchBody evaluator tokens.size found bound query.position query.memo
  | .call rule bound =>
    callInside compiled options tokens query.frames rule bound query.position query.memo

/-- **The measure of a query**: how many more rule calls may be active, the place of the task, and
how much of the stream is left. -/
def measure (query : Query) : Nat ×ₗ Nat ×ₗ Nat :=
  toLex (options.maxDepth - query.frames.length,
    toLex (query.task.rank compiled.program, tokens.size - query.position))

/-- The numbers in the query are in range, and what is remembered stays within the stream. -/
structure Healthy (query : Query) : Prop where
  inRange : query.task.InRange compiled.program
  memo : query.memo.Within tokens.size

variable {compiled options tokens} {query other : Query}

theorem measure_lt_of_rank (frames : other.frames = query.frames)
    (less : other.task.rank compiled.program < query.task.rank compiled.program) :
    other.measure compiled options tokens < query.measure compiled options tokens := by
  rw [measure, measure, frames, Prod.Lex.toLex_lt_toLex]
  exact .inr ⟨rfl, Prod.Lex.toLex_lt_toLex.mpr (.inl less)⟩

theorem measure_lt_of_position (frames : other.frames = query.frames)
    (same : other.task.rank compiled.program = query.task.rank compiled.program)
    (moved : query.position < other.position ∧ other.position < tokens.size) :
    other.measure compiled options tokens < query.measure compiled options tokens := by
  rw [measure, measure, frames, same, Prod.Lex.toLex_lt_toLex]
  refine .inr ⟨rfl, Prod.Lex.toLex_lt_toLex.mpr (.inr ⟨rfl, ?_⟩)⟩
  simp only
  omega

theorem measure_lt_of_frames (more : query.frames.length < other.frames.length)
    (room : query.frames.length < options.maxDepth) :
    other.measure compiled options tokens < query.measure compiled options tokens := by
  rw [measure, measure, Prod.Lex.toLex_lt_toLex]
  refine .inl ?_
  simp only
  omega

end Query

/-! ### Trees are answered -/

section Settling
variable {may : Query → Prop} {answers : Query → Reply} {size position : Nat} {memo : Memo}
  {frames : List Nat} {reply : Reply}

/-- A tree that is run from a position is done with a reply that stays within the stream, if its
calls are answered. -/
structure Settles (may : Query → Prop) (answers : Query → Reply) (size position : Nat)
    (tree : CallTree Query Reply) (reply : Reply) : Prop where
  answered : tree.Answered may answers reply
  within : reply.Within size position

/-- A task may be called from everywhere, is answered by the evaluator, and its answers stay within
the stream. -/
def Serves (may : Query → Prop) (answers : Query → Reply) (size : Nat) (frames : List Nat)
    (task : Task) (evaluator : Evaluator) : Prop :=
  ∀ position memo, memo.Within size → may ⟨task, position, memo, frames⟩ ∧
    answers ⟨task, position, memo, frames⟩ = evaluator position memo ∧
      (evaluator position memo).Within size position

namespace Settles

theorem done (h : reply.Within size position) :
    Settles may answers size position (.done reply) reply :=
  ⟨.done, h⟩

theorem call {start : Nat} {task : Task} {evaluator : Evaluator}
    {rest : Reply → CallTree Query Reply}
    (serves : Serves may answers size frames task evaluator) (within : memo.Within size)
    (outer : (evaluator start memo).Within size start →
      Settles may answers size position (rest (evaluator start memo)) reply) :
    Settles may answers size position (.call ⟨task, start, memo, frames⟩ rest) reply := by
  obtain ⟨hmay, hanswer, hwithin⟩ := serves start memo within
  obtain ⟨hanswered, hreply⟩ := outer hwithin
  exact ⟨.call hmay (hanswer ▸ hanswered), hreply⟩

end Settles

theorem settles_all {limit : Nat} {evaluate : Fin limit → Evaluator} (items : List (Fin limit))
    (serves : ∀ item ∈ items, Serves may answers size frames (.op item) (evaluate item))
    (position : Nat) (memo : Memo) (within : memo.Within size) :
    Settles may answers size position (treeOfAll frames (items.map (·.val)) position memo)
      (matchAll evaluate items position memo) := by
  induction items generalizing position memo with
  | nil => exact .done (.blank within)
  | cons item items ih =>
    obtain ⟨hitem, hitems⟩ := List.forall_mem_cons.mp serves
    simp only [List.map_cons, treeOfAll, matchAll]
    refine .call hitem within fun hreply => ?_
    cases hresult : (evaluate item position memo).result with
    | none => exact .done hreply
    | some found =>
      have hrest := ih hitems found.stop _ hreply.memo
      exact ⟨hrest.answered.bind .done,
        ((hrest.within.from_start (hreply.result found hresult)).prepend found).after _⟩

theorem settles_first {analysis : Analysis} {limit : Nat} {evaluate : Fin limit → Evaluator}
    (current : Kind) (items : List (Fin limit))
    (known : ∀ item ∈ items, item.val < analysis.nullable.size ∧ item.val < analysis.first.size)
    (serves : ∀ item ∈ items, Serves may answers size frames (.op item) (evaluate item))
    (position : Nat) (memo : Memo) (within : memo.Within size) :
    Settles may answers size position
      (treeOfFirst frames analysis current (items.map (·.val)) position memo)
      (matchFirst analysis current evaluate items position memo) := by
  induction items generalizing memo with
  | nil => exact .done (.of_none rfl within)
  | cons item items ih =>
    obtain ⟨hitem, hitems⟩ := List.forall_mem_cons.mp serves
    obtain ⟨⟨hnullable, hfirst⟩, hknown⟩ := List.forall_mem_cons.mp known
    have ih := ih hknown hitems
    have hnullable : analysis.nullable[item.val]? = some (analysis.isNullable item) := by
      simp [Analysis.isNullable, hnullable]
    have hfirst : analysis.first[item.val]? = some (analysis.firstSet item) := by
      simp [Analysis.firstSet, hfirst]
    have hsame : (!analysis.isNullable item && !(analysis.firstSet item).contains current) =
      isPruned analysis current item := rfl
    simp only [List.map_cons, treeOfFirst, hnullable, hfirst, matchFirst, hsame]
    split
    · have hrest := ih memo within
      exact ⟨hrest.answered.bind .done, hrest.within.after _⟩
    · refine .call hitem within fun hreply => ?_
      cases hresult : (evaluate item position memo).result with
      | some found => exact .done hreply
      | none =>
        have hrest := ih _ hreply.memo
        exact ⟨hrest.answered.bind .done, hrest.within.after _⟩

theorem settles_tail {evaluate : Nat → Evaluator} (tails : List Tail)
    (serves : ∀ tail ∈ tails, Serves may answers size frames (.op tail.op) (evaluate tail.op))
    (position : Nat) (memo : Memo) (within : memo.Within size) :
    Settles may answers size position (treeOfTail frames tails position memo)
      (matchTail evaluate tails position memo) := by
  induction tails generalizing memo with
  | nil => exact .done (.of_none rfl within)
  | cons tail tails ih =>
    obtain ⟨htail, htails⟩ := List.forall_mem_cons.mp serves
    simp only [treeOfTail, matchTail]
    refine .call htail within fun hreply => ?_
    cases hresult : (evaluate tail.op position memo).result.filter (·.stop ≠ position) with
    | some found => exact .done hreply
    | none =>
      have hrest := ih htails _ hreply.memo
      exact ⟨hrest.answered.bind .done, hrest.within.after _⟩

end Settling

/-! ### One activation -/

section Steps

/-- What a query may call: healthy queries that are smaller. -/
def May (query other : Query) : Prop :=
  other.Healthy compiled tokens ∧
    other.measure compiled options tokens < query.measure compiled options tokens

/-- What a query may call is answered within the stream. -/
def Descends (query : Query) : Prop :=
  ∀ other, May compiled options tokens query other →
    (other.answer compiled options tokens).Within tokens.size other.position

/-- The activation for a query is done with its answer, if it may call what it calls. -/
def Settled (query : Query) : Prop :=
  Settles (May compiled options tokens query) (Query.answer compiled options tokens) tokens.size
    query.position (activation compiled options tokens query)
    (query.answer compiled options tokens)

variable {compiled options tokens} {position : Nat} {memo : Memo} {frames : List Nat}

section Serving
variable {outer : Task} (ih : Descends compiled options tokens ⟨outer, position, memo, frames⟩)
include ih

/-- A task of a smaller place may be called. -/
theorem Descends.serves (task : Task) (evaluator : Evaluator)
    (inRange : task.InRange compiled.program)
    (less : task.rank compiled.program < outer.rank compiled.program)
    (is : ∀ start memo, Query.answer compiled options tokens ⟨task, start, memo, frames⟩ =
      evaluator start memo) :
    Serves (May compiled options tokens ⟨outer, position, memo, frames⟩)
      (Query.answer compiled options tokens) tokens.size frames task evaluator := by
  intro start memo' within
  have hmay : May compiled options tokens ⟨outer, position, memo, frames⟩
      ⟨task, start, memo', frames⟩ :=
    ⟨⟨inRange, within⟩, Query.measure_lt_of_rank rfl less⟩
  exact ⟨hmay, is start memo', is start memo' ▸ ih _ hmay⟩

theorem Descends.serves_op {op : Nat} (inRange : op < compiled.program.ops.size)
    (less : (Task.op op).rank compiled.program < outer.rank compiled.program) :
    Serves (May compiled options tokens ⟨outer, position, memo, frames⟩)
      (Query.answer compiled options tokens) tokens.size frames (.op op)
      (evaluate compiled tokens (callInside compiled options tokens frames) op) :=
  ih.serves (.op op) _ inRange less fun _ _ => rfl

end Serving

theorem within_emptyRound {size least : Nat} {found round : Match}
    (first : found.Within size position) (result : emptyRound least position found = some round) :
    round.Within size position := by
  match least with
  | 0 => exact Option.some.inj result ▸ Match.within_blank ..
  | 1 => exact Option.some.inj result ▸ first
  | _ + 2 => cases result

theorem settled_many {least inner : Nat}
    (healthy : Query.Healthy compiled tokens ⟨.many least inner, position, memo, frames⟩)
    (ih : Descends compiled options tokens ⟨.many least inner, position, memo, frames⟩) :
    Settled compiled options tokens ⟨.many least inner, position, memo, frames⟩ := by
  have hinner := ih.serves_op healthy.inRange (Nat.lt_succ_self _)
  simp only [Settled, activation, Query.answer]
  rw [matchMany]
  refine .call hinner healthy.memo fun hround => ?_
  cases hresult : (evaluate compiled tokens (callInside compiled options tokens frames) inner
      position memo).result with
  | none =>
    refine .done (hround.withResult fun found hfound => ?_)
    split at hfound
    · exact Option.some.inj hfound ▸ Match.within_blank ..
    · cases hfound
  | some found =>
    have hfound := hround.result found hresult
    simp only
    split
    · rename_i hstop
      rw [dif_neg fun h => absurd hstop (Nat.ne_of_gt h.1)]
      exact .done (hround.withResult fun _ => within_emptyRound hfound)
    · rename_i hstop
      have hmoved := hfound.resolve_left hstop
      rw [dif_pos ⟨hmoved.1, Nat.le_of_lt hmoved.2⟩]
      -- the next round has less of the stream in front of it
      have hmay : May compiled options tokens ⟨.many least inner, position, memo, frames⟩
          ⟨.many (least - 1) inner, found.stop, _, frames⟩ :=
        ⟨⟨healthy.inRange, hround.memo⟩, Query.measure_lt_of_position rfl rfl hmoved⟩
      exact ⟨.call hmay .done, (((ih _ hmay).from_start hfound).prepend found).after _⟩

theorem stop_ne_of_matchTail {evaluate : Nat → Evaluator} {tails : List Tail} {found : Match}
    (result : (matchTail evaluate tails position memo).result = some found) :
    found.stop ≠ position := by
  induction tails generalizing memo with
  | nil => cases result
  | cons tail tails ih =>
    simp only [matchTail] at result
    split at result
    · rename_i hfound
      obtain ⟨hresult, hmoved⟩ := Option.filter_eq_some_iff.mp hfound
      obtain rfl := Option.some.inj (hresult.symm.trans result)
      exact of_decide_eq_true hmoved
    · exact ih result

theorem settled_grow {rule : Rule} {tails : List Tail} {fragment : Fragment}
    (healthy : Query.Healthy compiled tokens ⟨.grow rule tails fragment, position, memo, frames⟩)
    (ih : Descends compiled options tokens ⟨.grow rule tails fragment, position, memo, frames⟩) :
    Settled compiled options tokens ⟨.grow rule tails fragment, position, memo, frames⟩ := by
  have htail := settles_tail tails (fun tail htail => ih.serves_op (healthy.inRange tail htail)
    (Nat.lt_add_right 1 (Nat.lt_succ_of_le (Task.rank_op_le (healthy.inRange tail htail)))))
    position memo healthy.memo
  simp only [Settled, activation, Query.answer]
  rw [growFrom]
  simp only
  cases hresult : (matchTail (evaluate compiled tokens (callInside compiled options tokens frames))
      tails position memo).result with
  | none =>
    refine ⟨htail.answered.bind ?_, htail.within.withResult fun _ h => .inl ?_⟩
    · rw [hresult]
      exact .done
    · exact (Option.some.inj h) ▸ rfl
  | some next =>
    have hnext := htail.within.result next hresult
    have hmoved := hnext.resolve_left (stop_ne_of_matchTail hresult)
    simp only
    rw [dif_pos ⟨hmoved.1, Nat.le_of_lt hmoved.2⟩]
    have hmay : May compiled options tokens ⟨.grow rule tails fragment, position, memo, frames⟩
        ⟨.grow rule tails (closed rule fragment ++ next.fragment), next.stop, _, frames⟩ :=
      ⟨⟨healthy.inRange, htail.within.memo⟩, Query.measure_lt_of_position rfl rfl hmoved⟩
    refine ⟨htail.answered.bind ?_, ((ih _ hmay).from_start hnext).after _⟩
    rw [hresult]
    exact .call hmay .done

theorem settled_body (runnable : compiled.Runnable) {rule : Nat} {bound : Int}
    (healthy : Query.Healthy compiled tokens ⟨.body rule bound, position, memo, frames⟩)
    (ih : Descends compiled options tokens ⟨.body rule bound, position, memo, frames⟩) :
    Settled compiled options tokens ⟨.body rule bound, position, memo, frames⟩ := by
  obtain ⟨found, hrule⟩ : ∃ found, compiled.program.rules[rule]? = some found :=
    ⟨_, Array.getElem?_eq_getElem healthy.inRange⟩
  have hops := runnable.bodies found (Array.mem_of_getElem? hrule)
  have hop {op : Nat} (mem : op ∈ found.body.ops) := ih.serves_op (hops op mem)
    (Nat.lt_add_right 2 (Nat.lt_succ_of_le (Task.rank_op_le (hops op mem))))
  simp only [Settled, activation, Query.answer, hrule, matchBody]
  cases hbody : found.body with
  | plain op =>
    exact .call (hop (by simp [hbody, RuleBody.ops])) healthy.memo fun hreply => .done hreply
  | leftRecursive base tails =>
    simp only
    refine .call (hop (by simp [hbody, RuleBody.ops])) healthy.memo fun hreply => ?_
    cases hresult : (evaluate compiled tokens (callInside compiled options tokens frames) base
        position memo).result with
    | none => exact .done hreply
    | some first =>
      have htails : ∀ tail ∈ tails.filter (bound ≤ ·.level),
          tail.op < compiled.program.ops.size := fun tail htail =>
        hops tail.op (by
          rw [hbody]
          exact List.mem_cons_of_mem _ (List.mem_map_of_mem (List.mem_of_mem_filter htail)))
      have hgrow := ih.serves (.grow found (tails.filter (bound ≤ ·.level)) first.fragment)
        _ htails (Nat.lt_succ_self _) fun _ _ => rfl
      exact .call hgrow hreply.memo fun hothers =>
        .done ((hothers.from_start (hreply.result first hresult)).after _)

theorem settled_call {rule : Nat} {bound : Int}
    (healthy : Query.Healthy compiled tokens ⟨.call rule bound, position, memo, frames⟩)
    (ih : Descends compiled options tokens ⟨.call rule bound, position, memo, frames⟩) :
    Settled compiled options tokens ⟨.call rule bound, position, memo, frames⟩ := by
  obtain ⟨found, hrule⟩ : ∃ found, compiled.program.rules[rule]? = some found :=
    ⟨_, Array.getElem?_eq_getElem healthy.inRange⟩
  simp only [Settled, activation, Query.answer, callInside, hrule]
  rw [callRule, hrule]
  simp only
  cases hentry : memo[(⟨rule, position, effectiveBound found bound⟩ : MemoKey)]? with
  | some entry => exact .done ⟨fun _ => healthy.memo _ entry _ hentry, healthy.memo⟩
  | none =>
    simp only
    by_cases full : options.maxDepth ≤ frames.length
    · rw [if_pos full, Nat.sub_eq_zero_of_le full]
      exact .done (.of_none rfl healthy.memo)
    · have hroom := Nat.lt_of_not_le full
      obtain ⟨depth, hdepth⟩ : ∃ depth, options.maxDepth - frames.length = depth + 1 :=
        ⟨options.maxDepth - frames.length - 1, by omega⟩
      rw [if_neg full, hdepth]
      -- the body of the rule may make one call less
      have hmay : May compiled options tokens ⟨.call rule bound, position, memo, frames⟩
          ⟨.body rule (effectiveBound found bound), position, memo, position :: frames⟩ :=
        ⟨⟨healthy.inRange, healthy.memo⟩,
          Query.measure_lt_of_frames (Nat.lt_succ_self _) hroom⟩
      have hinside : callInside compiled options tokens (position :: frames) =
          callRule compiled tokens options.memoize depth (position :: frames) := by
        rw [callInside, List.length_cons, Nat.sub_succ, hdepth, Nat.pred_succ]
      have hanswer : Query.answer compiled options tokens
          ⟨.body rule (effectiveBound found bound), position, memo, position :: frames⟩ =
            matchBody (evaluate compiled tokens
              (callRule compiled tokens options.memoize depth (position :: frames)))
              tokens.size found (effectiveBound found bound) position memo := by
        simp only [Query.answer, hrule, hinside]
      have hbody := ih _ hmay
      rw [hanswer] at hbody
      exact ⟨.call hmay (hanswer ▸ .done), Reply.Within.remembered
        ⟨rule, position, effectiveBound found bound⟩ (hbody.closed found) options.memoize⟩

theorem settles_token (ended : Ended tokens) {may : Query → Prop} {answers : Query → Reply}
    {analysis : Analysis} {kind : Kind} (other : kind ≠ Kind.endOfInput)
    (within : memo.Within tokens.size) :
    Settles may answers tokens.size position
      (treeOfOp frames analysis tokens position memo (.token kind))
      (matchToken tokens kind position memo) := by
  simp only [treeOfOp, matchToken]
  cases htoken : tokens[position]? with
  | none =>
    have hkind : kindAt tokens position = Kind.endOfInput := by
      rw [kindAt, htoken]
      rfl
    rw [if_neg (hkind ▸ other.symm)]
    exact .done (.of_none rfl within)
  | some token =>
    have hkind : kindAt tokens position = token.kind := by
      rw [kindAt, htoken]
      rfl
    rw [hkind]
    by_cases hsame : token.kind = kind
    · have hmoved := ended.succ_lt htoken (hsame ▸ other)
      simp only [hsame, if_true, Option.filter_some, decide_true]
      refine .done ⟨fun found hfound => ?_, within⟩
      obtain rfl := Option.some.inj hfound
      exact .inr ⟨Nat.lt_succ_self _, hmoved⟩
    · simp only [hsame, if_false, Option.filter_some, decide_false, Bool.false_eq_true]
      exact .done (.of_none rfl within)

theorem settled_op (runnable : compiled.Runnable) (ended : Ended tokens) {op : Nat}
    (healthy : Query.Healthy compiled tokens ⟨.op op, position, memo, frames⟩)
    (ih : Descends compiled options tokens ⟨.op op, position, memo, frames⟩) :
    Settled compiled options tokens ⟨.op op, position, memo, frames⟩ := by
  have hop : op < compiled.program.ops.size := healthy.inRange
  obtain ⟨what, hwhat⟩ : ∃ what, compiled.program.ops[op]? = some what :=
    ⟨_, Array.getElem?_eq_getElem hop⟩
  have hparts := runnable.parts op what hwhat
  obtain rfl := Program.withoutLimit_view hwhat hparts
  have hpart (part : Fin op) := ih.serves_op (Nat.lt_trans part.isLt hop)
    (Nat.add_lt_add_right (Nat.mul_lt_mul_of_pos_left part.isLt Nat.two_pos) 2)
  simp only [Settled, activation, Query.answer, hwhat]
  rw [evaluate]
  cases hview : compiled.program.view op with
  | token kind =>
    rw [hview] at hwhat
    refine settles_token ended (fun heq => ?_) healthy.memo
    have hreserved := runnable.tokens op kind hwhat
    rw [heq] at hreserved
    cases hreserved
  | seq items => exact settles_all items (fun item _ => hpart item) position memo healthy.memo
  | choice alternatives =>
    have hknown (item : Fin op) : item.val < compiled.analysis.nullable.size ∧
        item.val < compiled.analysis.first.size := by
      rw [runnable.nullable_size, runnable.first_size, and_self]
      exact Nat.lt_trans item.isLt hop
    have hfirst := settles_first (kindAt tokens position) alternatives (fun item _ => hknown item)
      (fun item _ => hpart item) position memo healthy.memo
    exact ⟨hfirst.answered.bind .done, hfirst.within.after _⟩
  | repetition least inner =>
    have hmany := ih.serves (.many least inner) _ (Nat.lt_trans inner.isLt hop)
      (by simp only [Task.rank]; omega) fun _ _ => rfl
    exact .call hmany healthy.memo fun hreply => .done hreply
  | optional inner =>
    refine .call (hpart inner) healthy.memo fun hreply =>
      .done (hreply.withResult fun found hfound => ?_)
    cases hresult : (evaluate compiled tokens (callInside compiled options tokens frames) inner
        position memo).result with
    | none =>
      rw [hresult] at hfound
      exact Option.some.inj hfound ▸ Match.within_blank ..
    | some part =>
      rw [hresult] at hfound
      exact Option.some.inj hfound ▸ hreply.result part hresult
  | blank => exact .done (.blank healthy.memo)
  | call rule bound =>
    rw [hview] at hwhat
    have hcall := ih.serves (.call rule bound) _ (runnable.calls op rule bound hwhat)
      (Nat.succ_pos _) fun _ _ => rfl
    exact .call hcall healthy.memo fun hreply => .done hreply

/-- **One activation is done with the answer** for its query, if what it may call is answered. -/
theorem settled (runnable : compiled.Runnable) (ended : Ended tokens) (query : Query)
    (healthy : query.Healthy compiled tokens) (ih : Descends compiled options tokens query) :
    Settled compiled options tokens query := by
  obtain ⟨task, position, memo, frames⟩ := query
  cases task with
  | op => exact settled_op runnable ended healthy ih
  | many => exact settled_many healthy ih
  | grow => exact settled_grow healthy ih
  | body => exact settled_body runnable healthy ih
  | call => exact settled_call healthy ih

end Steps

/-! ### Whole runs -/

/-- Running the engine for the first query calls it for the second one. -/
def Invokes (caller callee : Query) : Prop :=
  CallTree.Calls (activation compiled options tokens) (activation compiled options tokens caller)
    callee

variable {compiled options tokens}

/-- What a healthy query returns, and what it calls. -/
theorem returns_of_healthy (runnable : compiled.Runnable) (ended : Ended tokens) {query : Query}
    (healthy : query.Healthy compiled tokens) :
    CallTree.Returns (activation compiled options tokens) (activation compiled options tokens query)
        (query.answer compiled options tokens) ∧
      (query.answer compiled options tokens).Within tokens.size query.position ∧
        ∀ callee, Invokes compiled options tokens query callee →
          May compiled options tokens query callee :=
  CallTree.returns_of_descends (Query.measure compiled options tokens)
    (Query.Healthy compiled tokens) (fun query reply => reply.Within tokens.size query.position)
    (fun query healthy ih =>
      have hsettled := settled runnable ended query healthy fun other hmay => ih other hmay.1 hmay.2
      ⟨hsettled.answered, hsettled.within⟩)
    healthy

/-- **The engine ends.**  A program can be run, left-recursive or not, a stream ends with the end of
the input, and what is remembered stays within it.  Whatever the options are, and whatever calls are
active, running the engine for an operation, a loop, the body of a rule or a call

* returns what the engine gives and nothing else, so it ends without a read outside of an array,
* with a match, if there is one, that stops at its position or behind it and, if it starts inside of
  the stream, inside of it, and with a memory that stays within the stream again;
* and every call on the way, however deep, has a smaller measure than its caller. -/
theorem returns_answer (runnable : compiled.Runnable) (ended : Ended tokens) (query : Query)
    (inRange : query.task.InRange compiled.program) (memo : query.memo.Within tokens.size) :
    let body := activation compiled options tokens
    let reply := query.answer compiled options tokens
    CallTree.Returns body (body query) reply ∧
      (∀ other, CallTree.Returns body (body query) other → other = reply) ∧
      (∀ found, reply.result = some found → query.position ≤ found.stop ∧
        (query.position < tokens.size → found.stop < tokens.size)) ∧
      reply.memo.Within tokens.size ∧
      ∀ caller callee, Relation.ReflTransGen (Invokes compiled options tokens) query caller →
        Invokes compiled options tokens caller callee →
          callee.measure compiled options tokens < caller.measure compiled options tokens := by
  intro body reply
  have hstart : query.Healthy compiled tokens := ⟨inRange, memo⟩
  obtain ⟨hreturns, hwithin, -⟩ := @returns_of_healthy compiled options tokens runnable ended query
    hstart
  refine ⟨hreturns, fun other hother => hother.unique hreturns, fun found hfound => ?_,
    hwithin.memo, fun caller callee reaches invokes => ?_⟩
  · have hstop := hwithin.result found hfound
    unfold Match.Within at hstop
    omega
  · -- along the calls, queries stay healthy
    have hhealthy : caller.Healthy compiled tokens := by
      clear invokes
      induction reaches with
      | refl => exact hstart
      | tail _ step ih => exact ((returns_of_healthy runnable ended ih).2.2 _ step).1
    exact ((returns_of_healthy runnable ended hhealthy).2.2 callee invokes).2

/-- A sum, which a left-recursive rule matches, where its first term is remembered. -/
theorem returns_answer_sum :
    let tokens := CompiledGrammar.sum.streamOf ['x', '+', 'x']
    let memo : Memo := (∅ : Memo).insert ⟨1, 0, leastLevel⟩ ⟨some ⟨.blank, 1⟩, none, 1⟩
    let query : Query := ⟨.body 0 leastLevel, 0, memo, []⟩
    let body := activation .sum .standard tokens
    CompiledGrammar.sum.Runnable ∧ Ended tokens ∧
      query.task.InRange CompiledGrammar.sum.program ∧ query.memo.Within tokens.size ∧
      CallTree.Returns body (body query) (query.answer .sum .standard tokens) := by
  intro tokens memo query body
  have hrunnable := Grammar.runnable_compile Grammar.compile_sum
  have hended : Ended tokens := by
    refine Option.map_eq_some_iff.mp (?_ : tokens.back?.map (·.kind) = some Kind.endOfInput)
    with_unfolding_all decide
  have hrange : query.task.InRange CompiledGrammar.sum.program := by
    show 0 < CompiledGrammar.sum.program.rules.size
    with_unfolding_all decide
  have hsize : 1 < tokens.size := by with_unfolding_all decide
  have hmemo : query.memo.Within tokens.size := (Memo.within_empty _).insert fun found hfound => by
    obtain rfl := Option.some.inj hfound
    exact .inr ⟨Nat.one_pos, hsize⟩
  exact ⟨hrunnable, hended, hrange, hmemo,
    (returns_answer hrunnable hended query hrange hmemo).1⟩

end Engine

end Syntagm
