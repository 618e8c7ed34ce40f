import Syntagm.Compiled.Basic
import Syntagm.Parse.Observation
import Syntagm.Parse.Options
import Syntagm.Parse.Stream

/-!
# Running a program

The engine matches operations against a stream of tokens.  Choice is ordered: the first
alternative that matches is taken, and it is not reconsidered.  An alternative whose first set
lacks the token at hand is not tried, unless it can match nothing.

**Left recursion.**  A left-recursive rule matches its base and then grows: as long as one of
its tails of a sufficient level matches some input, what was matched so far becomes the first
child of a longer match (`growFrom`).

**Ending.**  Evaluating an operation leads to its parts, whose numbers are smaller, or to a
rule call.  Calls are bounded by the limit on depth, which `callRule` recurs on.  Loops go on
only after a step that took tokens.

**Memory.**  A call that did not run into the limit on depth is remembered with everything it
depends on, so finding it again gives the same reply as making it.
-/

namespace Syntagm

/-- A match or none, what was seen on the way, and what is remembered after it. -/
structure Reply where
  result : Option Match
  seen : Observation
  memo : Memo
  deriving Inhabited

namespace Reply

/-- A reply that took a look at nothing. -/
def immediate (result : Option Match) (memo : Memo) : Reply := ⟨result, .nothing, memo⟩

/-- The reply with what was seen before. -/
def after (reply : Reply) (seen : Observation) : Reply :=
  { reply with seen := seen.followedBy reply.seen }

/-- The reply with a match in front. -/
def prepend (reply : Reply) (first : Match) : Reply :=
  { reply with result := reply.result.map (first ++ ·) }

/-- The reply with another result. -/
def withResult (reply : Reply) (result : Option Match) : Reply := { reply with result := result }

/-- The reply with its result remembered, unless a call in it went beyond the limit. -/
def remembered (reply : Reply) (memoize : Bool) (key : MemoKey) : Reply :=
  if memoize && reply.seen.overflow.isNone then
    let entry : MemoEntry := ⟨reply.result, reply.seen.failure, reply.seen.lookahead⟩
    { reply with memo := reply.memo.insert key entry }
  else reply

end Reply

/-- Something that can be matched at a position. -/
abbrev Evaluator := (position : Nat) → Memo → Reply

namespace Engine

/-! ### Tokens -/

/-- The kind of the token at a position; past the stream the input ends. -/
def kindAt (tokens : Array StreamToken) (position : Nat) : Kind :=
  ((tokens[position]?).map (·.kind)).getD Kind.endOfInput

/-- The match of a token at a position. -/
def tokenMatch (token : StreamToken) (position : Nat) : Match :=
  ⟨⟨token.leading, token.element.toList⟩, position + 1⟩

/-- Matches a token of a kind. -/
def matchToken (tokens : Array StreamToken) (kind : Kind) : Evaluator := fun position memo =>
  match (tokens[position]?).filter (·.kind = kind) with
  | some token => ⟨some (tokenMatch token position), .looked position, memo⟩
  | none =>
    ⟨none, (Observation.looked position).followedBy (.failed position (KindSet.single kind)), memo⟩

/-! ### Sequences, choices and repetitions -/

variable {limit : Nat}

/-- Matches all parts of a list, one after the other. -/
def matchAll (evaluate : Fin limit → Evaluator) : List (Fin limit) → Evaluator
  | [], position, memo => .immediate (some (.blank position)) memo
  | first :: rest, position, memo =>
    let reply := evaluate first position memo
    match reply.result with
    | none => reply
    | some found =>
      ((matchAll evaluate rest found.stop reply.memo).prepend found).after reply.seen

/-- Whether an operation need not be tried where a token of this kind comes next. -/
def isPruned (analysis : Analysis) (current : Kind) (op : Nat) : Bool :=
  !analysis.isNullable op && !(analysis.firstSet op).contains current

/-- Matches the first part of a list that matches. -/
def matchFirst (analysis : Analysis) (current : Kind) (evaluate : Fin limit → Evaluator) :
    List (Fin limit) → Evaluator
  | [], _, memo => .immediate none memo
  | first :: rest, position, memo =>
    if isPruned analysis current first then
      (matchFirst analysis current evaluate rest position memo).after
        (.failed position (analysis.firstSet first))
    else
      let reply := evaluate first position memo
      match reply.result with
      | some _ => reply
      | none =>
        (matchFirst analysis current evaluate rest position reply.memo).after reply.seen

/-- What a repetition that needs `least` more matches makes of a match of nothing: it counts
only if it is needed. -/
def emptyRound (least position : Nat) (found : Match) : Option Match :=
  match least with
  | 0 => some (.blank position)
  | 1 => some found
  | _ => none

/-- Matches something over and over, at least `least` times, in a stream of `size` tokens.  A
match of nothing ends the repetition. -/
def matchMany (evaluate : Evaluator) (size : Nat) (least : Nat) : Evaluator :=
  fun position memo =>
    let reply := evaluate position memo
    match reply.result with
    | none => reply.withResult (if least = 0 then some (.blank position) else none)
    | some found =>
      if _h : position < found.stop ∧ found.stop ≤ size then
        ((matchMany evaluate size (least - 1) found.stop reply.memo).prepend found).after
          reply.seen
      else reply.withResult (emptyRound least position found)
termination_by position => size - position

/-- Matches something or nothing. -/
def matchOptional (evaluate : Evaluator) : Evaluator := fun position memo =>
  let reply := evaluate position memo
  reply.withResult (some (reply.result.getD (.blank position)))

/-! ### Operations -/

variable (compiled : CompiledGrammar) (tokens : Array StreamToken)

/-- Matches an operation.  `call` matches a rule with a bound. -/
def evaluate (call : (rule : Nat) → (bound : Int) → Evaluator) (op : Nat) : Evaluator :=
  match compiled.program.view op with
  | .token kind => matchToken tokens kind
  | .seq items => matchAll (fun item => evaluate call item) items
  | .choice alternatives => fun position memo =>
    (matchFirst compiled.analysis (kindAt tokens position)
      (fun alternative => evaluate call alternative) alternatives position memo).after
        (.looked position)
  | .repetition least inner => matchMany (evaluate call inner) tokens.size least
  | .optional inner => matchOptional (evaluate call inner)
  | .blank => fun position memo => .immediate (some (.blank position)) memo
  | .call rule bound => call rule bound
termination_by op
decreasing_by
  · exact item.isLt
  · exact alternative.isLt
  · exact inner.isLt
  · exact inner.isLt

/-! ### Rules -/

/-- Matches the first tail of a list that matches some input. -/
def matchTail (evaluate : (op : Nat) → Evaluator) : List Tail → Evaluator
  | [], _, memo => .immediate none memo
  | first :: rest, position, memo =>
    let reply := evaluate first.op position memo
    match reply.result.filter (·.stop ≠ position) with
    | some _ => reply
    | none => (matchTail evaluate rest position reply.memo).after reply.seen

/-- What was matched of a rule, as a part of a longer match: in a node, unless the rule is
hidden. -/
def closed (rule : Rule) (fragment : Fragment) : Fragment :=
  if rule.hidden then fragment else fragment.wrap rule.kind

/-- The match of a rule as a part of a longer match. -/
def closedMatch (rule : Rule) (found : Match) : Match := ⟨closed rule found.fragment, found.stop⟩

/-- The bound that counts for a rule: without tails there is nothing to bound. -/
def effectiveBound (rule : Rule) (bound : Int) : Int :=
  if rule.isLeftRecursive then bound else leastLevel

/-- Makes a match of a rule longer as long as a tail matches, in a stream of `size` tokens. -/
def growFrom (evaluate : (op : Nat) → Evaluator) (rule : Rule) (tails : List Tail) (size : Nat)
    (found : Match) (memo : Memo) : Reply :=
  let reply := matchTail evaluate tails found.stop memo
  match reply.result with
  | none => reply.withResult (some found)
  | some next =>
    if _h : found.stop < next.stop ∧ next.stop ≤ size then
      (growFrom evaluate rule tails size ⟨closed rule found.fragment ++ next.fragment, next.stop⟩
        reply.memo).after reply.seen
    else reply.withResult (some found)
termination_by size - found.stop

/-- Matches the body of a rule, with tails of the level `bound` and above. -/
def matchBody (evaluate : (op : Nat) → Evaluator) (size : Nat) (rule : Rule) (bound : Int) :
    Evaluator := fun position memo =>
  match rule.body with
  | .plain op => evaluate op position memo
  | .leftRecursive base tails =>
    let reply := evaluate base position memo
    match reply.result with
    | none => reply
    | some found =>
      (growFrom evaluate rule (tails.filter (bound ≤ ·.level)) size found reply.memo).after
        reply.seen

/-- Matches a rule; `depth` more calls may be active inside.  `frames` are the positions of
the active calls, the innermost first. -/
def callRule (memoize : Bool) (depth : Nat) (frames : List Nat) (rule : Nat) (bound : Int) :
    Evaluator := fun position memo =>
  match compiled.program.rules[rule]? with
  | none => .immediate none memo
  | some body =>
    let key : MemoKey := ⟨rule, position, effectiveBound body bound⟩
    match memo[key]? with
    | some entry => ⟨entry.result, entry.seen, memo⟩
    | none =>
      match depth with
      | 0 =>
        let halfway := frames.reverse.getD (frames.length / 2) position
        ⟨none, .overflowed ⟨position, halfway⟩, memo⟩
      | depth + 1 =>
        let call := callRule memoize depth (position :: frames)
        let reply := matchBody (evaluate compiled tokens call) tokens.size body key.bound
          position memo
        (reply.withResult (reply.result.map (closedMatch body))).remembered memoize key

end Engine

/-! ### Whole streams -/

/-- What matching a whole stream gave. -/
structure Outcome where
  /-- What the start rule matched, without its node, if that was the whole stream. -/
  fragment : Option Fragment
  failure : Option Failure
  overflow : Option Overflow
  deriving DecidableEq, Repr, Inhabited

namespace Outcome

def isSuccess (outcome : Outcome) : Bool := outcome.fragment.isSome

/-- The position of the farthest failure, and the start of the stream if there is none. -/
def failurePosition (outcome : Outcome) : Nat := (outcome.failure.map (·.position)).getD 0

/-- The kinds of token that were expected where the match failed. -/
def expected (outcome : Outcome) : List Kind :=
  ((outcome.failure.map (·.expected.toList)).getD [])

end Outcome

namespace Engine

/-- What a match of the start rule in front of a stream is for the whole stream: the end of the
input has to follow. -/
def outcomeOf (tokens : Array StreamToken) (result : Option Match) (seen : Observation) :
    Outcome :=
  match result with
  | none => ⟨none, seen.failure, seen.overflow⟩
  | some found =>
    if kindAt tokens found.stop = Kind.endOfInput then
      ⟨some found.fragment, seen.failure, seen.overflow⟩
    else
      let failure := Failure.join seen.failure
        (Failure.of? found.stop (KindSet.single Kind.endOfInput))
      ⟨none, failure, seen.overflow⟩

/-- Matches the body of the start rule, and then the end of the input. -/
def run (compiled : CompiledGrammar) (options : ParserOptions) (tokens : Array StreamToken)
    (memo : Memo) : Outcome × Memo :=
  match compiled.program.rules[compiled.start]? with
  | none => (⟨none, none, none⟩, memo)
  | some start =>
    let call := callRule compiled tokens options.memoize options.maxDepth []
    let reply := matchBody (evaluate compiled tokens call) tokens.size start leastLevel 0 memo
    (outcomeOf tokens reply.result reply.seen, reply.memo)

end Engine

end Syntagm
