import Syntagm.Parse.Engine

/-!
# Getting past errors

A run that fails has a site: the significant token at which its farthest failure lies.  For
each site one repair is looked for, by trying candidates one after the other, each in a run of
its own.  In front of the end of the input these are, in this order (`candidates`):

1. to leave out the token at the site;
2. to put in one token, each expected kind in turn;
3. to leave out everything up to a place where parsing may resume, alone or with one token put
   in there;
4. to leave out the rest of the input.

A candidate is taken if the run then succeeds or fails farther on, so errors come in the order
of the text.  At the end of the input only tokens can be put in; the first that completes the
input is taken, or else the first that leads at least somewhere (`complete?`).

**Depth.**  A run that nests too deep is repaired by leaving out input from halfway down the
calls on, which keeps the error local (`unnest?`).

**Limits.**  Runs spent on candidates are counted.  When the limit on runs or repairs is
reached, or when no candidate is taken, the repairs so far are kept and the rest of the input
is left out (`truncate`).  If not even that gives a tree, the whole text goes into one error
node (`abandon`).

What is remembered from one run is kept for the next one as far as it depends only on the
common beginning of the two streams.

**Words.**  The end of the stretch in which parsing may resume is a sum of words of 64 bits, and the
only one that can leave them, if the window is set that wide.  It is formed modulo the size of the
word here.  A program that checks its sums stops where one is no word; so it is recorded whether
there was one (`RecoveryState.strayed`).
-/

namespace Syntagm

/-- What a parse gives besides its tokens: the tree, the errors, and what is remembered for
the next parse, by significant token. -/
structure Recovered where
  tree : Element
  errors : List Diagnostic
  reuse : List (MemoKey × MemoEntry)
  /-- What the runs of the engine gave, the last one first. -/
  outcomes : List Outcome
  /-- Whether a sum on the way was no word. -/
  strayed : Bool
  deriving Inhabited

/-- The grammar, the options and the tokens of one parse. -/
structure RecoveryScope where
  compiled : CompiledGrammar
  options : ParserOptions
  source : Source

/-- The stream of the last run, what is remembered, and how many runs were counted. -/
structure RecoveryState where
  tokens : Array StreamToken
  memo : Memo
  trials : Nat
  /-- What all runs gave, the last one first. -/
  outcomes : List Outcome
  /-- Whether a sum so far was no word. -/
  strayed : Bool
  deriving Inhabited

/-- The state after a sum, which may be no word. -/
def RecoveryState.straying (state : RecoveryState) (strays : Bool) : RecoveryState :=
  { state with strayed := state.strayed || strays }

/-- A repair that was taken: all repairs with it, what they gave, and how to report it. -/
structure Accepted where
  repairs : List Repair
  outcome : Outcome
  recovery : Recovery

/-- A repair to try: all repairs with it, how to report it, and the significant token that a
failure has to lie behind if the repair is to be taken. -/
structure Candidate where
  repairs : List Repair
  recovery : Recovery
  past : Nat
  /-- Whether a sum that is formed before it is tried is no word. -/
  strays : Bool

namespace RecoveryScope

variable (scope : RecoveryScope)

/-! ### Runs -/

/-- Runs the engine with repairs, keeping what is remembered and still right. -/
def run (repairs : List Repair) (state : RecoveryState) : Outcome × RecoveryState :=
  let tokens := scope.source.stream repairs
  let common := commonLength state.tokens tokens
  let kept := state.memo.filter fun _ entry => entry.lookahead ≤ common
  let (outcome, memo) := Engine.run scope.compiled scope.options tokens kept
  (outcome, { state with tokens := tokens, memo := memo, outcomes := outcome :: state.outcomes })

/-- Runs the engine with repairs, unless the limit on runs is reached. -/
def trial? (repairs : List Repair) (state : RecoveryState) : Option Outcome × RecoveryState :=
  if state.trials < scope.options.maxTrials then
    let (outcome, state) := scope.run repairs { state with trials := state.trials + 1 }
    (some outcome, state)
  else (none, state)

/-- The significant token at a position of the last stream. -/
def siteAt (state : RecoveryState) (position : Nat) : Nat :=
  ((state.tokens[position]?).map (·.site)).getD scope.source.size

/-- Whether the last run succeeded or failed behind a significant token. -/
def isPast (state : RecoveryState) (outcome : Outcome) (token : Nat) : Bool :=
  outcome.isSuccess ||
    (outcome.overflow.isNone && token < scope.siteAt state outcome.failurePosition)

/-! ### Reports -/

/-- A kind in a report. -/
def kindName (kind : Kind) : String :=
  if kind = Kind.endOfInput then "end of input" else scope.compiled.kindName kind

/-- Alternatives in words. -/
def alternatives : List String → String
  | [] => "nothing"
  | [single] => single
  | names => ", ".intercalate names.dropLast ++ " or " ++ names.getLastD ""

/-- What stands at a site, in words. -/
def foundAt (site : Nat) : String :=
  match scope.source.tokens[site]? with
  | some token => "`" ++ String.ofList token.text ++ "`"
  | none => "end of input"

/-- The code for a failure at a site. -/
def failureCode (site : Nat) (recovery : Option Recovery) : DiagnosticCode :=
  let found := scope.source.kind site
  if found = Kind.endOfInput then .unexpectedEnd
  else if found = Kind.unknown then .unrecognized
  else
    match recovery with
    | some (.inserted _) => .missingToken
    | _ => .unexpectedToken

/-- The report of what went wrong at a site. -/
def report (site : Nat) (outcome : Outcome) (recovery : Option Recovery) : Diagnostic :=
  let diagnostic :=
    if outcome.overflow.isSome then Diagnostic.ofCode .tooDeep
    else
      let expected := outcome.expected.map scope.kindName
      let wanted := alternatives expected
      let found := scope.foundAt site
      ((Diagnostic.ofCode (scope.failureCode site recovery)).withMessage
        s!"expected {wanted}, found {found}").withExpected expected
  { diagnostic with range := scope.source.range site, recovery := recovery }

/-! ### Candidates -/

/-- The kinds of token that may be put in after a failed run. -/
def insertable (outcome : Outcome) : List Kind := outcome.expected.filter (!·.isReserved)

/-- Whether a token may still be put in at a site. -/
def canInsert (repairs : List Repair) (site : Nat) : Bool :=
  let here := repairs.countP fun repair =>
    match repair with
    | .insert place _ => place = site
    | .skip .. => false
  here < scope.options.maxInsertions

/-- The first tokens from a site on at which parsing may resume. -/
def syncSites (site : Nat) : List Nat :=
  let sites := (List.range' site (scope.source.size - site)).filter fun index =>
    scope.compiled.sync.contains (scope.source.kind index)
  sites.take scope.options.syncWindow

/-- A list without elements that equal the one in front of them. -/
def withoutRepeats : List Nat → List Nat
  | [] => []
  | [single] => [single]
  | first :: second :: rest =>
    if first = second then withoutRepeats (second :: rest)
    else first :: withoutRepeats (second :: rest)

/-- Whether the end of the window behind a site is no word. -/
def strays (site : Nat) : Bool :=
  scope.compiled.sync.isEmpty && UInt64.size ≤ site + scope.options.syncWindow

/-- Where a stretch that is left out from a site on may end: around the tokens at which
parsing resumes, or, if the grammar names none, after each of the next few tokens; and at the
end of the input. -/
def resumePoints (site : Nat) : List Nat :=
  let size := scope.source.size
  let points :=
    if scope.compiled.sync.isEmpty then
      let last := (site + scope.options.syncWindow) % UInt64.size
      List.range' (site + 1) (min last size - site)
    else
      ((scope.syncSites site).flatMap fun index => [index, index + 1]).filter (site < ·)
  withoutRepeats (points ++ [size])

/-- What to try at a point where parsing may resume after a site. -/
def resumeCandidates (repairs : List Repair) (kinds : List Kind) (site point : Nat) :
    List Candidate :=
  let skip := Repair.skip site point
  let strays := scope.strays site
  let alone : List Candidate :=
    if site + 1 < point then [⟨Repair.add repairs [skip], .synchronized none, point, strays⟩]
    else []
  alone ++ kinds.map fun kind =>
    ⟨Repair.add repairs [skip, .insert point kind],
      .synchronized (some (scope.kindName kind)), point, strays⟩

/-- What to try at a site in front of the end of the input. -/
def candidates (repairs : List Repair) (kinds : List Kind) (site : Nat) : List Candidate :=
  let skip : Candidate :=
    ⟨Repair.add repairs [.skip site (site + 1)], .skipped, site + 1, false⟩
  let insertions : List Candidate :=
    if scope.canInsert repairs site then
      kinds.map fun kind =>
        ⟨Repair.add repairs [.insert site kind], .inserted (scope.kindName kind), site, false⟩
    else []
  let resuming := (scope.resumePoints site).flatMap (scope.resumeCandidates repairs kinds site)
  let rest : Candidate :=
    ⟨Repair.add repairs [.skip site scope.source.size], .synchronized none, site,
      scope.strays site⟩
  skip :: insertions ++ resuming ++ [rest]

/-- Tries candidates in turn, and takes the first that leads past its token. -/
def tryAll? (candidates : List Candidate) (state : RecoveryState) :
    Option Accepted × RecoveryState :=
  match candidates with
  | [] => (none, state)
  | first :: rest =>
    match scope.trial? first.repairs (state.straying first.strays) with
    | (none, state) => (none, state)
    | (some outcome, state) =>
      if scope.isPast state outcome first.past then
        (some ⟨first.repairs, outcome, first.recovery⟩, state)
      else tryAll? rest state

/-! ### The end of the input -/

/-- Tries to put a token of each kind in at the end of the input.  The first that completes
it is taken.  Otherwise the first that moves the failure on is run again and taken;
`fallback` is that one, if it was met already. -/
def complete? (repairs : List Repair) (failed : Outcome) (fallback : Option Kind)
    (kinds : List Kind) (state : RecoveryState) : Option Accepted × RecoveryState :=
  let withKind (kind : Kind) : List Repair := Repair.add repairs [.insert scope.source.size kind]
  let accepted (kind : Kind) (outcome : Outcome) : Accepted :=
    ⟨withKind kind, outcome, .inserted (scope.kindName kind)⟩
  match kinds with
  | [] =>
    match fallback with
    | none => (none, state)
    | some kind =>
      let (outcome, state) := scope.trial? (withKind kind) state
      (outcome.map (accepted kind), state)
  | kind :: rest =>
    match scope.trial? (withKind kind) state with
    | (none, state) => (none, state)
    | (some outcome, state) =>
      if outcome.isSuccess then (some (accepted kind outcome), state)
      else
        let moved := failed.failurePosition < outcome.failurePosition
        let fallback := if fallback.isNone && moved then some kind else fallback
        complete? repairs failed fallback rest state

/-- Looks for a repair at the site of a failed run. -/
def repair? (repairs : List Repair) (failed : Outcome) (site : Nat) (state : RecoveryState) :
    Option Accepted × RecoveryState :=
  let kinds := insertable failed
  if site < scope.source.size then
    scope.tryAll? (scope.candidates repairs kinds site) state
  else if scope.canInsert repairs site then scope.complete? repairs failed none kinds state
  else (none, state)

/-! ### Depth -/

/-- Tries to leave out the input from a site up to each of some points.  The first point that
completes the input is taken, or else the one that gets farthest, which is `best` so far; it
must get behind the token `past` and behind the point. -/
def unnestAt (repairs : List Repair) (site past : Nat) (best : Option (Nat × Nat))
    (points : List Nat) (state : RecoveryState) :
    (Option Accepted × Option (Nat × Nat)) × RecoveryState :=
  match points with
  | [] => ((none, best), state)
  | point :: rest =>
    let attempt := Repair.add repairs [.skip site point]
    match scope.trial? attempt state with
    | (none, state) => ((none, best), state)
    | (some outcome, state) =>
      if outcome.isSuccess then ((some ⟨attempt, outcome, .skipped⟩, best), state)
      else
        let reached := scope.siteAt state outcome.failurePosition
        let farther := best.all fun (_, farthest) => farthest < reached
        let best :=
          if scope.isPast state outcome (max point past) && farther then some (point, reached)
          else best
        unnestAt repairs site past best rest state

/-- Looks for input to leave out after a run that nests too deep. -/
def unnest? (repairs : List Repair) (overflow : Overflow) (site : Nat) (state : RecoveryState) :
    Option Accepted × RecoveryState :=
  let past := max (scope.siteAt state overflow.position) site
  let points := List.range' (site + 1) (scope.source.size - site)
  let ((accepted, best), state) := scope.unnestAt repairs site past none points state
  match accepted, best with
  | some accepted, _ => (some accepted, state)
  | none, some (point, _) =>
    let attempt := Repair.add repairs [.skip site point]
    let (outcome, state) := scope.run attempt state
    (some ⟨attempt, outcome, .skipped⟩, state)
  | none, none => (none, state)

/-! ### The result -/

/-- The tree for what the start rule matched, between the trivia in front of it and behind
it. -/
def finish (fragment : Fragment) (state : RecoveryState) : Element :=
  let trailing := ((state.tokens.back?).map (·.leading)).getD []
  .node scope.compiled.startKind (fragment.leading ++ fragment.elements ++ trailing)

/-- An entry of the memory by significant token, if it depends on no repair. -/
def reusable? (tokens : Array StreamToken) (key : MemoKey) (entry : MemoEntry) :
    Option (MemoKey × MemoEntry) := do
  let position := key.position
  let first ← tokens[position]?
  if (tokens.extract position (max entry.lookahead (position + 1))).any (·.isRepaired) then none
  else
    let indexAt (stop : Nat) : Nat :=
      if position < stop then ((tokens[stop - 1]?).map (·.site + 1)).getD 0 else first.site
    return ({ key with position := first.site }, {
      result := entry.result.map fun found => { found with stop := indexAt found.stop }
      failure := entry.failure.map fun failure =>
        { failure with position := ((tokens[failure.position]?).map (·.site)).getD 0 }
      lookahead := if position < entry.lookahead then indexAt entry.lookahead else 0 })

/-- Whether one key comes before another one: by position, rule and bound. -/
def keyPrecedes (first second : MemoKey) : Bool :=
  first.position < second.position ||
    (first.position == second.position &&
      (first.rule < second.rule ||
        (first.rule == second.rule && first.bound ≤ second.bound)))

/-- What may be used again after an edit. -/
def reuseTable (state : RecoveryState) : List (MemoKey × MemoEntry) :=
  (state.memo.toList.filterMap fun (key, entry) => reusable? state.tokens key entry).mergeSort
    fun first second => keyPrecedes first.1 second.1

/-- The result for a run that succeeded. -/
def succeed (fragment : Fragment) (errors : List Diagnostic) (state : RecoveryState) : Recovered :=
  ⟨scope.finish fragment state, errors, reuseTable state, state.outcomes, state.strayed⟩

/-- Gives up: the whole text goes into one error node.  Only the first error is reported, as
later ones say nothing about this tree. -/
def abandon (errors : List Diagnostic) (current : Option (Nat × Outcome))
    (state : RecoveryState) : Recovered :=
  let error := match errors, current with
    | first :: _, _ => first
    | [], some (site, outcome) => scope.report site outcome none
    | [], none => Diagnostic.ofCode .unparsable
  let tree := Element.node scope.compiled.startKind
    [.node Kind.error scope.source.elements]
  ⟨tree, [error.withRecovery .abandoned], [], state.outcomes, state.strayed⟩

/-! ### Leaving out the rest -/

/-- Tries to put a token of each kind in at the end of the input.  The first that completes
it is the result, or else the first that moves the failure on, which is `best` so far. -/
def insertAtEnd (repairs : List Repair) (failed : Outcome) (best : Option (List Repair))
    (kinds : List Kind) (state : RecoveryState) : Option (List Repair) × RecoveryState :=
  match kinds with
  | [] => (best, state)
  | kind :: rest =>
    let attempt := Repair.add repairs [.insert scope.source.size kind]
    let (outcome, state) := scope.run attempt state
    if outcome.isSuccess then (some attempt, state)
    else
      let moved := failed.failurePosition < outcome.failurePosition
      let best := if best.isNone && moved then some attempt else best
      insertAtEnd repairs failed best rest state

/-- Completes the input by putting tokens in at its end, at most `count` of them. -/
def completeAtEnd (repairs : List Repair) (outcome : Outcome) (state : RecoveryState) :
    (count : Nat) → Outcome × RecoveryState
  | 0 => (outcome, state)
  | count + 1 =>
    let atEnd := scope.source.size ≤ scope.siteAt state outcome.failurePosition
    if outcome.isSuccess || outcome.overflow.isSome || !atEnd then (outcome, state)
    else
      match scope.insertAtEnd repairs outcome none (insertable outcome) state with
      | (none, state) => (outcome, state)
      | (some attempt, state) =>
        let (outcome, state) := scope.run attempt state
        completeAtEnd attempt outcome state count

/-- Keeps the repairs so far and leaves out everything from a site on. -/
def truncate (repairs : List Repair) (errors : List Diagnostic) (site : Nat) (failed : Outcome)
    (state : RecoveryState) : Recovered :=
  let size := scope.source.size
  let repairs := if site < size then Repair.add repairs [.skip site size] else repairs
  let (outcome, state) := scope.run repairs state
  let (outcome, state) :=
    scope.completeAtEnd repairs outcome state scope.options.maxInsertions
  match outcome.fragment with
  | none => scope.abandon errors (some (site, failed)) state
  | some fragment =>
    scope.succeed fragment (errors ++ [scope.report site failed (some .truncated)]) state

/-! ### The search -/

/-- The site of a failed run. -/
def siteOf (outcome : Outcome) (state : RecoveryState) : Nat :=
  match outcome.overflow with
  | some overflow => scope.siteAt state overflow.halfway
  | none => scope.siteAt state outcome.failurePosition

/-- Looks for a repair after a failed run. -/
def find? (repairs : List Repair) (outcome : Outcome) (site : Nat) (state : RecoveryState) :
    Option Accepted × RecoveryState :=
  match outcome.overflow with
  | some overflow => scope.unnest? repairs overflow site state
  | none => scope.repair? repairs outcome site state

/-- Repairs one error after the other, at most `count` of them, until the input is matched. -/
def search (repairs : List Repair) (errors : List Diagnostic) (outcome : Outcome)
    (state : RecoveryState) : (count : Nat) → Recovered
  | 0 =>
    match outcome.fragment with
    | some fragment => scope.succeed fragment errors state
    | none =>
      let site := scope.siteOf outcome state
      if scope.options.maxRepairs = 0 then scope.abandon errors (some (site, outcome)) state
      else scope.truncate repairs errors site outcome state
  | count + 1 =>
    match outcome.fragment with
    | some fragment => scope.succeed fragment errors state
    | none =>
      let site := scope.siteOf outcome state
      match scope.find? repairs outcome site state with
      | (none, state) => scope.truncate repairs errors site outcome state
      | (some accepted, state) =>
        let errors := errors ++ [scope.report site outcome (some accepted.recovery)]
        search accepted.repairs errors accepted.outcome state count

/-- Matches the input, repairing errors.  `seed` is what is remembered of it; it must be right
for the input without repairs. -/
def recover (seed : Memo) : Recovered :=
  let state : RecoveryState := ⟨scope.source.stream [], seed, 0, [], false⟩
  match scope.trial? [] state with
  | (none, state) => scope.abandon [] none state
  | (some outcome, state) => scope.search [] [] outcome state scope.options.maxRepairs

end RecoveryScope

end Syntagm
