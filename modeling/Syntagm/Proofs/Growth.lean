import Syntagm.Proofs.Unlimited

/-!
# How a match of a left-recursive rule grows

A match of a left-recursive rule is a match of its base that tails made longer, one after the
other.  The engine keeps the match and forgets which tails they were.  Here they are listed:
`Engine.growthsFrom` goes the way of `Engine.growFrom` and writes down each tail that is applied,
and the match is the base with these tails applied in order (`Engine.result_growFrom`).

**One list.**  Without a cut the list is a matter of the rule, the bound and the position alone, as
the match itself is (`Grown.unique`).  So a match that is remembered has such a list, too, which is
the one of the evaluation that it was remembered for.
-/

namespace Syntagm

/-! ### Matches without a cut -/

/-- The goal matches at a position, and no call on the way went too deep. -/
def Goal.Matches (compiled : CompiledGrammar) (tokens : Array StreamToken) (goal : Goal)
    (position : Nat) (found : Match) : Prop :=
  ∃ seen, Evaluates compiled tokens goal position (some found) seen ∧ seen.overflow = none

/-- The goal does not match at a position, and no call on the way went too deep. -/
def Goal.Fails (compiled : CompiledGrammar) (tokens : Array StreamToken) (goal : Goal)
    (position : Nat) : Prop :=
  ∃ seen, Evaluates compiled tokens goal position none seen ∧ seen.overflow = none

variable {compiled : CompiledGrammar} {tokens : Array StreamToken}

namespace Goal

variable {goal : Goal} {position : Nat} {found other : Match}

theorem Matches.unique (h : goal.Matches compiled tokens position found)
    (h' : goal.Matches compiled tokens position other) : found = other := by
  obtain ⟨_, heval, huncut⟩ := h
  obtain ⟨_, heval', huncut'⟩ := h'
  exact Option.some.inj (heval.unique heval' huncut huncut').1

theorem Matches.not_fails (h : goal.Matches compiled tokens position found) :
    ¬ goal.Fails compiled tokens position := by
  rintro ⟨_, heval', huncut'⟩
  obtain ⟨_, heval, huncut⟩ := h
  cases (heval.unique heval' huncut huncut').1

end Goal

/-! ### The tails that are applied -/

/-- A tail that made a match longer: where it started, and what it matched. -/
structure Growth where
  tail : Tail
  start : Nat
  found : Match
  deriving DecidableEq, Repr

namespace Engine

/-- A match of a rule with a tail applied: it becomes the first child of a longer match. -/
def grownBy (rule : Rule) (found : Match) (growth : Growth) : Match :=
  ⟨closed rule found.fragment ++ growth.found.fragment, growth.found.stop⟩

/-- The tail that `matchTail` takes, and what it matches. -/
def takenTail? (evaluate : (op : Nat) → Evaluator) : List Tail → Nat → Memo → Option (Tail × Match)
  | [], _, _ => none
  | first :: rest, position, memo =>
    let reply := evaluate first.op position memo
    match reply.result.filter (·.stop ≠ position) with
    | some found => some (first, found)
    | none => takenTail? evaluate rest position reply.memo

/-- The tails that `growFrom` applies, in order. -/
def growthsFrom (evaluate : (op : Nat) → Evaluator) (tails : List Tail) (size position : Nat)
    (memo : Memo) : List Growth :=
  match takenTail? evaluate tails position memo with
  | none => []
  | some (tail, next) =>
    if _h : position < next.stop ∧ next.stop ≤ size then
      ⟨tail, position, next⟩ ::
        growthsFrom evaluate tails size next.stop (matchTail evaluate tails position memo).memo
    else []
termination_by size - position

/-- The tails that `matchBody` applies, in order. -/
def growths (evaluate : (op : Nat) → Evaluator) (size : Nat) (rule : Rule) (bound : Int)
    (position : Nat) (memo : Memo) : List Growth :=
  match rule.body with
  | .plain _ => []
  | .leftRecursive base tails =>
    let reply := evaluate base position memo
    match reply.result with
    | none => []
    | some found =>
      growthsFrom evaluate (tails.filter (bound ≤ ·.level)) size found.stop reply.memo

variable {evaluate : (op : Nat) → Evaluator}

theorem result_matchTail (tails : List Tail) (position : Nat) (memo : Memo) :
    (matchTail evaluate tails position memo).result =
      (takenTail? evaluate tails position memo).map (·.2) := by
  induction tails generalizing memo with
  | nil => rfl
  | cons first rest ih =>
    simp only [matchTail, takenTail?]
    cases hmoved : (evaluate first.op position memo).result.filter (·.stop ≠ position) with
    | none => exact ih _
    | some found => exact (Option.filter_eq_some_iff.mp hmoved).1

theorem exists_takenTail? {tails : List Tail} {position : Nat} {memo : Memo} {next : Match}
    (h : (matchTail evaluate tails position memo).result = some next) :
    ∃ tail, takenTail? evaluate tails position memo = some (tail, next) := by
  rw [result_matchTail] at h
  obtain ⟨⟨tail, _⟩, htaken, rfl⟩ := Option.map_eq_some_iff.mp h
  exact ⟨tail, htaken⟩

/-- **What grows is the match with the tails applied** in order. -/
theorem result_growFrom (rule : Rule) (tails : List Tail) (size : Nat) (found : Match)
    (memo : Memo) : (growFrom evaluate rule tails size found memo).result =
      some ((growthsFrom evaluate tails size found.stop memo).foldl (grownBy rule) found) := by
  induction found, memo using growFrom.induct evaluate rule tails size with
  | case1 found memo reply hnone =>
    simp only [reply] at hnone
    rw [growFrom, growthsFrom]
    rw [result_matchTail, Option.map_eq_none_iff] at hnone
    simp only [result_matchTail, hnone]
    rfl
  | case2 found memo reply next hnext hmoved ih =>
    simp only [reply] at hnext
    rw [growFrom, growthsFrom]
    simp only [hnext, dif_pos hmoved]
    obtain ⟨tail, htaken⟩ := exists_takenTail? hnext
    simp only [htaken, dif_pos hmoved]
    exact ih
  | case3 found memo reply next hnext hstill =>
    simp only [reply] at hnext
    rw [growFrom, growthsFrom]
    simp only [hnext, dif_neg hstill]
    obtain ⟨tail, htaken⟩ := exists_takenTail? hnext
    simp only [htaken, dif_neg hstill]
    rfl

end Engine

/-! ### The tails that an evaluation applies -/

/-- **The first tail that matches some input**, and what it matches. -/
inductive Takes (compiled : CompiledGrammar) (tokens : Array StreamToken) :
    List Tail → Nat → Tail → Match → Prop where
  | here {tail tails position found}
      (head : (Goal.op tail.op).Matches compiled tokens position found)
      (moved : found.stop ≠ position) : Takes compiled tokens (tail :: tails) position tail found
  | later {first tails position tried seen tail found}
      (head : Evaluates compiled tokens (.op first.op) position tried seen)
      (uncut : seen.overflow = none) (still : tried.filter (·.stop ≠ position) = none)
      (rest : Takes compiled tokens tails position tail found) :
      Takes compiled tokens (first :: tails) position tail found

/-- **What growing applies** from a position on, until no tail matches some input. -/
inductive Grows (compiled : CompiledGrammar) (tokens : Array StreamToken) (tails : List Tail) :
    Nat → List Growth → Prop where
  | done {position} (none : (Goal.tail tails).Fails compiled tokens position) :
      Grows compiled tokens tails position []
  | more {position tail next growths}
      (takes : Takes compiled tokens tails position tail next)
      (others : Grows compiled tokens tails next.stop growths) :
      Grows compiled tokens tails position (⟨tail, position, next⟩ :: growths)

/-- **How a match of a left-recursive rule grew**: the match of the base, and the tails. -/
structure Grown (compiled : CompiledGrammar) (tokens : Array StreamToken) (base : Nat)
    (tails : List Tail) (bound : Int) (position : Nat) (first : Match) (growths : List Growth) :
    Prop where
  entry : (Goal.op base).Matches compiled tokens position first
  grows : Grows compiled tokens (tails.filter (bound ≤ ·.level)) first.stop growths

section Growing
variable {tails : List Tail} {position : Nat} {tail other : Tail} {found next : Match}
  {growths others : List Growth}

/-- What is not taken of a tail that matches is a match without input. -/
theorem stop_eq_of_still (still : (some found).filter (·.stop ≠ position) = none) :
    found.stop = position := by
  by_contra hmoved
  rw [Option.filter_some, if_pos (decide_eq_true hmoved)] at still
  cases still

namespace Takes

theorem spec (h : Takes compiled tokens tails position tail found) :
    tail ∈ tails ∧ (Goal.op tail.op).Matches compiled tokens position found ∧
      found.stop ≠ position := by
  induction h with
  | here head moved => exact ⟨List.mem_cons_self, head, moved⟩
  | later _ _ _ _ ih => exact ⟨List.mem_cons_of_mem _ ih.1, ih.2⟩

theorem matches_tail (h : Takes compiled tokens tails position tail found) :
    (Goal.tail tails).Matches compiled tokens position found := by
  induction h with
  | here head moved =>
    obtain ⟨seen, heval, huncut⟩ := head
    exact ⟨seen, .tailFound heval moved, huncut⟩
  | later head uncut still _ ih =>
    obtain ⟨after, heval, huncut⟩ := ih
    exact ⟨_, .tailNext head still heval,
      (Observation.followedBy_overflow_eq_none ..).mpr ⟨uncut, huncut⟩⟩

theorem unique (h : Takes compiled tokens tails position tail found)
    (h' : Takes compiled tokens tails position other next) : tail = other ∧ found = next := by
  refine ⟨?_, h.matches_tail.unique h'.matches_tail⟩
  -- both try the tails in order, and what one of them matches is the same for both
  induction h with
  | here head moved =>
    cases h' with
    | here => rfl
    | later head' uncut still =>
      obtain ⟨_, heval, huncut⟩ := head
      obtain ⟨rfl, -⟩ := heval.unique head' huncut uncut
      exact absurd (stop_eq_of_still still) moved
  | later head uncut still _ ih =>
    cases h' with
    | here head' moved =>
      obtain ⟨_, heval, huncut⟩ := head'
      obtain ⟨rfl, -⟩ := heval.unique head huncut uncut
      exact absurd (stop_eq_of_still still) moved
    | later _ _ _ rest => exact ih rest

end Takes

/-- Where no tail matches some input, none of them does. -/
theorem stop_eq_of_fails (h : (Goal.tail tails).Fails compiled tokens position)
    (hmem : tail ∈ tails) (matched : (Goal.op tail.op).Matches compiled tokens position found) :
    found.stop = position := by
  obtain ⟨seen, heval, huncut⟩ := h
  induction tails generalizing seen with
  | nil => cases hmem
  | cons first rest ih =>
    cases heval with
    | tailNext head still others =>
      obtain ⟨hhead, hothers⟩ := (Observation.followedBy_overflow_eq_none ..).mp huncut
      rcases List.mem_cons.mp hmem with rfl | hmem
      · obtain ⟨_, heval, huncut'⟩ := matched
        obtain ⟨rfl, -⟩ := heval.unique head huncut' hhead
        exact stop_eq_of_still still
      · exact ih hmem _ others hothers

namespace Grows

theorem unique (h : Grows compiled tokens tails position growths)
    (h' : Grows compiled tokens tails position others) : growths = others := by
  induction h generalizing others with
  | done none =>
    cases h' with
    | done => rfl
    | more takes => exact absurd none takes.matches_tail.not_fails
  | more takes _ ih =>
    cases h' with
    | done none => exact absurd none takes.matches_tail.not_fails
    | more takes' others' =>
      obtain ⟨rfl, rfl⟩ := takes.unique takes'
      rw [ih others']

/-- Each tail that is applied, and what is applied behind it. -/
theorem split {front back : List Growth} {growth : Growth}
    (h : Grows compiled tokens tails position (front ++ growth :: back)) :
    Takes compiled tokens tails growth.start growth.tail growth.found ∧
      Grows compiled tokens tails growth.found.stop back := by
  induction front generalizing position with
  | nil =>
    cases h with
    | more takes others => exact ⟨takes, others⟩
  | cons first front ih =>
    cases h with
    | more _ others => exact ih others

/-- At the end no tail matches some input. -/
theorem fails_end (h : Grows compiled tokens tails found.stop growths) (rule : Rule) :
    (Goal.tail tails).Fails compiled tokens (growths.foldl (Engine.grownBy rule) found).stop := by
  generalize hstop : found.stop = position at h
  induction h generalizing found with
  | done none => exact hstop ▸ none
  | more _ _ ih => exact ih rfl

end Grows

namespace Grown

variable {base : Nat} {bound : Int} {first : Match}

/-- There is one way to grow. -/
theorem unique (h : Grown compiled tokens base tails bound position first growths)
    (h' : Grown compiled tokens base tails bound position next others) :
    first = next ∧ growths = others := by
  obtain rfl := h.entry.unique h'.entry
  exact ⟨rfl, h.grows.unique h'.grows⟩

/-- **Only tails of the level of the bound and above are applied.** -/
theorem le_level (h : Grown compiled tokens base tails bound position first growths) :
    ∀ growth ∈ growths, growth.tail ∈ tails ∧ bound ≤ growth.tail.level := by
  intro growth hmem
  obtain ⟨front, back, rfl⟩ := List.append_of_mem hmem
  obtain ⟨htail, hlevel⟩ := List.mem_filter.mp h.grows.split.1.spec.1
  exact ⟨htail, of_decide_eq_true hlevel⟩

end Grown

end Growing

/-! ### The engine -/

namespace Engine

section Sound
variable {evaluate : (op : Nat) → Evaluator} {memo : Memo}
  (hev : ∀ op, Sound compiled tokens (.op op) (evaluate op))
include hev

theorem takes_takenTail? {tails : List Tail} {position : Nat} {tail : Tail} {found : Match}
    (valid : memo.Valid compiled tokens)
    (taken : takenTail? evaluate tails position memo = some (tail, found))
    (uncut : (matchTail evaluate tails position memo).seen.overflow = none) :
    Takes compiled tokens tails position tail found := by
  induction tails generalizing memo with
  | nil => cases taken
  | cons first rest ih =>
    obtain ⟨hhead, hvalid⟩ := hev first.op position memo valid
    simp only [takenTail?] at taken
    simp only [matchTail] at uncut
    split at taken
    · rename_i hfound
      obtain ⟨rfl, rfl⟩ := Prod.mk.inj (Option.some.inj taken)
      simp only [hfound] at uncut
      obtain ⟨hresult, hmoved⟩ := Option.filter_eq_some_iff.mp hfound
      exact .here ⟨_, hresult ▸ hhead, uncut⟩ (of_decide_eq_true hmoved)
    · rename_i hstill
      simp only [hstill] at uncut
      obtain ⟨huncut, huncut'⟩ := (Observation.followedBy_overflow_eq_none ..).mp uncut
      exact .later hhead huncut hstill (ih hvalid taken huncut')

/-- **The engine applies what growing applies.** -/
theorem grows_growFrom (rule : Rule) (tails : List Tail) (found : Match)
    (valid : memo.Valid compiled tokens)
    (uncut : (growFrom evaluate rule tails tokens.size found memo).seen.overflow = none) :
    Grows compiled tokens tails found.stop
      (growthsFrom evaluate tails tokens.size found.stop memo) := by
  induction found, memo using growFrom.induct evaluate rule tails tokens.size with
  | case1 found memo reply hnone =>
    obtain ⟨htail, -⟩ := sound_matchTail hev tails found.stop memo valid
    simp only [reply] at hnone
    rw [growFrom] at uncut
    rw [growthsFrom]
    simp only [hnone] at htail uncut
    rw [result_matchTail, Option.map_eq_none_iff] at hnone
    simp only [hnone]
    exact .done ⟨_, htail, uncut⟩
  | case2 found memo reply next hnext hmoved ih =>
    obtain ⟨htail, hvalid⟩ := sound_matchTail hev tails found.stop memo valid
    simp only [reply] at hnext
    rw [growFrom] at uncut
    rw [growthsFrom]
    simp only [hnext, dif_pos hmoved] at uncut
    obtain ⟨huncut, huncut'⟩ := (Observation.followedBy_overflow_eq_none ..).mp uncut
    obtain ⟨tail, htaken⟩ := exists_takenTail? hnext
    simp only [htaken, dif_pos hmoved]
    exact .more (takes_takenTail? hev valid htaken huncut) (ih hvalid huncut')
  | case3 found memo reply next hnext hstill =>
    obtain ⟨htail, -⟩ := sound_matchTail hev tails found.stop memo valid
    simp only [reply] at hnext
    rw [hnext] at htail
    -- a tail moves on and ends in the stream
    have hlt := lt_stop_of_tail htail
    exact absurd ⟨hlt, (htail.confined.read next rfl hlt).2⟩ hstill

variable {rule : Rule} {base : Nat} {tails : List Tail} {bound : Int} {position : Nat}
  {found : Match}

/-- **How the engine makes a match of a left-recursive rule grow.** -/
theorem grown_matchBody (body : rule.body = .leftRecursive base tails)
    (valid : memo.Valid compiled tokens)
    (success : (matchBody evaluate tokens.size rule bound position memo).result = some found)
    (uncut : (matchBody evaluate tokens.size rule bound position memo).seen.overflow = none) :
    ∃ first, Grown compiled tokens base tails bound position first
        (growths evaluate tokens.size rule bound position memo) ∧
      found =
        (growths evaluate tokens.size rule bound position memo).foldl (grownBy rule) first := by
  obtain ⟨hentry, hvalid⟩ := hev base position memo valid
  simp only [matchBody, body] at success uncut
  simp only [growths, body]
  split at success
  · rename_i hnone
    rw [hnone] at success
    cases success
  · rename_i first hfirst
    simp only [hfirst] at uncut ⊢
    obtain ⟨huncut, huncut'⟩ := (Observation.followedBy_overflow_eq_none ..).mp uncut
    refine ⟨first, ⟨⟨_, hfirst ▸ hentry, huncut⟩, grows_growFrom hev rule _ first hvalid huncut'⟩,
      ?_⟩
    exact Option.some.inj (success.symm.trans (result_growFrom ..))

end Sound

end Engine

/-- **Every match of a left-recursive rule grew**, in one way. -/
theorem Goal.Matches.exists_grown {rule : Rule} {bound : Int} {position : Nat} {found : Match}
    {base : Nat} {tails : List Tail}
    (h : (Goal.body rule bound).Matches compiled tokens position found)
    (body : rule.body = .leftRecursive base tails) :
    ∃ first growths, Grown compiled tokens base tails bound position first growths ∧
      found = growths.foldl (Engine.grownBy rule) first := by
  obtain ⟨seen, heval, huncut⟩ := h
  -- the engine that remembers nothing gives this match, if calls may nest deep enough
  obtain ⟨enough, hunlimited⟩ := heval.unlimited huncut
  have hreply := hunlimited enough (Nat.le_refl _) []
  simp only [Goal.evaluator] at hreply
  obtain ⟨first, hgrown, hfound⟩ := Engine.grown_matchBody
    (Engine.sound_evaluate fun rule bound => Engine.sound_callRule false enough [] rule bound)
    body Memo.valid_empty (congrArg Reply.result hreply)
    ((congrArg (·.seen.overflow) hreply).trans huncut)
  exact ⟨first, _, hgrown, hfound⟩

end Syntagm
