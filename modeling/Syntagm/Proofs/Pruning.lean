import Syntagm.Proofs.Analysis
import Syntagm.Proofs.Comparison

/-!
# Pruning changes no match

A choice does not try an alternative that cannot match nothing and whose first set lacks the token
at hand.  This is right if the analysis is: an operation that matches nothing is nullable
(`Evaluates.nullable`), and one that takes a token takes one of its first set first
(`Evaluates.begins`).  Then an alternative that is pruned would not have matched anyway, and a
choice without pruning takes the same alternative (`Evaluates.pruned`).

**Bases that match nothing.**  A rule stands for the operation its matches start with.  For a
left-recursive rule that is the base, and if the base matches nothing, what is taken first is taken
by a tail, which the first set of the base knows nothing about.  So first sets are right only if
every base takes input (`Program.BasesConsume`), and a grammar need not be like that to be compiled
(`Grammar.emptyBase`).

No analysis is needed to say what a choice does without pruning: it is what it does with one by
which every operation is nullable (`CompiledGrammar.unpruned`).
-/

namespace Syntagm

/-- Every base of a left-recursive rule takes input. -/
def Program.BasesConsume (program : Program) (analysis : Analysis) : Prop :=
  ∀ rule ∈ program.rules, rule.isLeftRecursive = true → analysis.isNullable rule.entry = false

instance (program : Program) (analysis : Analysis) : Decidable (program.BasesConsume analysis) :=
  inferInstanceAs (Decidable (∀ rule ∈ program.rules, _))

/-! ### What goals can begin with -/

namespace Goal

variable (program : Program) (analysis : Analysis)

/-- Whether a goal can match nothing, by the analysis.  Tails that match nothing do not count. -/
def Nullable : Goal → Prop
  | .op number => analysis.isNullable number = true
  | .all items => ∀ item ∈ items, analysis.isNullable item = true
  | .first _ alternatives => ∃ alternative ∈ alternatives, analysis.isNullable alternative = true
  | .many least inner => least = 0 ∨ analysis.isNullable inner = true
  | .tail _ => False
  | .grow .. => True
  | .body rule _ => analysis.isNullable rule.entry = true
  | .call number _ => program.isRuleNullable analysis number = true

/-- Whether a match of a goal can begin with a token of a kind, by the analysis. -/
def Begins (kind : Kind) : Goal → Prop
  | .op number => (analysis.firstSet number).contains kind = true
  | .all items =>
    (Program.firstOfItems analysis.nullable analysis.first (items.map (·.val))).contains kind = true
  | .first _ alternatives =>
    ∃ alternative ∈ alternatives, (analysis.firstSet alternative).contains kind = true
  | .many _ inner => (analysis.firstSet inner).contains kind = true
  | .tail tails | .grow _ tails _ =>
    ∃ tail ∈ tails, (analysis.firstSet tail.op).contains kind = true
  | .body rule _ => (analysis.firstSet rule.entry).contains kind = true
  | .call number _ => (program.ruleFirstSet analysis number).contains kind = true

/-- If the goal is the body of a left-recursive rule, the base takes input. -/
def Consumes : Goal → Prop
  | .body rule _ => rule.isLeftRecursive = true → analysis.isNullable rule.entry = false
  | _ => True

end Goal

section Beginnings
variable {compiled : CompiledGrammar} {analysis : Analysis} {tokens : Array StreamToken}
  {goal : Goal} {position : Nat} {result : Option Match} {seen : Observation} {found : Match}

theorem Program.entry?_of_lookup {program : Program} {number : Nat} {rule : Rule}
    (lookup : program.rules[number]? = some rule) : program.entry? number = some rule.entry := by
  unfold entry?
  rw [lookup]
  rfl

theorem RuleBody.plain_entry {rule : Rule} {op : Nat} (body : rule.body = .plain op) :
    rule.entry = op := by
  rw [Rule.entry, body]

theorem RuleBody.leftRecursive_entry {rule : Rule} {base : Nat} {tails : List Tail}
    (body : rule.body = .leftRecursive base tails) : rule.entry = base := by
  rw [Rule.entry, body]

/-- **What matches nothing is nullable.** -/
theorem Evaluates.nullable (closed : compiled.program.Closed analysis)
    (h : Evaluates compiled tokens goal position result seen) :
    ∀ found, result = some found → found.stop = position →
      goal.Nullable compiled.program analysis := by
  induction h with
  | token =>
    rintro _ ⟨⟩ still
    exact absurd still (Nat.succ_ne_self _)
  | otherToken | allFail | firstNil | tailNil | noBase | noRule | tooDeep =>
    intro _ hfound
    cases hfound
  | @seq _ _ items _ _ view _ ih =>
    intro found hfound still
    refine closed.nullable_view ?_
    rw [view]
    simpa [Op.withoutLimit, Program.nullableGiven, Goal.Nullable, Analysis.isNullable] using
      ih found hfound still
  | choice view _ ih =>
    intro found hfound still
    refine closed.nullable_view ?_
    rw [view]
    simpa [Op.withoutLimit, Program.nullableGiven, Goal.Nullable, Analysis.isNullable] using
      ih found hfound still
  | repetition view _ ih =>
    intro found hfound still
    refine closed.nullable_view ?_
    rw [view]
    simpa [Op.withoutLimit, Program.nullableGiven, Goal.Nullable, Analysis.isNullable] using
      ih found hfound still
  | optional view _ _ =>
    intro _ _ _
    refine closed.nullable_view ?_
    rw [view]
    rfl
  | blank view =>
    intro _ _ _
    refine closed.nullable_view ?_
    rw [view]
    rfl
  | callOp view _ ih =>
    intro found hfound still
    refine closed.nullable_view ?_
    rw [view]
    exact ih found hfound still
  | allNil =>
    intro _ _ _ item hitem
    cases hitem
  | allCons head rest ihHead ihRest =>
    intro whole hwhole still
    obtain ⟨part, hpart, hstop⟩ := Match.stops_of_prepend whole hwhole
    have hhead := head.confined.le_stop _ rfl
    have hrest := rest.confined.le_stop part hpart
    exact List.forall_mem_cons.mpr ⟨ihHead _ rfl (by omega), ihRest part hpart (by omega)⟩
  | firstPruned _ _ ih =>
    intro found hfound still
    exact (ih found hfound still).imp fun _ => And.imp_left (List.mem_cons_of_mem _)
  | firstFound _ _ ih => exact fun found hfound still =>
      ⟨_, List.mem_cons_self, ih found hfound still⟩
  | firstNext _ _ _ _ ih =>
    intro found hfound still
    exact (ih found hfound still).imp fun _ => And.imp_left (List.mem_cons_of_mem _)
  | manyEnd =>
    intro found hfound _
    split at hfound
    · exact .inl ‹_›
    · cases hfound
  | @manyEmpty least _ position found _ _ _ ih =>
    intro whole hwhole still
    rcases least with _ | _ | least
    · exact .inl rfl
    · exact .inr (ih whole hwhole still)
    · cases hwhole
  | manyMore _ moved rest =>
    intro whole hwhole still
    obtain ⟨part, hpart, hstop⟩ := Match.stops_of_prepend whole hwhole
    have hrest := rest.confined.le_stop part hpart
    omega
  | tailFound _ moved =>
    rintro _ ⟨⟩ still
    exact moved still
  | tailNext _ _ _ _ ih => exact ih
  | growEnd | growMore => exact fun _ _ _ => trivial
  | plain body _ ih =>
    intro found hfound still
    rw [Goal.Nullable, RuleBody.plain_entry body]
    exact ih found hfound still
  | base body entry rest ih _ =>
    intro whole hwhole still
    have hentry := entry.confined.le_stop _ rfl
    have hrest := rest.confined.le_stop whole hwhole
    rw [Goal.Nullable, RuleBody.leftRecursive_entry body]
    exact ih _ rfl (by omega)
  | call lookup _ ih =>
    intro whole hwhole still
    obtain ⟨part, hpart, rfl⟩ := Option.map_eq_some_iff.mp hwhole
    rw [Goal.Nullable, Program.isRuleNullable, Program.entry?_of_lookup lookup]
    exact ih part hpart still

/-- **What takes a token begins with one of its first set**, if bases take input. -/
theorem Evaluates.begins (closed : compiled.program.Closed analysis)
    (consuming : compiled.program.BasesConsume analysis)
    (h : Evaluates compiled tokens goal position result seen) (own : goal.Consumes analysis) :
    ∀ found, result = some found → position < found.stop →
      goal.Begins compiled.program analysis (Engine.kindAt tokens position) := by
  induction h with
  | @token _ position kind token view hlookup =>
    intro _ _ _
    obtain ⟨htoken, hkind⟩ := Option.filter_eq_some_iff.mp hlookup
    refine closed.first_view ?_
    rw [view]
    simpa [Op.withoutLimit, Program.firstGiven, Engine.kindAt, htoken] using hkind
  | otherToken | allFail | firstNil | tailNil | noBase | noRule | tooDeep =>
    intro _ hfound
    cases hfound
  | seq view _ ih =>
    intro found hfound moved
    refine closed.first_view ?_
    rw [view]
    exact ih trivial found hfound moved
  | choice view _ ih =>
    intro found hfound moved
    refine closed.first_view ?_
    rw [view]
    simpa [Op.withoutLimit, Program.firstGiven, KindSet.contains_foldl_union, Goal.Begins,
      Analysis.firstSet] using ih trivial found hfound moved
  | repetition view _ ih =>
    intro found hfound moved
    refine closed.first_view ?_
    rw [view]
    exact ih trivial found hfound moved
  | @optional _ position _ result _ view _ ih =>
    intro found hfound moved
    refine closed.first_view ?_
    rw [view]
    cases result with
    | none =>
      obtain rfl := Option.some.inj hfound
      exact absurd moved (Nat.lt_irrefl _)
    | some part => exact ih trivial found hfound moved
  | blank | allNil =>
    rintro _ ⟨⟩ moved
    exact absurd moved (Nat.lt_irrefl _)
  | callOp view _ ih =>
    intro found hfound moved
    refine closed.first_view ?_
    rw [view]
    exact ih trivial found hfound moved
  | @allCons _ item items position found _ _ _ head rest ihHead ihRest =>
    intro whole hwhole moved
    obtain ⟨part, hpart, hstop⟩ := Match.stops_of_prepend whole hwhole
    have hhead := head.confined.le_stop _ rfl
    simp only [Goal.Begins, List.map_cons, Program.firstOfItems]
    by_cases hmoved : position < found.stop
    · -- the first item takes the token
      have hfirst : (analysis.first.getD item ∅).contains (Engine.kindAt tokens position) = true :=
        ihHead trivial found rfl hmoved
      split
      · rw [KindSet.contains_union, hfirst, Bool.true_or]
      · exact hfirst
    · -- the first item matches nothing, so those behind it count as well
      have hstill : found.stop = position := by omega
      have hnullable : analysis.nullable.getD item false = true :=
        head.nullable closed found rfl hstill
      have hothers := ihRest trivial part hpart (by omega)
      rw [hstill] at hothers
      rw [if_pos hnullable, KindSet.contains_union, Bool.or_eq_true]
      exact .inr hothers
  | firstPruned _ _ ih =>
    intro found hfound moved
    exact (ih trivial found hfound moved).imp fun _ => And.imp_left (List.mem_cons_of_mem _)
  | firstFound _ _ ih => exact fun found hfound moved =>
      ⟨_, List.mem_cons_self, ih trivial found hfound moved⟩
  | firstNext _ _ _ _ ih =>
    intro found hfound moved
    exact (ih trivial found hfound moved).imp fun _ => And.imp_left (List.mem_cons_of_mem _)
  | manyEnd =>
    intro found hfound moved
    split at hfound
    · obtain rfl := Option.some.inj hfound
      exact absurd moved (Nat.lt_irrefl _)
    · cases hfound
  | @manyEmpty least _ position found _ _ still ih =>
    intro whole hwhole moved
    rcases least with _ | _ | least
    · obtain rfl := Option.some.inj hwhole
      exact absurd moved (Nat.lt_irrefl _)
    · exact ih trivial whole hwhole moved
    · cases hwhole
  | manyMore _ moved _ ih _ => exact fun _ _ _ => ih trivial _ rfl moved
  | tailFound _ _ ih => exact fun found hfound moved =>
      ⟨_, List.mem_cons_self, ih trivial found hfound moved⟩
  | tailNext _ _ _ _ ih =>
    intro found hfound moved
    exact (ih trivial found hfound moved).imp fun _ => And.imp_left (List.mem_cons_of_mem _)
  | growEnd =>
    rintro _ ⟨⟩ moved
    exact absurd moved (Nat.lt_irrefl _)
  | growMore _ moved _ ih _ => exact fun _ _ _ => ih trivial _ rfl moved
  | plain body _ ih =>
    intro found hfound moved
    rw [Goal.Begins, RuleBody.plain_entry body]
    exact ih trivial found hfound moved
  | @base rule _ _ _ position found _ _ _ body entry rest ih _ =>
    intro whole hwhole moved
    have hentry := RuleBody.leftRecursive_entry body
    -- the base takes input, so the first token is its own
    have hmoved : position < found.stop := by
      refine Nat.lt_of_le_of_ne (entry.confined.le_stop found rfl) fun still => ?_
      have hnullable : analysis.isNullable _ = true := entry.nullable closed found rfl still.symm
      rw [← hentry, own (by rw [Rule.isLeftRecursive, body])] at hnullable
      cases hnullable
    rw [Goal.Begins, hentry]
    exact ih trivial found rfl hmoved
  | call lookup _ ih =>
    intro whole hwhole moved
    obtain ⟨part, hpart, rfl⟩ := Option.map_eq_some_iff.mp hwhole
    rw [Goal.Begins, Program.ruleFirstSet, Program.entry?_of_lookup lookup]
    exact ih (consuming _ (Array.mem_of_getElem? lookup)) part hpart moved

/-- **An alternative that is pruned would not match.** -/
theorem Evaluates.eq_none_of_isPruned (closed : compiled.program.Closed analysis)
    (consuming : compiled.program.BasesConsume analysis) {op : Nat}
    (pruned : Engine.isPruned analysis (Engine.kindAt tokens position) op = true)
    (h : Evaluates compiled tokens (.op op) position result seen) : result = none := by
  rw [Engine.isPruned, Bool.and_eq_true, Bool.not_eq_true', Bool.not_eq_true'] at pruned
  refine Option.eq_none_iff_forall_ne_some.mpr fun found hfound => ?_
  rcases Nat.lt_or_eq_of_le (h.confined.le_stop found hfound) with moved | still
  · have hbegins : (analysis.firstSet op).contains (Engine.kindAt tokens position) = true :=
      h.begins closed consuming trivial found hfound moved
    rw [pruned.2] at hbegins
    cases hbegins
  · have hnullable : analysis.isNullable op = true := h.nullable closed found hfound still.symm
    rw [pruned.1] at hnullable
    cases hnullable

end Beginnings

/-! ### Without pruning -/

namespace CompiledGrammar

variable (compiled : CompiledGrammar)

/-- The grammar with an analysis by which nothing is pruned. -/
def unpruned : CompiledGrammar :=
  { compiled with
    analysis := ⟨Array.replicate compiled.program.ops.size true, compiled.analysis.first⟩ }

theorem isPruned_unpruned {op : Nat} (lt : op < compiled.program.ops.size) (current : Kind) :
    Engine.isPruned compiled.unpruned.analysis current op = false := by
  simp [Engine.isPruned, unpruned, Analysis.isNullable, Array.getD_eq_getD_getElem?, lt]

/-- What is pruned all the same is no operation. -/
theorem view_of_isPruned_unpruned {op : Nat} {current : Kind}
    (pruned : Engine.isPruned compiled.unpruned.analysis current op = true) :
    compiled.program.view op = .choice [] := by
  have hout : ¬ op < compiled.program.ops.size := fun lt => by
    rw [compiled.isPruned_unpruned lt] at pruned
    cases pruned
  simp [Program.view, hout]

end CompiledGrammar

/-- If the goal is the rest of a choice, it looks at the current token. -/
def Goal.Current (tokens : Array StreamToken) (position : Nat) : Goal → Prop
  | .first current _ => current = Engine.kindAt tokens position
  | _ => True

section Pruning
variable {compiled : CompiledGrammar} {tokens : Array StreamToken} {goal : Goal} {position : Nat}
  {result : Option Match} {seen : Observation}

/-- An evaluation with a given result. -/
def Gives (compiled : CompiledGrammar) (tokens : Array StreamToken) (goal : Goal) (position : Nat)
    (result : Option Match) : Prop :=
  ∃ seen, Evaluates compiled tokens goal position result seen ∧ seen.overflow = none

namespace Gives

variable {other : Goal} {next : Nat} {final : Option Match}

theorem same (h : Gives compiled tokens goal position result)
    (step : ∀ {seen}, Evaluates compiled tokens goal position result seen →
      Evaluates compiled tokens other next final seen) :
    Gives compiled tokens other next final := by
  obtain ⟨seen, hseen, huncut⟩ := h
  exact ⟨seen, step hseen, huncut⟩

/-- Something that is no cut was seen before. -/
theorem behind (h : Gives compiled tokens goal position result) {first : Observation}
    (clean : first.overflow = none)
    (step : ∀ {seen}, Evaluates compiled tokens goal position result seen →
      Evaluates compiled tokens other next final (first.followedBy seen)) :
    Gives compiled tokens other next final := by
  obtain ⟨seen, hseen, huncut⟩ := h
  exact ⟨_, step hseen, (Observation.followedBy_overflow_eq_none ..).mpr ⟨clean, huncut⟩⟩

theorem of_two {second : Goal} {middle : Nat} {partly : Option Match}
    (h : Gives compiled tokens goal position result)
    (h' : Gives compiled tokens second middle partly)
    (step : ∀ {seen after}, Evaluates compiled tokens goal position result seen →
      Evaluates compiled tokens second middle partly after →
      Evaluates compiled tokens other next final (seen.followedBy after)) :
    Gives compiled tokens other next final := by
  obtain ⟨seen, hseen, huncut⟩ := h
  obtain ⟨after, hafter, huncut'⟩ := h'
  exact ⟨_, step hseen hafter, (Observation.followedBy_overflow_eq_none ..).mpr ⟨huncut, huncut'⟩⟩

end Gives

/-- **Pruning loses no match.**  An alternative that is pruned gives no match without pruning, so
the same alternative is taken. -/
theorem Evaluates.pruned (closed : compiled.program.Closed compiled.analysis)
    (consuming : compiled.program.BasesConsume compiled.analysis)
    (h : Evaluates compiled.unpruned tokens goal position result seen)
    (uncut : seen.overflow = none) (current : goal.Current tokens position) :
    Gives compiled tokens goal position result := by
  induction h with
  | token view found => exact ⟨_, .token view found, rfl⟩
  | otherToken view found => exact ⟨_, .otherToken view found, rfl⟩
  | seq view _ ih => exact (ih uncut trivial).same (.seq view)
  | choice view _ ih =>
    simp only [Observation.followedBy_overflow_eq_none] at uncut
    exact (ih uncut.2 rfl).behind rfl (.choice view)
  | repetition view _ ih => exact (ih uncut trivial).same (.repetition view)
  | optional view _ ih => exact (ih uncut trivial).same (.optional view)
  | blank view => exact ⟨_, .blank view, rfl⟩
  | callOp view _ ih => exact (ih uncut trivial).same (.callOp view)
  | allNil => exact ⟨_, .allNil, rfl⟩
  | allFail _ ih => exact (ih uncut trivial).same .allFail
  | allCons _ _ ihHead ihRest =>
    simp only [Observation.followedBy_overflow_eq_none] at uncut
    exact (ihHead uncut.1 trivial).of_two (ihRest uncut.2 trivial) .allCons
  | firstNil => exact ⟨_, .firstNil, rfl⟩
  | @firstPruned _ kind item _ position _ _ pruned _ ih =>
    simp only [Observation.followedBy_overflow_eq_none] at uncut
    have hrest := ih uncut.2 current
    by_cases hpruned : Engine.isPruned compiled.analysis kind item = true
    · exact hrest.behind rfl (.firstPruned hpruned)
    · -- what is pruned even so is no operation, and gives nothing
      have hitem : Gives compiled tokens (.op item) position none :=
        ⟨_, .choice (compiled.view_of_isPruned_unpruned pruned) .firstNil, rfl⟩
      exact hitem.of_two hrest (.firstNext (Bool.eq_false_iff.mpr hpruned))
  | @firstFound _ kind item _ _ found _ _ _ ih =>
    obtain ⟨seen, hitem, huncut⟩ := ih uncut trivial
    by_cases hpruned : Engine.isPruned compiled.analysis kind item = true
    · rw [show kind = _ from current] at hpruned
      cases hitem.eq_none_of_isPruned closed consuming hpruned
    · exact ⟨seen, .firstFound (Bool.eq_false_iff.mpr hpruned) hitem, huncut⟩
  | @firstNext _ kind item _ _ _ _ _ _ _ _ ihHead ihRest =>
    simp only [Observation.followedBy_overflow_eq_none] at uncut
    have hrest := ihRest uncut.2 current
    by_cases hpruned : Engine.isPruned compiled.analysis kind item = true
    · exact hrest.behind rfl (.firstPruned hpruned)
    · exact (ihHead uncut.1 trivial).of_two hrest (.firstNext (Bool.eq_false_iff.mpr hpruned))
  | manyEnd _ ih => exact (ih uncut trivial).same .manyEnd
  | manyEmpty _ still ih => exact (ih uncut trivial).same fun h => .manyEmpty h still
  | manyMore _ moved _ ihRound ihRest =>
    simp only [Observation.followedBy_overflow_eq_none] at uncut
    exact (ihRound uncut.1 trivial).of_two (ihRest uncut.2 trivial) fun h => .manyMore h moved
  | tailNil => exact ⟨_, .tailNil, rfl⟩
  | tailFound _ moved ih => exact (ih uncut trivial).same fun h => .tailFound h moved
  | tailNext _ still _ ihHead ihRest =>
    simp only [Observation.followedBy_overflow_eq_none] at uncut
    exact (ihHead uncut.1 trivial).of_two (ihRest uncut.2 trivial) fun h => .tailNext h still
  | growEnd _ ih => exact (ih uncut trivial).same .growEnd
  | growMore _ moved _ ihTail ihRest =>
    simp only [Observation.followedBy_overflow_eq_none] at uncut
    exact (ihTail uncut.1 trivial).of_two (ihRest uncut.2 trivial) fun h => .growMore h moved
  | plain body _ ih => exact (ih uncut trivial).same (.plain body)
  | noBase body _ ih => exact (ih uncut trivial).same (.noBase body)
  | base body _ _ ihEntry ihRest =>
    simp only [Observation.followedBy_overflow_eq_none] at uncut
    exact (ihEntry uncut.1 trivial).of_two (ihRest uncut.2 trivial) (.base body)
  | noRule lookup => exact ⟨_, .noRule lookup, rfl⟩
  | call lookup _ ih => exact (ih uncut trivial).same (.call lookup)
  | tooDeep => cases uncut

/-- What is taken in front of the end of the stream is a token of it. -/
theorem Evaluates.takes_token (h : Evaluates compiled tokens goal position result seen)
    {found : Match} (hfound : result = some found) (moved : position < found.stop) :
    ∃ token, tokens[position]? = some token ∧ Engine.kindAt tokens position = token.kind := by
  have hlt : position < tokens.size := by
    have := (h.confined.read found hfound moved).2
    omega
  exact ⟨tokens[position], Array.getElem?_eq_getElem hlt, by
    simp [Engine.kindAt, Array.getElem?_eq_getElem hlt]⟩

end Pruning

/-! ### What the engine gives -/

/-- A text cut into tokens, as the engine sees it. -/
def CompiledGrammar.streamOf (compiled : CompiledGrammar) (text : List Char) : Array StreamToken :=
  (Source.ofTokens text (compiled.tokenize text)).stream []

namespace Engine

/-- **Pruning changes no match, and first sets are right**, for a grammar whose bases take input:
an operation gives the same with and without pruning, whatever is remembered and as long as no
call goes too deep; and the token that it takes first is one of its first set. -/
theorem evaluate_eq_unpruned {grammar : Grammar} {compiled : CompiledGrammar}
    (done : grammar.compile = .ok compiled)
    (consuming : compiled.program.BasesConsume compiled.analysis) (tokens : Array StreamToken)
    (op position : Nat) (memoize memoize' : Bool) (depth depth' : Nat) (frames frames' : List Nat)
    {memo memo' : Memo} (valid : memo.Valid compiled tokens)
    (valid' : memo'.Valid compiled.unpruned tokens) :
    let pruned := evaluate compiled tokens (callRule compiled tokens memoize depth frames) op
      position memo
    let unpruned := evaluate compiled.unpruned tokens
      (callRule compiled.unpruned tokens memoize' depth' frames') op position memo'
    (pruned.seen.overflow = none → unpruned.seen.overflow = none →
        pruned.result = unpruned.result) ∧
      ∀ found, unpruned.result = some found → position < found.stop →
        ∃ token, tokens[position]? = some token ∧
          (compiled.analysis.firstSet op).contains token.kind = true := by
  intro pruned unpruned
  have closed := Grammar.closed_compile done
  have hpruned := (sound_evaluate (fun rule bound =>
    sound_callRule memoize depth frames rule bound) op position memo valid).1
  have hunpruned := (sound_evaluate (fun rule bound =>
    sound_callRule memoize' depth' frames' rule bound) op position memo' valid').1
  refine ⟨fun uncut uncut' => ?_, fun found hfound moved => ?_⟩
  · obtain ⟨_, hgives, hclean⟩ := hunpruned.pruned closed consuming uncut' trivial
    exact (hpruned.unique hgives uncut hclean).1
  · obtain ⟨token, htoken, hkind⟩ := hunpruned.takes_token hfound moved
    have hclosed : compiled.unpruned.program.Closed compiled.analysis := closed
    have hbegins := hunpruned.begins hclosed consuming trivial found hfound moved
    rw [hkind] at hbegins
    exact ⟨token, htoken, hbegins⟩

end Engine

/-! ### Sums -/

/-- The grammar of sums of `x` in brackets. -/
def Grammar.sum : Grammar :=
  { Grammar.empty "sum" with
    rules := [
      ("sum", .choice
        [.seq [.reference "sum", .literal "+", .reference "term"], .reference "term"]),
      ("term", .choice [.seq [.literal "(", .reference "sum", .literal ")"], .literal "x"])]
    start := some "sum" }

/-- What it is compiled to. -/
def CompiledGrammar.sum : CompiledGrammar := Grammar.sum.compile.toOption.getD default

theorem Grammar.compile_sum : Grammar.sum.compile = .ok CompiledGrammar.sum :=
  Grammar.compile_eq_getD (by with_unfolding_all decide)

/-- The sum in `(x+x)`, whose terms are choices with an alternative that is pruned. -/
theorem Engine.evaluate_eq_unpruned_sum :
    let tokens := CompiledGrammar.sum.streamOf ['(', 'x', '+', 'x', ')']
    let pruned := evaluate .sum tokens (callRule .sum tokens false 8 []) 3 0 ∅
    let unpruned := evaluate CompiledGrammar.sum.unpruned tokens
      (callRule CompiledGrammar.sum.unpruned tokens false 8 []) 3 0 ∅
    CompiledGrammar.sum.program.BasesConsume CompiledGrammar.sum.analysis ∧
      pruned.seen.overflow = none ∧ unpruned.seen.overflow = none ∧
      pruned.result = unpruned.result ∧ unpruned.result.map (·.stop) = some 5 ∧
      ∃ token, tokens[0]? = some token ∧
        (CompiledGrammar.sum.analysis.firstSet 3).contains token.kind = true := by
  intro tokens pruned unpruned
  have consuming : CompiledGrammar.sum.program.BasesConsume CompiledGrammar.sum.analysis := by
    with_unfolding_all decide
  have huncut : pruned.seen.overflow = none := by
    simp only [pruned, seen_evaluate_afresh]
    with_unfolding_all decide
  have huncut' : unpruned.seen.overflow = none := by
    simp only [unpruned, seen_evaluate_afresh]
    with_unfolding_all decide
  have hstop : unpruned.result.map (·.stop) = some 5 := by
    simp only [unpruned, result_evaluate_afresh]
    with_unfolding_all decide
  obtain ⟨found, hfound, heq⟩ := Option.map_eq_some_iff.mp hstop
  have hsame := evaluate_eq_unpruned Grammar.compile_sum consuming tokens 3 0 false false 8 8 [] []
    Memo.valid_empty Memo.valid_empty
  exact ⟨consuming, huncut, huncut', hsame.1 huncut huncut', hstop,
    hsame.2 found hfound (by omega)⟩

/-! ### A base that matches nothing -/

/-- A grammar with a left-recursive rule whose base is nothing or `x`. -/
def Grammar.emptyBase : Grammar :=
  { Grammar.empty "empty_base" with
    rules := [
      ("s", .choice [.seq [.reference "a", .literal "z"], .literal "w"]),
      ("a", .choice [.seq [.reference "a", .literal "y"], .optional (.literal "x")])]
    start := some "s" }

/-- What it is compiled to. -/
def CompiledGrammar.emptyBase : CompiledGrammar := Grammar.emptyBase.compile.toOption.getD default

theorem Grammar.compile_emptyBase : Grammar.emptyBase.compile = .ok CompiledGrammar.emptyBase :=
  Grammar.compile_eq_getD (by with_unfolding_all decide)

/-- The text `yz` is one of this grammar: `a` matches the `y` with its tail, behind a base of
nothing.  But the first set of `a` lacks `y`, so the choice in `s` does not try it. -/
theorem Engine.evaluate_ne_unpruned_emptyBase :
    let tokens := CompiledGrammar.emptyBase.streamOf ['y', 'z']
    let pruned := evaluate .emptyBase tokens (callRule .emptyBase tokens false 8 []) 4 0 ∅
    let unpruned := evaluate CompiledGrammar.emptyBase.unpruned tokens
      (callRule CompiledGrammar.emptyBase.unpruned tokens false 8 []) 4 0 ∅
    Grammar.emptyBase.compile = .ok CompiledGrammar.emptyBase ∧
      pruned.seen.overflow = none ∧ unpruned.seen.overflow = none ∧
      pruned.result = none ∧ unpruned.result.map (·.stop) = some 2 ∧
      (CompiledGrammar.emptyBase.analysis.firstSet 4).contains (kindAt tokens 0) = false := by
  intro tokens pruned unpruned
  simp only [pruned, unpruned, result_evaluate_afresh, seen_evaluate_afresh]
  refine ⟨Grammar.compile_emptyBase, ?_, ?_, ?_, ?_, ?_⟩ <;> with_unfolding_all decide

end Syntagm
