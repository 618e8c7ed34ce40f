import Syntagm.Proofs.Reading

/-!
# Trees are derivations of the grammar

Every node that an evaluation makes is derived: its children read as what the body of its rule
generates.  Each goal has its share in this (`Goal.Meets`).  What an operation matches reads as
something that every expression for it generates.  What a rule matches reads as something that
its body generates.  For a left-recursive rule this is kept in each round of the loop that makes
the match longer (`Goal.Fits.grow`): what is matched so far becomes what a reference to the rule
stands for, and a tail makes an alternative of it (`reads_closed`,
`Alternative.generates_of_isTail`).

Repairs change nothing about this, since the tokens that they make or leave out read as what
they stand for.  So all trees are derived but those of sessions that give up.
-/

namespace Syntagm

/-- The names of the rules that are no terminals, in their order. -/
def Grammar.ruleNames (grammar : Grammar) : List String :=
  (Program.syntacticRules grammar grammar.tokenRules).map (·.1)

/-- **A rule of the program and the body that declares it.** -/
structure CompiledGrammar.Declares (compiled : CompiledGrammar) (grammar : Grammar)
    (number : Nat) (rule : Rule) (body : Expression) : Prop where
  lookup : compiled.program.rules[number]? = some rule
  declared : (Program.syntacticRules grammar grammar.tokenRules)[number]? = some (rule.name, body)
  hidden : rule.hidden = Program.leavesNoNode grammar rule.name
  body : LoweringScope.ImplementsBody ⟨compiled.lexicon, grammar.ruleNames, number, rule.name⟩
    compiled.program.ops body rule.body

/-- What is read is what every expression for the operation generates. -/
def Spells (grammar : Grammar) (compiled : CompiledGrammar) (op : Nat) (symbols : List Symbol) :
    Prop :=
  ∀ expression, Implements compiled.lexicon grammar.ruleNames compiled.program.ops op expression →
    Generates grammar compiled expression symbols

/-- **What the match of a goal reads as.** -/
def Goal.Meets (grammar : Grammar) (compiled : CompiledGrammar) : Goal → List Symbol → Prop
  | .op number, symbols => Spells grammar compiled number symbols
  | .all items, symbols => ∀ expressions,
    ImplementsAll compiled.lexicon grammar.ruleNames compiled.program.ops (items.map (·.val))
      expressions → Generates grammar compiled (.seq expressions) symbols
  | .first _ alternatives, symbols =>
    ∃ alternative ∈ alternatives, Spells grammar compiled alternative symbols
  | .many least inner, symbols => ∀ expression,
    Implements compiled.lexicon grammar.ruleNames compiled.program.ops inner expression →
      Generates grammar compiled (.repetition least expression) symbols
  | .tail tails, symbols => ∃ tail ∈ tails, Spells grammar compiled tail.op symbols
  | .grow rule _ _, symbols | .body rule _, symbols =>
    ∃ number body, compiled.Declares grammar number rule body ∧
      Generates grammar compiled body symbols
  | .call number _, symbols => ∀ name, grammar.ruleNames[number]? = some name →
    Generates grammar compiled (.reference name) symbols

/-- What a goal starts with is as required: a rule is one of the program, and what is matched
of it so far reads as what its body generates. -/
def Goal.Fits (grammar : Grammar) (compiled : CompiledGrammar) : Goal → Prop
  | .grow rule tails fragment => ∃ number body symbols,
    compiled.Declares grammar number rule body ∧ fragment.Reads grammar compiled symbols ∧
      Generates grammar compiled body symbols ∧
      ∀ tail ∈ tails, ∃ alternative ∈ body.alternatives 0 .none,
        alternative.isTail rule.name = true ∧
          LoweringScope.TailOf ⟨compiled.lexicon, grammar.ruleNames, number, rule.name⟩
            compiled.program.ops tail alternative
  | .body rule _ => ∃ number : Nat, compiled.program.rules[number]? = some rule
  | _ => True

section Derivation
variable {grammar : Grammar} {compiled : CompiledGrammar}

/-! ### Rules and operations -/

namespace CompiledGrammar

theorem Realizes.declares (h : compiled.Realizes grammar) {number : Nat} {rule : Rule}
    (lookup : compiled.program.rules[number]? = some rule) :
    ∃ body, compiled.Declares grammar number rule body := by
  obtain ⟨⟨name, body⟩, hentry, hname, hhidden, hbody⟩ := h.rules number rule lookup
  obtain rfl : rule.name = name := hname
  exact ⟨body, lookup, hentry, hhidden, hbody⟩

theorem Declares.name {number : Nat} {rule : Rule} {body : Expression}
    (h : compiled.Declares grammar number rule body) :
    grammar.ruleNames[number]? = some rule.name := by
  rw [Grammar.ruleNames, List.getElem?_map, h.declared]
  rfl

end CompiledGrammar

/-- **What is read behind an operation**, by the form of the operation. -/
theorem spells_of_view {op : Nat} {view : Op (Fin op)} {symbols : List Symbol}
    (h : compiled.program.view op = view) (some : view ≠ .choice [])
    (means : ∀ expression, view.withoutLimit.Means compiled.lexicon grammar.ruleNames
      compiled.program.ops expression → Generates grammar compiled expression symbols) :
    Spells grammar compiled op symbols :=
  fun _ implements => implements.generates (Program.getElem?_of_view h some) means

theorem Generates.of_choice {alternatives : List Expression} {symbols : List Symbol}
    (h : Generates grammar compiled (.choice alternatives) symbols) :
    ∃ alternative ∈ alternatives, Generates grammar compiled alternative symbols := by
  cases h with
  | terminal alone => cases alone
  | choice mem one => exact ⟨_, mem, one⟩

/-- **What is matched of a rule reads as what a reference to the rule stands for**, once it
becomes a part of a longer match. -/
theorem reads_closed (realizes : compiled.Realizes grammar) {number : Nat} {rule : Rule}
    {body : Expression} (declares : compiled.Declares grammar number rule body)
    {fragment : Fragment} {symbols : List Symbol} (reads : fragment.Reads grammar compiled symbols)
    (generates : Generates grammar compiled body symbols) :
    ∃ others, (Engine.closed rule fragment).Reads grammar compiled others ∧
      Generates grammar compiled (.reference rule.name) others := by
  unfold Engine.closed
  split
  · rename_i hhidden
    refine ⟨symbols, reads, .hidden (List.mem_of_getElem? declares.declared) ?_ generates⟩
    rw [← declares.hidden, hhidden]
  · rename_i hshown
    refine ⟨[.node rule.kind], reads.wrap (realizes.not_reserved declares.lookup) ?_,
      .visible (Array.mem_of_getElem? declares.lookup) ?_⟩
    · exact .rule declares.lookup declares.declared (reads.reading.symm ▸ generates) reads.known
    · rw [← declares.hidden]
      exact Bool.eq_false_iff.mpr hshown

/-! ### Evaluations -/

variable {tokens : Array StreamToken} {goal : Goal} {position : Nat} {result : Option Match}
  {seen : Observation}

/-- What the match of a goal reads as. -/
def Match.Meets (grammar : Grammar) (compiled : CompiledGrammar) (goal : Goal) (found : Match) :
    Prop :=
  ∃ symbols, found.fragment.Reads grammar compiled symbols ∧ goal.Meets grammar compiled symbols

namespace Match.Meets

variable {found next : Match} {other whole : Goal} {op number : Nat} {rule : Rule} {bound : Int}

/-- Nothing is matched where nothing may be read. -/
theorem blank (position : Nat) (h : goal.Meets grammar compiled []) :
    (Match.blank position).Meets grammar compiled goal :=
  ⟨[], .blank, h⟩

/-- The same match, of a goal that what is read meets as well. -/
theorem imp (h : found.Meets grammar compiled goal)
    (step : ∀ symbols, goal.Meets grammar compiled symbols →
      other.Meets grammar compiled symbols) : found.Meets grammar compiled other := by
  obtain ⟨symbols, hreads, hmeets⟩ := h
  exact ⟨symbols, hreads, step symbols hmeets⟩

/-- **One match behind another one** reads as both. -/
theorem append (h : found.Meets grammar compiled goal) (h' : next.Meets grammar compiled other)
    (step : ∀ symbols others, goal.Meets grammar compiled symbols →
      other.Meets grammar compiled others → whole.Meets grammar compiled (symbols ++ others)) :
    (found ++ next).Meets grammar compiled whole := by
  obtain ⟨symbols, hreads, hmeets⟩ := h
  obtain ⟨others, hothers, hmeets'⟩ := h'
  exact ⟨symbols ++ others, hreads.append hothers, step _ _ hmeets hmeets'⟩

/-- An operation that is matched as a goal. -/
theorem of_view {view : Op (Fin op)} (h : found.Meets grammar compiled goal)
    (shown : compiled.program.view op = view) (some : view ≠ .choice [])
    (means : ∀ symbols, goal.Meets grammar compiled symbols → ∀ expression,
      view.withoutLimit.Means compiled.lexicon grammar.ruleNames compiled.program.ops expression →
        Generates grammar compiled expression symbols) :
    found.Meets grammar compiled (.op op) :=
  h.imp fun symbols hmeets => spells_of_view shown some (means symbols hmeets)

/-- **A token reads as its kind.** -/
theorem token (realizes : compiled.Realizes grammar) {token : StreamToken} {kind : Kind}
    (reads : ∀ token ∈ tokens, token.Reads grammar compiled)
    (view : compiled.program.view op = .token kind)
    (found : (tokens[position]?).filter (·.kind = kind) = some token) :
    (Engine.tokenMatch token position).Meets grammar compiled (.op op) := by
  obtain ⟨htoken, hkind⟩ := Option.filter_eq_some_iff.mp found
  obtain rfl : token.kind = kind := by simpa using hkind
  refine ⟨[.token token.kind], (reads token (Array.mem_of_getElem? htoken)).element
    (realizes.owns_of_view view).not_reserved, spells_of_view view (by simp) ?_⟩
  rintro expression (⟨text, rfl, means⟩ | ⟨alone, means⟩ | ⟨name, rfl, -, means⟩)
  · exact .literal means
  · exact .terminal alone means
  · exact .tokenRule means

/-- **A choice reads as one of its alternatives.**  One that matched has an alternative, so the
view shows the operation. -/
theorem choice {current : Kind} {alternatives : List (Fin op)}
    (view : compiled.program.view op = .choice alternatives)
    (h : found.Meets grammar compiled (.first current alternatives)) :
    found.Meets grammar compiled (.op op) := by
  have hsome : (Op.choice alternatives : Op (Fin op)) ≠ .choice [] := by
    rintro ⟨⟩
    obtain ⟨_, _, _, hmem, _⟩ := h
    cases hmem
  refine h.of_view view hsome ?_
  rintro symbols ⟨alternative, hmem, hspells⟩ expression ⟨expressions, rfl, implements⟩
  obtain ⟨one, hone, himplements⟩ := implements.exists_of_mem (List.mem_map_of_mem hmem)
  exact .choice hone (hspells one himplements)

theorem first_cons {current : Kind} {limit : Nat} {item : Fin limit}
    {alternatives : List (Fin limit)}
    (h : found.Meets grammar compiled (.first current alternatives)) :
    found.Meets grammar compiled (.first current (item :: alternatives)) :=
  h.imp fun _ ⟨alternative, hmem, hspells⟩ =>
    ⟨alternative, List.mem_cons_of_mem _ hmem, hspells⟩

/-- A round of a loop that matched nothing counts for the rounds that are left, if that is no more
than one. -/
theorem emptyRound {least inner : Nat} (h : found.Meets grammar compiled (.op inner))
    (matched : Engine.emptyRound least position found = some next) :
    next.Meets grammar compiled (.many least inner) := by
  match least with
  | 0 =>
    obtain rfl := Option.some.inj matched
    exact .blank _ fun expression _ => .repetitionNil
  | 1 =>
    obtain rfl := Option.some.inj matched
    refine h.imp fun symbols hspells expression implements => ?_
    rw [← List.append_nil symbols]
    exact .repetitionCons (hspells expression implements) .repetitionNil
  | _ + 2 => cases matched

/-- A rule without tails reads as its body. -/
theorem plain (realizes : compiled.Realizes grammar)
    (lookup : compiled.program.rules[number]? = some rule) (hbody : rule.body = .plain op)
    (h : found.Meets grammar compiled (.op op)) :
    found.Meets grammar compiled (.body rule bound) := by
  obtain ⟨body, declares⟩ := realizes.declares lookup
  have hwhole := declares.body
  rw [hbody] at hwhole
  cases hwhole with
  | plain whole => exact h.imp fun symbols hspells => ⟨number, body, declares, hspells body whole⟩

/-- **A call reads as what a reference to the rule stands for.** -/
theorem call (realizes : compiled.Realizes grammar)
    (lookup : compiled.program.rules[number]? = some rule)
    (h : found.Meets grammar compiled (.body rule bound)) :
    (Engine.closedMatch rule found).Meets grammar compiled (.call number bound) := by
  obtain ⟨symbols, hreads, other, body, declares, hgenerates⟩ := h
  obtain ⟨others, hothers, hreference⟩ := reads_closed realizes declares hreads hgenerates
  refine ⟨others, hothers, fun name hname => ?_⟩
  obtain ⟨_, hsame⟩ := realizes.declares lookup
  obtain rfl := Option.some.inj (hname.symm.trans hsame.name)
  exact hreference

end Match.Meets

namespace Goal.Fits

variable {rule : Rule} {tails : List Tail}

/-- **A rule may be made longer once its base has matched**: that is one of the alternatives of
its body. -/
theorem of_base (realizes : compiled.Realizes grammar) {number base : Nat} {entry : Match}
    (lookup : compiled.program.rules[number]? = some rule)
    (hbody : rule.body = .leftRecursive base tails)
    (h : entry.Meets grammar compiled (.op base)) (bound : Int) :
    Goal.Fits grammar compiled
      (.grow rule (tails.filter (bound ≤ ·.level)) entry.fragment) := by
  obtain ⟨body, declares⟩ := realizes.declares lookup
  obtain ⟨symbols, hreads, hspells⟩ := h
  have hwhole := declares.body
  rw [hbody] at hwhole
  cases hwhole with
  | leftRecursive bases others =>
    obtain ⟨one, hone, hgenerates⟩ := (hspells _ bases).of_choice
    obtain ⟨alternative, halternative, rfl⟩ := List.mem_map.mp hone
    refine ⟨number, body, symbols, declares, hreads,
      body.generates_alternative (List.mem_filter.mp halternative).1 hgenerates,
      fun tail hmem => ?_⟩
    obtain ⟨other, hother, htail⟩ := exists_of_forall₂ others (List.mem_filter.mp hmem).1
    obtain ⟨hother, hisTail⟩ := List.mem_filter.mp hother
    exact ⟨other, hother, hisTail, htail⟩

/-- **It stays so in each round**: the node so far is the reference that the alternative of the
tail starts with. -/
theorem grow (realizes : compiled.Realizes grammar) {fragment : Fragment} {next : Match}
    (fits : Goal.Fits grammar compiled (.grow rule tails fragment))
    (h : next.Meets grammar compiled (.tail tails)) :
    Goal.Fits grammar compiled
      (.grow rule tails (Engine.closed rule fragment ++ next.fragment)) := by
  obtain ⟨number, body, symbols, declares, hreads, hgenerates, htails⟩ := fits
  obtain ⟨self, hself, hreference⟩ := reads_closed realizes declares hreads hgenerates
  obtain ⟨others, hothers, tail, hmem, hspells⟩ := h
  obtain ⟨alternative, halternative, hisTail, htail⟩ := htails tail hmem
  refine ⟨number, body, self ++ others, declares, hself.append hothers, ?_, htails⟩
  exact body.generates_alternative halternative
    (Alternative.generates_of_isTail hisTail hreference (hspells _ htail.means))

end Goal.Fits

/-- **What an evaluation matches reads as what its goal stands for.** -/
theorem Evaluates.meets (realizes : compiled.Realizes grammar)
    (reads : ∀ token ∈ tokens, token.Reads grammar compiled)
    (h : Evaluates compiled tokens goal position result seen)
    (fits : goal.Fits grammar compiled) :
    ∀ found, result = some found → found.Meets grammar compiled goal := by
  induction h with
  | token view found =>
    rintro _ ⟨⟩
    exact .token realizes reads view found
  | otherToken => exact fun _ h => (nomatch h)
  | seq view _ ih =>
    intro found hfound
    refine (ih trivial found hfound).of_view view (by simp) ?_
    rintro symbols hall expression ⟨items, rfl, implements⟩
    exact hall items implements
  | choice view _ ih => exact fun found hfound => .choice view (ih trivial found hfound)
  | repetition view _ ih =>
    intro found hfound
    refine (ih trivial found hfound).of_view view (by simp) ?_
    rintro symbols hmany expression ⟨inner, rfl, implements⟩
    exact hmany inner implements
  | @optional _ _ _ result _ view _ ih =>
    rintro _ ⟨⟩
    cases result with
    | none =>
      refine .blank _ (spells_of_view view (by simp) ?_)
      rintro expression ⟨inner, rfl, -⟩
      exact .optionalNone
    | some found =>
      refine (ih trivial found rfl).of_view view (by simp) ?_
      rintro symbols hspells expression ⟨inner, rfl, implements⟩
      exact .optionalSome (hspells inner implements)
  | blank view =>
    rintro _ ⟨⟩
    refine .blank _ (spells_of_view view (by simp) ?_)
    rintro expression (rfl | rfl)
    · exact .seqNil
    · exact .blank
  | callOp view _ ih =>
    intro found hfound
    refine (ih trivial found hfound).of_view view (by simp) ?_
    rintro symbols hcall expression ⟨name, rfl, hname⟩
    exact hcall name hname
  | allNil =>
    rintro _ ⟨⟩
    refine .blank _ fun expressions implements => ?_
    cases implements
    exact .seqNil
  | allFail => exact fun _ h => (nomatch h)
  | allCons _ _ ihHead ihRest =>
    intro found hfound
    obtain ⟨part, hpart, rfl⟩ := Option.map_eq_some_iff.mp hfound
    refine (ihHead trivial _ rfl).append (ihRest trivial part hpart) ?_
    rintro symbols others hspells hall expressions (_ | ⟨one, rest⟩)
    exact .seqCons (hspells _ one) (hall _ rest)
  | firstNil => exact fun _ h => (nomatch h)
  | firstPruned _ _ ih => exact fun found hfound => (ih trivial found hfound).first_cons
  | firstFound _ _ ih =>
    exact fun found hfound => (ih trivial found hfound).imp fun _ hspells =>
      ⟨_, List.mem_cons_self, hspells⟩
  | firstNext _ _ _ _ ih => exact fun found hfound => (ih trivial found hfound).first_cons
  | manyEnd =>
    split
    · rename_i hleast
      rintro _ ⟨⟩
      exact .blank _ fun expression _ => hleast ▸ .repetitionNil
    · exact fun _ h => (nomatch h)
  | manyEmpty _ _ ih => exact fun found hfound => (ih trivial _ rfl).emptyRound hfound
  | manyMore _ _ _ ihRound ihRest =>
    intro found hfound
    obtain ⟨part, hpart, rfl⟩ := Option.map_eq_some_iff.mp hfound
    exact (ihRound trivial _ rfl).append (ihRest trivial part hpart)
      fun symbols others hspells hmany expression implements =>
        .repetitionCons (hspells expression implements) (hmany expression implements)
  | tailNil => exact fun _ h => (nomatch h)
  | tailFound _ _ ih =>
    exact fun found hfound => (ih trivial found hfound).imp fun _ hspells =>
      ⟨_, List.mem_cons_self, hspells⟩
  | tailNext _ _ _ _ ih =>
    exact fun found hfound => (ih trivial found hfound).imp fun _ ⟨tail, hmem, hspells⟩ =>
      ⟨tail, List.mem_cons_of_mem _ hmem, hspells⟩
  | growEnd =>
    rintro _ ⟨⟩
    obtain ⟨number, body, symbols, declares, hreads, hgenerates, -⟩ := fits
    exact ⟨symbols, hreads, number, body, declares, hgenerates⟩
  | growMore _ _ _ ihTail ihRest => exact ihRest (fits.grow realizes (ihTail trivial _ rfl))
  | plain hbody _ ih =>
    obtain ⟨number, lookup⟩ := fits
    exact fun found hfound => .plain realizes lookup hbody (ih trivial found hfound)
  | noBase => exact fun _ h => (nomatch h)
  | base hbody _ _ ihEntry ihRest =>
    obtain ⟨number, lookup⟩ := fits
    exact ihRest (.of_base realizes lookup hbody (ihEntry trivial _ rfl) _)
  | noRule => exact fun _ h => (nomatch h)
  | call lookup _ ih =>
    intro found hfound
    obtain ⟨part, hpart, rfl⟩ := Option.map_eq_some_iff.mp hfound
    exact .call realizes lookup (ih ⟨_, lookup⟩ part hpart)
  | tooDeep => exact fun _ h => (nomatch h)

end Derivation

/-! ### Trees -/

namespace RecoveryScope

variable {scope : RecoveryScope} {grammar : Grammar}

/-- **A tree made of a whole stream is derived.** -/
theorem derives_finish (realizes : scope.compiled.Realizes grammar)
    (sorted : scope.source.Sorted scope.compiled) {fragment : Fragment} {state : RecoveryState}
    (matched : scope.Matched fragment state.tokens) :
    (scope.finish fragment state).Derives grammar scope.compiled := by
  obtain ⟨rule, stop, seen, hrule, hevaluates, -⟩ := matched.start
  obtain ⟨repairs, -, htokens⟩ := matched.repairs
  obtain ⟨waiting, hlast⟩ := matched.last
  have htokensRead : ∀ token ∈ state.tokens, token.Reads grammar scope.compiled :=
    fun token hmem => (Source.lays_stream_any scope.source repairs).reads realizes.owned sorted
      token (Array.mem_toList_iff.mpr (htokens ▸ hmem))
  obtain ⟨symbols, hreads, number, body, declares, hgenerates⟩ :=
    hevaluates.meets realizes htokensRead ⟨_, hrule⟩ _ rfl
  have htrailing :
      Quiet grammar scope.compiled (((state.tokens.back?).map (·.leading)).getD []) := by
    rw [hlast]
    exact (Source.reads_realToken realizes.owned sorted _ waiting).leading
  have hsits : ∀ element ∈ fragment.leading ++ fragment.elements ++
      ((state.tokens.back?).map (·.leading)).getD [], Sits grammar scope.compiled element :=
    List.forall_mem_append.mpr
      ⟨List.forall_mem_append.mpr ⟨hreads.leading.sits, hreads.sits⟩, htrailing.sits⟩
  rw [finish, CompiledGrammar.startKind_eq hrule]
  refine .node (.rule declares.lookup declares.declared ?_ fun text hmem =>
    (hsits _ hmem).known text rfl) fun child hmem => (hsits child hmem).derives
  rw [CompiledGrammar.reading_append, CompiledGrammar.reading_append, hreads.leading.reading,
    htrailing.reading, hreads.reading, List.nil_append, List.append_nil]
  exact hgenerates

/-- **The tree of a session is derived**, unless the session gives up. -/
theorem derives_recover (realizes : scope.compiled.Realizes grammar)
    (proper : scope.source.Proper) (sorted : scope.source.Sorted scope.compiled) {seed : Memo}
    (right : seed.Valid scope.compiled (scope.source.stream []))
    (kept : ∀ error ∈ (scope.recover seed).errors, error.recovery ≠ some .abandoned) :
    (scope.recover seed).tree.Derives grammar scope.compiled ∧
      ∃ children, (scope.recover seed).tree = .node scope.compiled.startKind children := by
  have hsettled := settled_recover realizes right
  generalize scope.recover seed = recovered at hsettled kept ⊢
  cases hsettled with
  | success _ _ ran hfragment =>
    exact ⟨derives_finish realizes sorted (ran.matched realizes proper hfragment), _, rfl⟩
  | abandoned => exact absurd rfl (kept _ (List.mem_singleton.mpr rfl))

end RecoveryScope

/-- The rule of a node is the one that its kind says. -/
theorem Derived.generates {grammar : Grammar} {compiled : CompiledGrammar}
    (realizes : compiled.Realizes grammar) {kind : Kind} {children : List Element}
    (h : Derived grammar compiled kind children) {number : Nat} {rule : Rule}
    (lookup : compiled.program.rules[number]? = some rule) (kinds : rule.kind = kind) :
    ∃ body, (Program.syntacticRules grammar grammar.tokenRules)[number]? = some (rule.name, body) ∧
      Generates grammar compiled body (compiled.reading children) := by
  have hreserved := realizes.not_reserved lookup
  rw [kinds] at hreserved
  cases h with
  | @rule other _ body _ lookup' declared generates =>
    obtain ⟨base, -, hkinds⟩ := realizes.kinds
    rw [hkinds number rule lookup, hkinds other _ lookup'] at kinds
    -- kinds of rules are numbered in their order
    obtain rfl : number = other := Nat.add_left_cancel (Kind.mk.inj kinds)
    obtain rfl := Option.some.inj (lookup.symm.trans lookup')
    exact ⟨body, declared, generates⟩
  | lacking => cases hreserved
  | leftOut => cases hreserved

/-- Tokens that no terminal matches are children of error nodes alone. -/
theorem Derived.unknown {grammar : Grammar} {compiled : CompiledGrammar} {kind : Kind}
    {children : List Element} (h : Derived grammar compiled kind children) {text : List Char}
    (hmem : .token Kind.unknown text ∈ children) : kind = Kind.error := by
  cases h with
  | rule _ _ _ known => exact absurd hmem (known text)
  | lacking fits =>
    obtain ⟨rfl, -⟩ := Element.token.inj (List.mem_singleton.mp hmem)
    cases fits
  | leftOut => rfl

/-- What stands for a token that the text lacks holds a token of its kind, without text. -/
theorem Derived.lacks {grammar : Grammar} {compiled : CompiledGrammar}
    (realizes : compiled.Realizes grammar) {kind : Kind} {children : List Element}
    (h : Derived grammar compiled kind children) (missing : kind = Kind.missing) :
    ∃ inner, children = [.token inner []] := by
  cases h with
  | rule lookup => exact absurd missing (realizes.kind_ne_missing lookup)
  | lacking => exact ⟨_, rfl⟩
  | leftOut => cases missing

namespace Parser

variable {parser : Parser} {grammar : Grammar}

/-- **Every tree is a derivation of the grammar**, unless parsing gave up.  The root is a node
of the start rule.  The children of a node read as a sequence of symbols that the body of its
rule generates, where what stands for a token that the text lacks reads as that token.  Tokens
that no terminal matches are in error nodes alone. -/
theorem derivation_parse (done : grammar.compile = .ok parser.compiled) (text : List Char)
    (kept : ∀ diagnostic ∈ (parser.parse text).diagnostics,
      diagnostic.recovery ≠ some .abandoned) :
    (∃ rule children, parser.compiled.program.rules[parser.compiled.start]? = some rule ∧
      grammar.start = some rule.name ∧ (parser.parse text).tree = .node rule.kind children) ∧
    ∀ placed ∈ (parser.parse text).tree.outline, ∀ kind children,
      placed.element = .node kind children →
        (∀ (number : Nat) rule, parser.compiled.program.rules[number]? = some rule →
          rule.kind = kind → ∃ body,
            (Program.syntacticRules grammar grammar.tokenRules)[number]? = some (rule.name, body) ∧
              Generates grammar parser.compiled body (parser.compiled.reading children)) ∧
        (kind = Kind.missing → ∃ inner, children = [.token inner []]) ∧
        ∀ unknown, .token Kind.unknown unknown ∈ children → kind = Kind.error := by
  have realizes := Grammar.realizes_compile done
  have hkinds := parser.compiled.kind_tokensFrom realizes.owned 0 .origin text
  obtain ⟨hderives, children, hroot⟩ :=
    @RecoveryScope.derives_recover (parser.scope text (parser.compiled.tokenize text)) grammar
      realizes (Source.proper_ofTokens text (kind_ne_of_tokenize realizes text))
      (Source.sorted_ofTokens text fun token hmem => (hkinds token hmem).2) ∅ Memo.valid_empty
      fun error hmem => kept error (List.mem_mergeSort.mpr (List.mem_append_right _ hmem))
  obtain ⟨rule, hrule, hname⟩ := realizes.start
  refine ⟨⟨rule, children, hrule, hname, ?_⟩, fun placed hmem kind children heq => ?_⟩
  · rw [← CompiledGrammar.startKind_eq hrule]
    exact hroot
  · have hderived := hderives.outlineFrom placed hmem kind children heq
    exact ⟨fun number rule lookup hkind => hderived.generates realizes lookup hkind,
      hderived.lacks realizes, fun unknown => hderived.unknown⟩

/-- A text in which a token has to be left out. -/
theorem derivation_parse_pair :
    let parse := (Parser.ofCompiled .pair).parse ['a', '?', 'b']
    (∀ diagnostic ∈ parse.diagnostics, diagnostic.recovery ≠ some .abandoned) ∧
      ∀ placed ∈ parse.tree.outline, ∀ kind children, placed.element = .node kind children →
        ∀ unknown, .token Kind.unknown unknown ∈ children → kind = Kind.error := by
  have hkept : ∀ diagnostic ∈ ((Parser.ofCompiled .pair).parse ['a', '?', 'b']).diagnostics,
      diagnostic.recovery ≠ some .abandoned := by
    intro diagnostic hmem
    have hall : ∀ diagnostic ∈ (CompiledGrammar.pair.tokenize ['a', '?', 'b']).diagnostics ++
        (((Parser.ofCompiled .pair).scope ['a', '?', 'b']
          (CompiledGrammar.pair.tokenize ['a', '?', 'b'])).recover ∅).errors,
        diagnostic.recovery ≠ some .abandoned := by with_unfolding_all decide
    exact hall diagnostic (List.mem_mergeSort.mp hmem)
  have hderivation := @derivation_parse (Parser.ofCompiled .pair) .pair Grammar.compile_pair
    ['a', '?', 'b'] hkept
  exact ⟨hkept, fun placed hmem kind children heq =>
    (hderivation.2 placed hmem kind children heq).2.2⟩

end Parser

end Syntagm
