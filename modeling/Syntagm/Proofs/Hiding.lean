import Syntagm.Parse.Parser
import Syntagm.Proofs.Lowering

/-!
# Hiding a rule of a grammar

A mark on a rule that is no terminal reaches two places only: the rule of the program says that it
leaves no node, and so does its entry in the table of kinds, whose name is shown as before.  Nothing
else that compiling does looks at it.  So the marked grammar compiles if and only if the grammar
does, and to the same but for these two (`Grammar.compile_markHidden`); in particular it cuts texts
into the same tokens.
-/

namespace Syntagm

/-- The rule, hidden if it has that name. -/
def Rule.hide (rule : Rule) (name : String) : Rule :=
  if rule.name = name then { rule with hidden := true } else rule

/-- The program with the rule of that name hidden. -/
def Program.hide (program : Program) (name : String) : Program :=
  { program with rules := program.rules.map (·.hide name) }

/-- What a table of kinds shows of them. -/
def KindTable.displays (table : KindTable) : List String := table.entries.toList.map (·.display)

/-- The compiled grammar with the rule of that name hidden, and a table that says so. -/
def CompiledGrammar.hide (compiled : CompiledGrammar) (name : String) (kinds : KindTable) :
    CompiledGrammar :=
  { compiled with
    grammar := compiled.grammar.markHidden name
    program := compiled.program.hide name
    kinds := kinds }

/-! ### Results that track each other -/

/-- Results that both fail with the same error, or both succeed with related values. -/
inductive Tracks {ε α β : Type} (Same : α → β → Prop) : Except ε α → Except ε β → Prop where
  | ok {a b} (same : Same a b) : Tracks Same (.ok a) (.ok b)
  | error (fault : ε) : Tracks Same (.error fault) (.error fault)

namespace Tracks

variable {ε α β γ δ : Type} {Same : α → β → Prop} {Same' : γ → δ → Prop}

theorem rfl {result : Except ε α} : Tracks Eq result result := by
  cases result with
  | ok a => exact .ok (Eq.refl a)
  | error fault => exact .error fault

theorem bind {first : Except ε α} {second : Except ε β} (h : Tracks Same first second)
    {next : α → Except ε γ} {next' : β → Except ε δ}
    (steps : ∀ {a b}, Same a b → Tracks Same' (next a) (next' b)) :
    Tracks Same' (first >>= next) (second >>= next') := by
  cases h with
  | ok same => exact steps same
  | error fault => exact .error fault

theorem isOk_iff {first : Except ε α} {second : Except ε β} (h : Tracks Same first second) :
    (∃ a, first = .ok a) ↔ ∃ b, second = .ok b := by
  cases h with
  | ok => exact iff_of_true ⟨_, Eq.refl _⟩ ⟨_, Eq.refl _⟩
  | error => exact iff_of_false (fun ⟨_, h⟩ => nomatch h) fun ⟨_, h⟩ => nomatch h

theorem same_of_ok {a : α} {b : β}
    (h : Tracks (ε := ε) Same (.ok a) (.ok b)) : Same a b := by
  cases h with
  | ok same => exact same

end Tracks

/-! ### Terminals -/

namespace Grammar

variable {grammar : Grammar} {name : String}

theorem mem_insertName {names : List String} {other : String} :
    other ∈ insertName names name ↔ other ∈ names ∨ other = name := by
  unfold insertName
  by_cases hmem : names.contains name
  · rw [if_pos hmem]
    constructor
    · exact .inl
    · rintro (h | rfl)
      · exact h
      · exact List.contains_iff_mem.mp hmem
  · rw [if_neg hmem, List.mem_append, List.mem_singleton]

theorem isHidden_markHidden (other : String) :
    (grammar.markHidden name).isHidden other = (grammar.isHidden other || other == name) := by
  rw [Bool.eq_iff_iff]
  simp [isHidden, markHidden, mem_insertName, or_assoc]

theorem leavesNoNode_markHidden (shown : grammar.start ≠ some name) (other : String) :
    Program.leavesNoNode (grammar.markHidden name) other =
      (Program.leavesNoNode grammar other || other == name) := by
  have hstart : (grammar.markHidden name).start = grammar.start := rfl
  rw [Program.leavesNoNode, Program.leavesNoNode, isHidden_markHidden, hstart]
  by_cases heq : other = name
  · subst heq
    simp [shown]
  · rw [beq_eq_false_iff_ne.mpr heq, Bool.or_false, Bool.or_false]

theorem resolveAll_insertName (user : String) {names : List String}
    (declared : grammar.declares name = true) :
    grammar.resolveAll user (insertName names name) = grammar.resolveAll user names := by
  unfold insertName
  split
  · rfl
  · unfold resolveAll
    rw [List.find?_append]
    simp [declared]

theorem resolve_markHidden (declared : grammar.declares name = true) :
    (grammar.markHidden name).resolve = grammar.resolve := by
  have hall (user : String) (names : List String) :
      (grammar.markHidden name).resolveAll user names = grammar.resolveAll user names := rfl
  have hhidden : (grammar.markHidden name).hidden = insertName grammar.hidden name := rfl
  unfold resolve
  simp only [hall, hhidden, resolveAll_insertName _ declared]
  rfl

theorem tokenRules_markHidden : (grammar.markHidden name).tokenRules = grammar.tokenRules := by
  have hrounds (rounds : Nat) (tokens : List String) :
      (grammar.markHidden name).tokenRulesFrom rounds tokens =
        grammar.tokenRulesFrom rounds tokens := by
    induction rounds generalizing tokens with
    | zero => rfl
    | succ rounds ih =>
      have hgiven : (grammar.markHidden name).tokenRulesGiven tokens =
          grammar.tokenRulesGiven tokens := rfl
      rw [tokenRulesFrom, tokenRulesFrom, hgiven]
      split
      · rfl
      · exact ih _
  exact hrounds _ _

theorem unreachable_markHidden : (grammar.markHidden name).unreachable = grammar.unreachable := by
  have hrounds (rounds : Nat) (reached fresh : List String) :
      (grammar.markHidden name).reachFrom rounds reached fresh =
        grammar.reachFrom rounds reached fresh := by
    induction rounds generalizing reached fresh with
    | zero => rfl
    | succ rounds ih =>
      have hreferences : (grammar.markHidden name).referencesOf = grammar.referencesOf := rfl
      simp only [reachFrom, hreferences, ih]
  have hreachable : (grammar.markHidden name).reachable = grammar.reachable := hrounds _ _ _
  rw [unreachable, hreachable]
  rfl

unseal effort patternOf patternsOf matcherOf matchersOf in
/-- Expanding a terminal looks at the bodies of rules alone. -/
theorem terminalMatcher_markHidden :
    (grammar.markHidden name).terminalMatcher = grammar.terminalMatcher :=
  rfl

theorem addTokenRules_markHidden {tokens : List String} (other : name ∉ tokens)
    (rules : List (String × Expression)) (draft : Lexicon.Draft) :
    (grammar.markHidden name).addTokenRules tokens rules draft =
      grammar.addTokenRules tokens rules draft := by
  induction rules generalizing draft with
  | nil => rfl
  | cons first rest ih =>
    obtain ⟨rule, body⟩ := first
    have huses : (grammar.markHidden name).usesToken tokens rule = grammar.usesToken tokens rule :=
      rfl
    have hextra : (grammar.markHidden name).isExtra rule = grammar.isExtra rule := rfl
    rw [addTokenRules, addTokenRules, huses, hextra, terminalMatcher_markHidden]
    split
    · rename_i hused
      have hne : rule ≠ name := by
        rintro rfl
        simp [other] at hused
      simp only [isHidden_markHidden, beq_eq_false_iff_ne.mpr hne, Bool.or_false, ih]
    · exact ih draft

mutual

theorem addTerminals_markHidden (rule : String) : ∀ (expression : Expression)
    (draft : Lexicon.Draft), (grammar.markHidden name).addTerminals rule expression draft =
      grammar.addTerminals rule expression draft
  | .literal _, _ | .reference _, _ | .blank, _ => rfl
  | .pattern _, _ | .token _, _ | .nested .., _ | .delimited .., _ | .quoted .., _ => by
    simp only [addTerminals, terminalMatcher_markHidden]
  | .seq items, draft => addAllTerminals_markHidden rule items draft
  | .choice alternatives, draft => addAllTerminals_markHidden rule alternatives draft
  | .repetition _ inner, draft => addTerminals_markHidden rule inner draft
  | .optional inner, draft => addTerminals_markHidden rule inner draft
  | .precedence _ _ inner, draft => addTerminals_markHidden rule inner draft

theorem addAllTerminals_markHidden (rule : String) : ∀ (expressions : List Expression)
    (draft : Lexicon.Draft), (grammar.markHidden name).addAllTerminals rule expressions draft =
      grammar.addAllTerminals rule expressions draft
  | [], _ => rfl
  | first :: rest, draft => by
    simp only [addAllTerminals, addTerminals_markHidden rule first,
      addAllTerminals_markHidden rule rest]

end

theorem addRuleTerminals_markHidden (tokens : List String) (rules : List (String × Expression))
    (draft : Lexicon.Draft) :
    (grammar.markHidden name).addRuleTerminals tokens rules draft =
      grammar.addRuleTerminals tokens rules draft := by
  induction rules generalizing draft with
  | nil => rfl
  | cons first rest ih =>
    obtain ⟨rule, body⟩ := first
    rw [addRuleTerminals, addRuleTerminals]
    split
    · exact ih draft
    · simp only [addTerminals_markHidden, ih]

theorem lexicon_markHidden {tokens : List String} (other : name ∉ tokens) :
    Lexicon.ofGrammar (grammar.markHidden name) tokens = Lexicon.ofGrammar grammar tokens := by
  unfold Lexicon.ofGrammar
  simp only [addTokenRules_markHidden other, addRuleTerminals_markHidden]
  rfl

end Grammar

/-! ### The program -/

namespace KindTable

variable {table table' : KindTable}

theorem size_eq (same : table'.displays = table.displays) : table'.size = table.size := by
  have hlength := congrArg List.length same
  simpa [displays, size] using hlength

theorem map_display (same : table'.displays = table.displays) (kind : Kind) :
    (table'.info? kind).map (·.display) = (table.info? kind).map (·.display) := by
  have hindex := congrArg (·[kind.index]?) same
  simpa [displays, info?] using hindex

theorem display_eq (same : table'.displays = table.displays) (kind : Kind) :
    table'.display kind = table.display kind := by
  rw [display, display, map_display same]

theorem displays_add (same : table'.displays = table.displays) (name : String)
    (hidden hidden' : Bool) :
    (table'.add name (.rule hidden')).displays = (table.add name (.rule hidden)).displays := by
  simp only [displays, add, Array.toList_push, List.map_append] at same ⊢
  rw [same]
  rfl

end KindTable

namespace Program

variable {grammar : Grammar} {name : String}

/-- Lowering the rules of a list gives the same operations and rules but for the mark. -/
theorem lowerRules_markHidden (shown : grammar.start ≠ some name) (lexicon : Lexicon)
    (names : List String) (rule : Nat) (rules : List (String × Expression)) (arena : Arena)
    {kinds kinds' : KindTable} (same : kinds'.displays = kinds.displays) :
    Tracks (fun lowered lowered' => lowered'.1 = lowered.1.map (·.hide name) ∧
        lowered'.2.1.displays = lowered.2.1.displays ∧ lowered'.2.2 = lowered.2.2)
      (lowerRules grammar lexicon names rule rules kinds arena)
      (lowerRules (grammar.markHidden name) lexicon names rule rules kinds' arena) := by
  induction rules generalizing rule kinds kinds' arena with
  | nil => exact .ok ⟨rfl, same, rfl⟩
  | cons first rest ih =>
    obtain ⟨other, body⟩ := first
    rw [lowerRules, lowerRules]
    refine Tracks.rfl.bind ?_
    rintro ⟨lowered, middle⟩ _ rfl
    refine (ih (rule + 1) middle (KindTable.displays_add same other _ _)).bind ?_
    rintro ⟨others, table, after⟩ ⟨others', table', after'⟩ ⟨hothers, htable, hafter⟩
    refine .ok ⟨?_, htable, hafter⟩
    have hnext : kinds'.next = kinds.next := congrArg Kind.mk (KindTable.size_eq same)
    simp only at hothers
    simp only [List.map_cons, hothers, hnext, Grammar.leavesNoNode_markHidden shown, Rule.hide]
    by_cases heq : other = name
    · simp [heq]
    · simp [heq]

variable (program : Program)

theorem getElem?_rules_hide (rule : Nat) :
    (program.hide name).rules[rule]? = (program.rules[rule]?).map (·.hide name) :=
  Array.getElem?_map

end Program

namespace Rule

variable (rule : Rule) (name : String)

@[simp] theorem name_hide : (rule.hide name).name = rule.name := by
  unfold hide
  split <;> rfl

@[simp] theorem kind_hide : (rule.hide name).kind = rule.kind := by
  unfold hide
  split <;> rfl

@[simp] theorem body_hide : (rule.hide name).body = rule.body := by
  unfold hide
  split <;> rfl

@[simp] theorem entry_hide : (rule.hide name).entry = rule.entry := by
  rw [entry, body_hide, entry]

end Rule

namespace Program

variable (program : Program) (name : String)

theorem entry?_hide (rule : Nat) :
    Program.entry? (program.hide name) rule = program.entry? rule := by
  unfold entry?
  rw [getElem?_rules_hide, Option.map_map]
  congr 1
  funext rule
  exact rule.entry_hide name

theorem ruleName_hide (rule : Nat) : (program.hide name).ruleName rule = program.ruleName rule := by
  rw [ruleName, getElem?_rules_hide, Option.map_map, ruleName]
  congr 2
  funext rule
  exact rule.name_hide name

theorem ownerName_hide (op : Nat) : (program.hide name).ownerName op = program.ownerName op := by
  have howners : (program.hide name).owners = program.owners := rfl
  rw [ownerName, howners, ownerName]
  cases program.owners[op]? with
  | none => rfl
  | some rule => exact ruleName_hide program name rule

theorem rule?_hide (other : String) : (program.hide name).rule? other = program.rule? other := by
  show (program.rules.map (·.hide name)).findIdx? (·.name == other) = _
  rw [Array.findIdx?_map, rule?]
  congr 1
  funext rule
  exact congrArg (· == other) (rule.name_hide name)

/-- What operations can begin with depends on where the matches of rules start. -/
theorem analyze_hide : (program.hide name).analyze = program.analyze := by
  have hops : (program.hide name).ops = program.ops := rfl
  have hnullable : (program.hide name).nullableGiven = program.nullableGiven := by
    funext known op
    cases op <;> simp only [nullableGiven, entry?_hide]
  have hfirst : (program.hide name).firstGiven = program.firstGiven := by
    funext nullable known op
    cases op <;> simp only [firstGiven, entry?_hide]
  simp only [analyze, nullableOps, firstSets, hops, hnullable, hfirst]

unseal leftCalls in
theorem leftCorners_hide (analysis : Analysis) :
    (program.hide name).leftCorners analysis = program.leftCorners analysis := by
  have hcalls : (program.hide name).leftCalls analysis = program.leftCalls analysis := rfl
  show (program.rules.map (·.hide name)).map _ = _
  rw [Array.map_map, leftCorners]
  congr 1
  funext rule
  simp only [Function.comp_apply, Rule.entry_hide, hcalls]

theorem checkLeftCorners_hide (analysis : Analysis) :
    (program.hide name).checkLeftCorners analysis = program.checkLeftCorners analysis := by
  have hnames : (program.hide name).ruleName = program.ruleName := by
    funext rule
    exact ruleName_hide program name rule
  rw [checkLeftCorners, checkLeftCorners, leftCorners_hide, hnames]

theorem nullableTails_hide (analysis : Analysis) :
    (program.hide name).nullableTails analysis = program.nullableTails analysis := by
  show ((program.rules.map (·.hide name)).toList.zipIdx).flatMap _ = _
  rw [Array.toList_map, List.zipIdx_map, List.flatMap_map, nullableTails]
  congr 1
  funext numbered
  simp only [Prod.map_fst, Prod.map_snd, Rule.body_hide, id_eq]

unseal sameShape in
theorem conflicts_hide (analysis : Analysis) :
    (program.hide name).conflicts analysis = program.conflicts analysis := by
  have hops : (program.hide name).ops = program.ops := rfl
  have hshape : (program.hide name).sameShape = program.sameShape := rfl
  have hcalled : (program.hide name).calledRule? = program.calledRule? := by
    funext op
    simp only [calledRule?, hops, ruleName_hide]
  have hop : (program.hide name).opConflicts analysis = program.opConflicts analysis := by
    funext op
    simp only [opConflicts, choiceConflicts, competing, hops, hshape, hcalled, ownerName_hide]
  simp only [conflicts, hops, hop, nullableTails_hide, ruleName_hide]

theorem checkConflicts_hide (grammar : Grammar) (analysis : Analysis) {kinds kinds' : KindTable}
    (same : kinds'.displays = kinds.displays) :
    (program.hide name).checkConflicts (grammar.markHidden name) analysis kinds' =
      program.checkConflicts grammar analysis kinds := by
  have hops : (program.hide name).ops = program.ops := rfl
  have htolerated : toleratedConflicts (grammar.markHidden name) = toleratedConflicts grammar := rfl
  have hambiguities :
      (program.hide name).ambiguities analysis kinds' = program.ambiguities analysis kinds := by
    have hchoice : (program.hide name).choiceAmbiguities analysis kinds' =
        program.choiceAmbiguities analysis kinds := by
      funext op
      simp only [choiceAmbiguities, hops, ownerName_hide, KindTable.map_display same]
    simp only [ambiguities, hops, hchoice]
  rw [checkConflicts, checkConflicts, conflicts_hide, htolerated, hambiguities]

end Program

/-! ### Compiling -/

namespace Grammar

variable {grammar : Grammar} {name : String}

theorem ofGrammar_markHidden (shown : grammar.start ≠ some name) (tokens : List String)
    (draft : Lexicon.Draft) :
    Tracks (fun built built' => built'.1 = built.1.hide name ∧ built'.2.displays = built.2.displays)
      (Program.ofGrammar grammar tokens draft)
      (Program.ofGrammar (grammar.markHidden name) tokens draft) := by
  have hrules : Program.syntacticRules (grammar.markHidden name) tokens =
      Program.syntacticRules grammar tokens := rfl
  unfold Program.ofGrammar
  rw [hrules]
  refine (Program.lowerRules_markHidden shown _ _ _ _ _ rfl).bind ?_
  rintro ⟨rules, kinds, arena⟩ ⟨rules', kinds', arena'⟩ ⟨hlowered, same, harena⟩
  obtain rfl : rules' = rules.map (·.hide name) := hlowered
  obtain rfl : arena' = arena := harena
  refine .ok ⟨?_, same⟩
  simp [Program.hide]

/-- **A grammar with a rule hidden compiles to the same but for the mark**, and fails with the same
error if it fails.  The rule is no terminal, and not the start rule. -/
theorem compile_markHidden (syntactic : name ∉ grammar.tokenRules)
    (declared : grammar.declares name = true) (shown : grammar.start ≠ some name) :
    Tracks (fun compiled compiled' => ∃ kinds : KindTable,
        kinds.displays = compiled.kinds.displays ∧ compiled' = compiled.hide name kinds)
      grammar.compile (grammar.markHidden name).compile := by
  unfold compile
  rw [resolve_markHidden declared, tokenRules_markHidden]
  refine Tracks.rfl.bind ?_
  rintro start _ rfl
  dsimp only
  rw [lexicon_markHidden syntactic]
  refine Tracks.rfl.bind ?_
  rintro draft _ rfl
  refine (ofGrammar_markHidden shown _ draft).bind ?_
  rintro ⟨program, kinds⟩ ⟨program', kinds'⟩ ⟨hprogram, hsame⟩
  obtain rfl : program' = program.hide name := hprogram
  have same : kinds'.displays = kinds.displays := hsame
  dsimp only
  rw [Program.analyze_hide, Program.checkLeftCorners_hide, Program.checkConflicts_hide _ _ _ _ same]
  refine Tracks.rfl.bind ?_
  rintro _ _ rfl
  refine Tracks.rfl.bind ?_
  rintro found _ rfl
  rw [Program.rule?_hide]
  cases program.rule? start with
  | none => exact .error _
  | some number =>
    refine Tracks.rfl.bind ?_
    rintro sync _ rfl
    rw [unreachable_markHidden]
    exact .ok ⟨kinds', same, rfl⟩

end Grammar

/-! ### Lexing -/

namespace CompiledGrammar

variable {compiled compiled' : CompiledGrammar}

/-- Cutting a text into tokens looks at the terminals alone. -/
theorem tokenize_eq_of_lexicon (same : compiled'.lexicon = compiled.lexicon) (text : List Char) :
    compiled'.tokenize text = compiled.tokenize text := by
  have hcandidate : compiled'.candidate? = compiled.candidate? := by
    funext text terminal
    simp only [candidate?, same]
  have hlongest : compiled'.longestMatch? = compiled.longestMatch? := by
    funext text
    simp only [longestMatch?, same, hcandidate]
  have hmarker : compiled'.startsWithEndMarker = compiled.startsWithEndMarker := by
    funext text
    simp only [startsWithEndMarker, same]
  have hunknown (text : List Char) :
      compiled'.unknownLength text = compiled.unknownLength text := by
    induction text with
    | nil => rfl
    | cons c rest ih =>
      have hstarts : compiled'.startsSomething = compiled.startsSomething := by
        funext text
        simp only [startsSomething, hlongest, hmarker]
      rw [unknownLength, unknownLength, hstarts, ih]
  have hlexeme : compiled'.lexeme = compiled.lexeme := by
    funext c rest
    simp only [lexeme, hlongest, hmarker, hunknown]
  have htrivia : compiled'.isTrivia = compiled.isTrivia := by
    funext kind
    simp only [isTrivia, same]
  have hread : compiled'.readToken = compiled.readToken := by
    funext offset position c rest
    simp only [readToken, hlexeme, htrivia]
  have htokens (offset : Nat) (position : Text.Position) (text : List Char) :
      compiled'.tokensFrom offset position text = compiled.tokensFrom offset position text := by
    induction offset, position, text using tokensFrom.induct compiled with
    | case1 => rw [tokensFrom, tokensFrom]
    | case2 offset position c rest token part others _ hone ih =>
      rw [tokensFrom, tokensFrom, hread, hone]
      exact congrArg (token :: ·) ih
  rw [tokenize, tokenize, htokens]

end CompiledGrammar

end Syntagm
