import Syntagm.Proofs.ExpressionRoundTrip
import Syntagm.Proofs.Language

/-!
# Reading a grammar that was written down

A grammar that was written as tokens is read back: the parser returns the same grammar, with
everything in the same order (`parse_grammarTokens`).

**Directives.**  Each directive sets a thing of its own (`copy_comm`), and reading it on a grammar
that still has the default there gives what was written (`reads_of_arguments`).  So the order of
the directives makes no difference.  The arguments of a directive end where the next directive
or the header of a rule starts (`StartsEntry`).

**Names.**  A grammar holds each rule, extra, hidden mark and sync text once (`HoldsOnce`), in
whatever way it is put together.  Adding them one by one therefore gives the lists as they were.

**Builtins.**  The parentheses around a reference that is named like a builtin are needed: without
them, `token ("a" "b")` is read as a call (`parse_builtinNamed_unguarded`).
-/

namespace Syntagm

/-! ### Lists that hold every name once -/

theorem nodup_insertName {names : List String} (once : names.Nodup) (name : String) :
    (insertName names name).Nodup := by
  unfold insertName
  split
  · exact once
  · rename_i hnew
    refine List.Nodup.append once (List.nodup_singleton name) fun other hother hname => ?_
    obtain rfl := List.mem_singleton.1 hname
    exact hnew (List.contains_iff_mem.2 hother)

theorem foldl_insertName {held names : List String} (once : (held ++ names).Nodup) :
    names.foldl insertName held = held ++ names := by
  induction names generalizing held with
  | nil => rw [List.foldl_nil, List.append_nil]
  | cons name rest ih =>
    have hnew : name ∉ held := fun hmem =>
      (List.nodup_append.1 once).2.2 name hmem name (.head _) rfl
    have hinsert : insertName held name = held ++ [name] := by simp [insertName, hnew]
    rw [List.foldl_cons, hinsert, ih (by simpa using once), List.append_assoc]
    rfl

/-- Names that are added one by one are all there in the end, wherever they are put. -/
theorem foldl_put {σ : Type} (add : σ → String → σ) (put : List String → σ)
    (hadd : ∀ held name, add (put held) name = put (insertName held name)) {names : List String}
    (once : names.Nodup) : names.foldl add (put []) = put names :=
  calc names.foldl add (put [])
    _ = put (names.foldl insertName []) := List.foldl_hom put hadd
    _ = put names := congrArg put (foldl_insertName once)

namespace Grammar

/-- What a grammar declares and lists, it declares and lists once. -/
structure HoldsOnce (grammar : Grammar) : Prop where
  rules : (grammar.rules.map (·.1)).Nodup
  extras : grammar.extras.Nodup
  hidden : grammar.hidden.Nodup
  sync : grammar.sync.Nodup

namespace HoldsOnce
variable {grammar : Grammar}

theorem empty (name : String) : (Grammar.empty name).HoldsOnce :=
  ⟨List.nodup_nil, List.nodup_nil, List.nodup_nil, List.nodup_nil⟩

theorem define (once : grammar.HoldsOnce) {name : String} {body : Expression} {defined : Grammar}
    (done : grammar.define name body = .ok defined) : defined.HoldsOnce := by
  have hrules := nodup_define once.rules done
  unfold Grammar.define at done
  split at done
  · cases done
  · obtain rfl := Except.ok.inj done
    exact { once with rules := hrules }

theorem replace (once : grammar.HoldsOnce) (name : String) (body : Expression) :
    (grammar.replace name body).1.HoldsOnce := by
  have hrules : ((grammar.replace name body).1.rules.map (·.1)).Nodup := nodup_replace once.rules
  unfold Grammar.replace at hrules ⊢
  split at hrules <;> exact { once with rules := hrules }

theorem markExtra (once : grammar.HoldsOnce) (name : String) :
    (grammar.markExtra name).HoldsOnce :=
  { once with extras := nodup_insertName once.extras name }

theorem markHidden (once : grammar.HoldsOnce) (name : String) :
    (grammar.markHidden name).HoldsOnce :=
  { once with hidden := nodup_insertName once.hidden name }

theorem addSync (once : grammar.HoldsOnce) (text : String) : (grammar.addSync text).HoldsOnce :=
  { once with sync := nodup_insertName once.sync text }

end HoldsOnce

theorem foldl_addConflict (grammar : Grammar) (sets : List (List String)) :
    sets.foldl addConflict grammar =
      { grammar with conflicts := grammar.conflicts ++ sets } := by
  induction sets generalizing grammar with
  | nil => simp
  | cons set rest ih =>
    rw [List.foldl_cons, ih]
    simp [addConflict]

end Grammar

namespace Notation

open Text (Shorter)

/-! ### Arguments of directives -/

/-- Where a directive or a rule starts, or nothing is left. -/
def StartsEntry (tokens : List Located) : Prop :=
  first? tokens = none ∨ (∃ name, first? tokens = some (.directive name)) ∨ atRule tokens = true

section Arguments
variable {tokens behind : List Located}

theorem StartsEntry.first? (entry : StartsEntry tokens) :
    first? tokens = none ∨ (∃ name, first? tokens = some (.directive name)) ∨
      ∃ name, first? tokens = some (.identifier name) := by
  obtain h | h | h := entry
  · exact .inl h
  · exact .inr (.inl h)
  · unfold atRule at h
    split at h
    · exact .inr (.inr ⟨_, rfl⟩)
    · cases h

theorem StartsEntry.ne_mark (entry : StartsEntry tokens) (symbol : Char) :
    Notation.first? tokens ≠ some (.mark symbol) := by
  obtain h | ⟨name, h⟩ | ⟨name, h⟩ := entry.first? <;> simp [h]

theorem StartsEntry.ne_string (entry : StartsEntry tokens) (content : String) :
    Notation.first? tokens ≠ some (.string content) := by
  obtain h | ⟨name, h⟩ | ⟨name, h⟩ := entry.first? <;> simp [h]

theorem StartsEntry.atRule_of_identifier (entry : StartsEntry tokens) {name : String}
    (first : Notation.first? tokens = some (.identifier name)) : atRule tokens = true := by
  obtain h | ⟨_, h⟩ | h := entry
  · simp [h] at first
  · simp [h] at first
  · exact h

theorem readNames_of_begins (beforeRule : Bool) {names : List String}
    (begins : Begins tokens (names.map .identifier) behind)
    (noColon : first? behind ≠ some (.mark ':'))
    (stops : ∀ name, first? behind = some (.identifier name) →
      beforeRule = true ∧ atRule behind = true) :
    (readNames beforeRule tokens).1 = names ∧ (readNames beforeRule tokens).2.1 = behind := by
  induction names generalizing tokens with
  | nil =>
    obtain rfl := begins_nil.1 begins
    rw [readNames.eq_def]
    split
    · rename_i name offset rest
      rw [if_pos (by simpa using stops name rfl)]
      exact ⟨rfl, rfl⟩
    · exact ⟨rfl, rfl⟩
  | cons name rest ih =>
    obtain ⟨between, hname, hrest⟩ := begins_cons.1 begins
    obtain ⟨offset, rfl⟩ := begins_singleton.1 hname
    have hcolon : first? between ≠ some (.mark ':') := by
      rw [hrest.first?]
      cases rest with
      | nil => exact noColon
      | cons => simp
    obtain ⟨hnames, hbehind⟩ := ih hrest
    rw [readNames, if_neg (by simp [atRule_identifier, hcolon])]
    exact ⟨congrArg (name :: ·) hnames, hbehind⟩

theorem readStrings_of_begins {texts : List String}
    (begins : Begins tokens (texts.map stringToken) behind)
    (stops : ∀ content, first? behind ≠ some (.string content)) :
    Reads (readStrings tokens) texts behind := by
  induction texts generalizing tokens with
  | nil =>
    obtain rfl := begins_nil.1 begins
    rw [readStrings.eq_def]
    split
    · rename_i content offset rest
      exact absurd rfl (stops content)
    · exact ⟨_, rfl, rfl⟩
  | cons text rest ih =>
    obtain ⟨between, htext, hrest⟩ := begins_cons.1 begins
    have hread := reads_string htext
    obtain ⟨offset, rfl⟩ := begins_singleton.1 htext
    rw [stringToken] at hread ⊢
    rw [readStrings]
    refine hread.bind fun further hfurther => ?_
    rw [← hfurther] at hrest
    exact (ih hrest).bind fun last hlast => ⟨_, rfl, hlast⟩

theorem readNameSets_of_begins {sets : List (List String)}
    (begins : Begins tokens
      (sets.flatMap fun names => inParentheses (names.map .identifier)) behind)
    (stops : first? behind ≠ some (.mark '(')) : Reads (readNameSets tokens) sets behind := by
  induction sets generalizing tokens with
  | nil =>
    obtain rfl := begins_nil.1 begins
    rw [readNameSets, afterMark?_eq_none stops]
    exact ⟨_, rfl, rfl⟩
  | cons names rest ih =>
    rw [List.flatMap_cons, inParentheses, List.cons_append, List.cons_append, List.append_assoc]
      at begins
    obtain ⟨_, hopen, hnames⟩ := begins_cons.1 begins
    obtain ⟨_, hnames, hmore⟩ := begins_append.1 hnames
    obtain ⟨_, hclose, hrest⟩ := begins_append.1 hmore
    obtain ⟨behindMark, hmark, rfl⟩ := afterMark?_of_begins hopen
    have hfirst := hclose.first?
    obtain ⟨hread, rfl⟩ := readNames_of_begins false hnames (by simp [hfirst])
      (by simp [hfirst])
    rw [readNameSets, hmark]
    refine readMark_bind hclose ?_
    rintro _ rfl
    refine (ih hrest).bind fun last hlast => ?_
    exact ⟨_, by rw [← hread]; rfl, hlast⟩

end Arguments

/-! ### Directives -/

namespace Directive
variable {source target : Grammar} {tokens behind : List Located}

theorem readNames_foldl (add : Grammar → String → Grammar) (put : List String → Grammar)
    (hadd : ∀ held name, add (put held) name = put (insertName held name)) {names : List String}
    (once : names.Nodup) (fresh : put [] = target)
    (begins : Begins tokens (names.map .identifier) behind) (entry : StartsEntry behind) :
    Reads (.ok ((readNames true tokens).1.foldl add target, (readNames true tokens).2))
      (put names) behind := by
  obtain ⟨hnames, hbehind⟩ := readNames_of_begins true begins (entry.ne_mark ':')
    fun _ h => ⟨rfl, entry.atRule_of_identifier h⟩
  refine ⟨(readNames true tokens).2, ?_, hbehind⟩
  rw [hnames, ← fresh, foldl_put add put hadd once]

theorem readDirective_sync (once : source.sync.Nodup)
    (fresh : copy (Grammar.empty "grammar") target sync = target) (whole : List Located)
    (begins : Begins tokens (source.sync.map stringToken) behind) (entry : StartsEntry behind) :
    Reads (readDirective "sync" whole tokens target) (copy source target sync) behind := by
  have hfold : source.sync.foldl Grammar.addSync target = copy source target sync := by
    rw [← fresh]
    exact foldl_put Grammar.addSync (fun texts => { target with sync := texts }) (fun _ _ => rfl)
      once
  exact (readStrings_of_begins begins entry.ne_string).bind fun last hlast =>
    ⟨last, by rw [← hfold]; rfl, hlast⟩

theorem readDirective_conflicts
    (fresh : copy (Grammar.empty "grammar") target conflicts = target) (whole : List Located)
    (begins : Begins tokens
      (source.conflicts.flatMap fun names => inParentheses (names.map .identifier)) behind)
    (entry : StartsEntry behind) :
    Reads (readDirective "conflicts" whole tokens target) (copy source target conflicts)
      behind := by
  have hfold : source.conflicts.foldl Grammar.addConflict target =
      copy source target conflicts := by
    rw [← fresh, Grammar.foldl_addConflict]
    rfl
  exact (readNameSets_of_begins begins (entry.ne_mark '(')).bind fun last hlast =>
    ⟨last, by rw [← hfold]; rfl, hlast⟩

theorem readDirective_endMarkers (whole : List Located)
    (begins : Begins tokens [stringToken (String.ofList source.endMarkers)] behind)
    (entry : StartsEntry behind) :
    Reads (readDirective "end_markers" whole tokens target) (copy source target endMarkers)
      behind := by
  have hread : Reads (readStrings tokens) [String.ofList source.endMarkers] behind :=
    readStrings_of_begins begins entry.ne_string
  have hmarkers : [String.ofList source.endMarkers].flatMap String.toList = source.endMarkers := by
    simp
  exact hread.bind fun last hlast => ⟨last, by simp only [hmarkers]; rfl, hlast⟩

/-- **A directive sets** what it took from a grammar. -/
theorem reads_of_arguments (once : source.HoldsOnce) (directive : Directive)
    (fresh : directive.copy (Grammar.empty "grammar") target = target) (whole : List Located)
    {arguments : List Token} (given : directive.arguments? source = some arguments)
    (begins : Begins tokens arguments behind) (entry : StartsEntry behind) :
    Reads (readDirective directive.spelling whole tokens target) (directive.copy source target)
      behind := by
  cases directive with
  | name =>
    obtain rfl := Option.some.inj given
    have hread := reads_string begins
    obtain ⟨offset, rfl⟩ := begins_singleton.1 begins
    exact hread.bind fun last hlast => ⟨Shorter.notLonger last, rfl, hlast⟩
  | start =>
    obtain ⟨rule, hrule, rfl⟩ := Option.map_eq_some_iff.1 given
    refine (reads_identifier begins).bind fun last hlast => ⟨Shorter.notLonger last, ?_, hlast⟩
    rw [copy, hrule]
    rfl
  | word =>
    obtain ⟨rule, hrule, rfl⟩ := Option.map_eq_some_iff.1 given
    refine (reads_identifier begins).bind fun last hlast => ⟨Shorter.notLonger last, ?_, hlast⟩
    rw [copy, hrule]
    rfl
  | extras =>
    obtain rfl := Option.some.inj given
    exact readNames_foldl Grammar.markExtra (fun names => { target with extras := names })
      (fun _ _ => rfl) once.extras fresh begins entry
  | hidden =>
    obtain rfl := Option.some.inj given
    exact readNames_foldl Grammar.markHidden (fun names => { target with hidden := names })
      (fun _ _ => rfl) once.hidden fresh begins entry
  | sync =>
    obtain rfl := Option.some.inj given
    exact readDirective_sync once.sync fresh whole begins entry
  | conflicts =>
    obtain rfl := Option.some.inj given
    exact readDirective_conflicts fresh whole begins entry
  | endMarkers =>
    obtain rfl := Option.some.inj given
    exact readDirective_endMarkers whole begins entry

/-- A grammar has what a directive sets, or the directive is not written. -/
theorem copy_of_arguments?_eq_none {directive : Directive}
    (none_ : directive.arguments? source = none)
    (fresh : directive.copy (Grammar.empty "grammar") target = target) :
    directive.copy source target = target := by
  cases directive with
  | start | word =>
    have hmissing := Option.map_eq_none_iff.1 none_
    rw [← fresh]
    simp only [copy, hmissing, Grammar.empty]
  | _ => cases none_

/-- Two directives set different things. -/
theorem copy_comm (source other target : Grammar) {first second : Directive}
    (different : first ≠ second) :
    first.copy source (second.copy other target) =
      second.copy other (first.copy source target) := by
  cases first <;> cases second <;> first | rfl | exact absurd rfl different

/-- A directive with its arguments starts an entry, if it is written. -/
theorem startsEntry {directive : Directive}
    (begins : Begins tokens (directive.tokens source) behind) (entry : StartsEntry behind) :
    StartsEntry tokens := by
  unfold Directive.tokens at begins
  split at begins
  · exact .inr (.inl ⟨_, begins.first?⟩)
  · obtain rfl := begins_nil.1 begins
    exact entry

theorem startsEntry_flatMap {directives : List Directive}
    (begins : Begins tokens (directives.flatMap (Directive.tokens source)) behind)
    (entry : StartsEntry behind) : StartsEntry tokens := by
  induction directives generalizing tokens with
  | nil =>
    obtain rfl := begins_nil.1 begins
    exact entry
  | cons directive rest ih =>
    obtain ⟨between, hdirective, hrest⟩ := begins_append.1 begins
    exact startsEntry hdirective (ih hrest)

/-- Reading on after a directive. -/
theorem readGrammar_directive (once : source.HoldsOnce) {directive : Directive}
    (fresh : directive.copy (Grammar.empty "grammar") target = target)
    (begins : Begins tokens (directive.tokens source) behind) (entry : StartsEntry behind) :
    readGrammar target tokens = readGrammar (directive.copy source target) behind := by
  unfold Directive.tokens at begins
  split at begins
  · rename_i arguments given
    obtain ⟨inside, hname, harguments⟩ := begins_cons.1 begins
    obtain ⟨offset, rfl⟩ := begins_singleton.1 hname
    obtain ⟨rest, hread, rfl⟩ := reads_of_arguments once directive fresh
      (⟨.directive directive.spelling, offset⟩ :: inside) given harguments entry
    rw [readGrammar, hread]
    rfl
  · rename_i missing
    obtain rfl := begins_nil.1 begins
    rw [copy_of_arguments?_eq_none missing fresh]

/-- **Directives** are read one after the other, in any order. -/
theorem readGrammar_directives (once : source.HoldsOnce) {directives : List Directive}
    (distinct : directives.Nodup)
    (fresh : ∀ directive ∈ directives, directive.copy (Grammar.empty "grammar") target = target)
    (begins : Begins tokens (directives.flatMap (Directive.tokens source)) behind)
    (entry : StartsEntry behind) :
    readGrammar target tokens =
      readGrammar (directives.foldl (fun held directive => directive.copy source held) target)
        behind := by
  induction directives generalizing target tokens with
  | nil =>
    obtain rfl := begins_nil.1 begins
    rfl
  | cons directive rest ih =>
    obtain ⟨between, hdirective, hrest⟩ := begins_append.1 begins
    rw [readGrammar_directive once (fresh directive (.head _)) hdirective
      (startsEntry_flatMap hrest entry)]
    refine ih (List.nodup_cons.1 distinct).2 (fun other hother => ?_) hrest
    have hne : other ≠ directive := by
      rintro rfl
      exact (List.nodup_cons.1 distinct).1 hother
    rw [copy_comm _ _ _ hne, fresh other (.tail _ hother)]

/-- All directives together set everything but the rules. -/
theorem foldl_copy {directives : List Directive} (complete : directives.Perm all)
    (source : Grammar) :
    directives.foldl (fun held directive => directive.copy source held)
      (Grammar.empty "grammar") = { source with rules := [] } := by
  refine (complete.foldl_eq' (fun first _ second _ held => ?_) _).trans rfl
  by_cases hsame : first = second
  · rw [hsame]
  · exact copy_comm source source held fun h => hsame h.symm

end Directive

/-! ### Rules -/

section Rules
variable {layout : Layout} {grammar : Grammar} {tokens behind : List Located}

theorem reads_definition {name : String} {body : Expression} (trips : RoundTrips layout body)
    (begins : Begins tokens (.mark ':' :: bodyTokens layout body ++ [.mark ';']) behind) :
    Reads (readDefinition name tokens grammar)
      { grammar with rules := grammar.rules ++ [(name, body)] } behind := by
  rw [List.cons_append] at begins
  obtain ⟨_, hcolon, hrest⟩ := begins_cons.1 begins
  obtain ⟨_, hbody, hend⟩ := begins_append.1 hrest
  rw [readDefinition]
  refine readMark_bind hcolon ?_
  rintro _ rfl
  refine (trips.body _ _ hbody (.inr hend.first?)).bind ?_
  rintro _ rfl
  exact readMark_bind hend fun last hlast => ⟨_, rfl, hlast⟩

theorem readGrammar_rule {name : String} {body : Expression} (free : name ∉ grammar.rules.map (·.1))
    (trips : RoundTrips layout body)
    (begins : Begins tokens (ruleTokens layout name body) behind) :
    readGrammar grammar tokens =
      readGrammar { grammar with rules := grammar.rules ++ [(name, body)] } behind := by
  obtain ⟨between, hname, hdefinition⟩ := begins_cons.1 begins
  obtain ⟨offset, rfl⟩ := begins_singleton.1 hname
  obtain ⟨rest, hread, rfl⟩ := reads_definition trips hdefinition
  have hfree : grammar.declares name = false := by
    have hnone : grammar.rules.lookup name = none := List.lookup_eq_none_iff.2 fun rule hrule =>
      bne_iff_ne.2 fun heq => free (List.mem_map.2 ⟨rule, hrule, heq.symm⟩)
    rw [Grammar.declares, Grammar.rule?, hnone]
    rfl
  rw [readGrammar, if_neg (by simp [hfree]), hread]
  rfl

/-- **Rules** are read one after the other. -/
theorem readGrammar_rules {rules : List (String × Expression)}
    (distinct : ((grammar.rules ++ rules).map (·.1)).Nodup)
    (trip : ∀ rule ∈ rules, RoundTrips layout rule.2)
    (begins : Begins tokens (rulesTokens layout rules) behind) :
    readGrammar grammar tokens =
      readGrammar { grammar with rules := grammar.rules ++ rules } behind := by
  induction rules generalizing grammar tokens with
  | nil =>
    obtain rfl := begins_nil.1 begins
    rw [List.append_nil]
  | cons rule rest ih =>
    obtain ⟨name, body⟩ := rule
    obtain ⟨between, hrule, hrest⟩ := begins_append.1 begins
    have hfree : name ∉ grammar.rules.map (·.1) := by
      rw [List.map_append] at distinct
      exact fun hmem => (List.nodup_append.1 distinct).2.2 name hmem name (.head _) rfl
    rw [readGrammar_rule hfree (trip _ (.head _)) hrule,
      ih (by simpa using distinct) (fun rule hrule => trip rule (.tail _ hrule)) hrest]
    simp only [List.append_assoc, List.singleton_append]

theorem startsEntry_rulesTokens {rules : List (String × Expression)}
    (begins : Begins tokens (rulesTokens layout rules) []) : StartsEntry tokens := by
  cases rules with
  | nil =>
    obtain rfl := begins_nil.1 begins
    exact .inl rfl
  | cons rule rest =>
    obtain ⟨_, hrule, -⟩ := begins_append.1 begins
    obtain ⟨_, hname, hmore⟩ := begins_cons.1 hrule
    obtain ⟨offset, rfl⟩ := begins_singleton.1 hname
    exact .inr (.inr (by simp [atRule_identifier, hmore.first?]))

end Rules

/-- Reading the tokens for a grammar gives that grammar. -/
theorem readGrammar_grammarTokens {layout : Layout} (readable : layout.IsReadable)
    {directives : List Directive} (complete : directives.Perm Directive.all) {grammar : Grammar}
    (once : grammar.HoldsOnce) (expressible : ∀ rule ∈ grammar.rules, rule.2.isExpressible = true)
    {tokens : List Located}
    (written : tokens.map (·.token) = grammarTokens layout directives grammar) :
    readGrammar (Grammar.empty "grammar") tokens = .ok grammar := by
  have hbegins : Begins tokens (grammarTokens layout directives grammar) [] :=
    ⟨tokens, written, (List.append_nil _).symm⟩
  obtain ⟨between, hdirectives, hrules⟩ := begins_append.1 hbegins
  have hdistinct : directives.Nodup := complete.nodup_iff.2 (by decide)
  have hfresh : ∀ directive ∈ directives,
      directive.copy (Grammar.empty "grammar") (Grammar.empty "grammar") =
        Grammar.empty "grammar" := by
    intro directive _
    cases directive <;> rfl
  calc readGrammar (Grammar.empty "grammar") tokens
    _ = readGrammar { grammar with rules := [] } between := by
      rw [Directive.readGrammar_directives once hdistinct hfresh hdirectives
        (startsEntry_rulesTokens hrules), Directive.foldl_copy complete]
    _ = readGrammar grammar [] :=
      readGrammar_rules once.rules
        (fun rule hrule => roundTrips readable rule.2 (expressible rule hrule)) hrules
    _ = .ok grammar := by rw [readGrammar]

/-- **Grammars round trip**: a grammar that was written down is read back, whatever the order of
its directives, if its start rule was written too. -/
theorem parse_grammarTokens {layout : Layout} (readable : layout.IsReadable)
    {directives : List Directive} (complete : directives.Perm Directive.all) {grammar : Grammar}
    (once : grammar.HoldsOnce) (start : grammar.start.isSome = true)
    (expressible : ∀ rule ∈ grammar.rules, rule.2.isExpressible = true) {tokens : List Located}
    (written : tokens.map (·.token) = grammarTokens layout directives grammar) :
    parse tokens = .ok grammar := by
  rw [parse, readGrammar_grammarTokens readable complete once expressible written]
  simp only [bind, Except.bind, start, if_true]
  rfl

/-- A grammar that refers to a rule `token` in front of a sequence. -/
def builtinNamed : Grammar where
  name := "pair"
  rules := [("pair", .seq [.reference "token", .seq [.literal "a", .pattern "b/"]]),
    ("token", .choice [.literal "\"", .blank])]
  start := some "pair"
  extras := ["token"]
  hidden := []
  word := none
  sync := [";"]
  conflicts := [["pair", "token"], []]
  endMarkers := ['$']

/-- The tokens for `builtinNamed`, as if all stood at one place. -/
def builtinNamedTokens (guarded : Bool) : List Located :=
  (grammarTokens { Layout.plain with guarded } Directive.all builtinNamed).map fun token =>
    ⟨token, 0⟩

theorem map_token_builtinNamedTokens (guarded : Bool) :
    (builtinNamedTokens guarded).map (·.token) =
      grammarTokens { Layout.plain with guarded } Directive.all builtinNamed := by
  rw [builtinNamedTokens, List.map_map]
  exact List.map_id _

theorem holdsOnce_builtinNamed : builtinNamed.HoldsOnce := by
  constructor <;> decide

theorem isExpressible_builtinNamed :
    ∀ rule ∈ builtinNamed.rules, rule.2.isExpressible = true := by
  decide

theorem parse_builtinNamed : parse (builtinNamedTokens true) = .ok builtinNamed :=
  have hreadable : { Layout.plain with guarded := true }.IsReadable := ⟨fun _ h => h, rfl⟩
  parse_grammarTokens hreadable (.refl _) holdsOnce_builtinNamed rfl isExpressible_builtinNamed
    (map_token_builtinNamedTokens true)

/-- What is read if the reference is not in parentheses: a token of the sequence. -/
def builtinCalled : Grammar :=
  { builtinNamed with
    rules := [("pair", .token (.seq [.literal "a", .pattern "b/"])),
      ("token", .choice [.literal "\"", .blank])] }

/-- Without parentheses around the reference, the tokens are those of a call. -/
theorem builtinNamedTokens_false :
    (builtinNamedTokens false).map (·.token) =
      grammarTokens ⟨Expression.isComposite, fun _ => false, true⟩ Directive.all builtinCalled := by
  rw [map_token_builtinNamedTokens]
  rfl

theorem parse_builtinNamed_unguarded :
    builtinNamed.HoldsOnce ∧ builtinNamed.start.isSome = true ∧
      (∀ rule ∈ builtinNamed.rules, rule.2.isExpressible = true) ∧
      (builtinNamedTokens false).map (·.token) =
        grammarTokens Layout.plain Directive.all builtinNamed ∧
      parse (builtinNamedTokens false) ≠ .ok builtinNamed := by
  refine ⟨holdsOnce_builtinNamed, rfl, isExpressible_builtinNamed,
    map_token_builtinNamedTokens false, fun h => ?_⟩
  have hread : readGrammar (Grammar.empty "grammar") (builtinNamedTokens false) =
      .ok builtinCalled :=
    readGrammar_grammarTokens ⟨fun _ h => h, rfl⟩ (.refl _) (by constructor <;> decide) (by decide)
      builtinNamedTokens_false
  rw [parse, hread] at h
  have hsame : builtinCalled = builtinNamed := Except.ok.inj h
  exact absurd hsame (by decide)

end Notation

end Syntagm
