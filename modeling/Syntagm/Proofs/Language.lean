import Syntagm.Proofs.Climbing
import Syntagm.Proofs.Generation

/-!
# Lowering keeps the language

The rules of a grammar that are no terminals are the rules of a context-free grammar over kinds
of tokens, and so is the program they are lowered to.  In a grammar a reference stands for what
the body of its rule produces (`Expression.Produces`); in a program a call stands for what the
rule produces, and a rule that was split produces one match of its base and then any number of
matches of its tails (`Program.Produces`).  Neither knows of levels: a call produces the same
with any bound.

Both are least fixpoints, and they are compared by induction on either.  What links them is
which expressions a part of a program is for (`Phrase.For`).  From the program to the grammar
this is all there is to say, since a tail behind a match of its rule makes one of the
alternatives of the body.  Back from the grammar, a body is taken apart into alternatives first:
one that begins with the rule itself adds a tail to what the reference stands for, every other
one is a match of the base (`Program.Carries.seqCons`).
-/

namespace Syntagm

/-! ### The language of a grammar -/

/-- **What an expression produces**: sequences of kinds of tokens.  `rules` are the rules that are
no terminals. -/
inductive Expression.Produces (lexicon : Lexicon) (rules : List (String × Expression)) :
    Expression → List Kind → Prop where
  /-- A text in a rule stands for one token of its kind. -/
  | literal {text kind} (means : lexicon.literal? text = some kind) :
      Produces lexicon rules (.literal text) [kind]
  /-- So does a terminal that is written out. -/
  | terminal {expression kind} (alone : expression.isTerminal = true)
      (means : lexicon.inline? expression = some kind) : Produces lexicon rules expression [kind]
  /-- So does a reference to a token rule. -/
  | tokenRule {name kind} (other : name ∉ rules.map (·.1))
      (means : lexicon.named? name = some kind) : Produces lexicon rules (.reference name) [kind]
  /-- A reference to any other rule stands for what its body produces. -/
  | rule {name body word} (declared : (name, body) ∈ rules)
      (expansion : Produces lexicon rules body word) :
      Produces lexicon rules (.reference name) word
  | seqNil : Produces lexicon rules (.seq []) []
  | seqCons {first rest word others} (head : Produces lexicon rules first word)
      (tail : Produces lexicon rules (.seq rest) others) :
      Produces lexicon rules (.seq (first :: rest)) (word ++ others)
  | choice {alternatives alternative word} (mem : alternative ∈ alternatives)
      (one : Produces lexicon rules alternative word) :
      Produces lexicon rules (.choice alternatives) word
  | repetitionNil {inner} : Produces lexicon rules (.repetition 0 inner) []
  | repetitionCons {least inner word others} (head : Produces lexicon rules inner word)
      (tail : Produces lexicon rules (.repetition (least - 1) inner) others) :
      Produces lexicon rules (.repetition least inner) (word ++ others)
  | optionalNone {inner} : Produces lexicon rules (.optional inner) []
  | optionalSome {inner word} (one : Produces lexicon rules inner word) :
      Produces lexicon rules (.optional inner) word
  | blank : Produces lexicon rules .blank []
  | precedence {level associativity inner word} (one : Produces lexicon rules inner word) :
      Produces lexicon rules (.precedence level associativity inner) word

/-! ### The language of a program -/

/-- A part of a program that produces something. -/
inductive Phrase where
  | op (number : Nat)
  /-- All of these operations, one after the other. -/
  | all (items : List Nat)
  /-- An operation over and over, at least `least` times. -/
  | many (least inner : Nat)
  | rule (number : Nat)

/-- **What a part of a program produces.** -/
inductive Program.Produces (program : Program) : Phrase → List Kind → Prop where
  | token {op kind} (found : program.ops[op]? = some (.token kind)) :
      Produces program (.op op) [kind]
  | seq {op items word} (found : program.ops[op]? = some (.seq items))
      (all : Produces program (.all items) word) : Produces program (.op op) word
  | choice {op alternatives alternative word}
      (found : program.ops[op]? = some (.choice alternatives)) (mem : alternative ∈ alternatives)
      (one : Produces program (.op alternative) word) : Produces program (.op op) word
  | repetition {op least inner word}
      (found : program.ops[op]? = some (.repetition least inner))
      (many : Produces program (.many least inner) word) : Produces program (.op op) word
  | optionalNone {op inner} (found : program.ops[op]? = some (.optional inner)) :
      Produces program (.op op) []
  | optionalSome {op inner word} (found : program.ops[op]? = some (.optional inner))
      (one : Produces program (.op inner) word) : Produces program (.op op) word
  | blank {op} (found : program.ops[op]? = some .blank) : Produces program (.op op) []
  /-- A call produces what its rule does, whatever its bound is. -/
  | call {op number bound word} (found : program.ops[op]? = some (.call number bound))
      (one : Produces program (.rule number) word) : Produces program (.op op) word
  | allNil : Produces program (.all []) []
  | allCons {first rest word others} (head : Produces program (.op first) word)
      (tail : Produces program (.all rest) others) :
      Produces program (.all (first :: rest)) (word ++ others)
  | manyNil {inner} : Produces program (.many 0 inner) []
  | manyCons {least inner word others} (head : Produces program (.op inner) word)
      (tail : Produces program (.many (least - 1) inner) others) :
      Produces program (.many least inner) (word ++ others)
  | plain {number rule op word} (lookup : program.rules[number]? = some rule)
      (body : rule.body = .plain op) (one : Produces program (.op op) word) :
      Produces program (.rule number) word
  /-- A rule that was split produces what its base does, -/
  | base {number rule base tails word} (lookup : program.rules[number]? = some rule)
      (body : rule.body = .leftRecursive base tails) (one : Produces program (.op base) word) :
      Produces program (.rule number) word
  /-- and any number of tails behind it. -/
  | tail {number rule base tails tail word others} (lookup : program.rules[number]? = some rule)
      (body : rule.body = .leftRecursive base tails)
      (shorter : Produces program (.rule number) word) (mem : tail ∈ tails)
      (one : Produces program (.op tail.op) others) :
      Produces program (.rule number) (word ++ others)

/-! ### What a part of a program is for -/

/-- **The expressions that a part of a program is for.** -/
inductive Phrase.For (lexicon : Lexicon) (names : List String) (ops : Array (Op Nat)) :
    Phrase → Expression → Prop where
  | op {number expression} (implements : Implements lexicon names ops number expression) :
      For lexicon names ops (.op number) expression
  | all {parts items} (implement : ImplementsAll lexicon names ops parts items) :
      For lexicon names ops (.all parts) (.seq items)
  | many {least part inner} (implements : Implements lexicon names ops part inner) :
      For lexicon names ops (.many least part) (.repetition least inner)
  | rule {number name expression} (named : names[number]? = some name)
      (refers : expression.refersTo name = true) : For lexicon names ops (.rule number) expression

/-- **A program has the rules of a grammar**, which are told apart by their names. -/
structure Program.Has (program : Program) (lexicon : Lexicon)
    (declared : List (String × Expression)) : Prop where
  unique : (declared.map (·.1)).Nodup
  rules : ∀ number name body, declared[number]? = some (name, body) →
    ∃ rule, program.rules[number]? = some rule ∧ rule.name = name ∧
      LoweringScope.ImplementsBody ⟨lexicon, declared.map (·.1), number, name⟩ program.ops body
        rule.body

/-- **A rule was split** into a base and tails, which are made of the alternatives of its body. -/
structure Program.Splits (program : Program) (lexicon : Lexicon) (names : List String)
    (number : Nat) (name : String) (body : Expression) (base : Nat) (tails : List Tail) : Prop where
  named : names[number]? = some name
  rule : ∃ rule, program.rules[number]? = some rule ∧ rule.body = .leftRecursive base tails
  bases : Implements lexicon names program.ops base
    (.choice (((body.alternatives 0 .none).filter (!·.isTail name)).map (·.expression)))
  others : List.Forall₂ (LoweringScope.TailOf ⟨lexicon, names, number, name⟩ program.ops) tails
    ((body.alternatives 0 .none).filter (·.isTail name))

/-- **What an expression produces, the program produces**: each part that is for the expression,
and each rule that was split and has its alternatives. -/
structure Program.Carries (program : Program) (lexicon : Lexicon) (names : List String)
    (expression : Expression) (word : List Kind) : Prop where
  parts : ∀ phrase : Phrase, phrase.For lexicon names program.ops expression →
    program.Produces phrase word
  alternatives : ∀ {number : Nat} {name : String} {body : Expression} {base : Nat}
    {tails : List Tail} {level : Int} {associativity : Associativity},
    program.Splits lexicon names number name body base tails →
      expression.alternatives level associativity ⊆ body.alternatives 0 .none →
        program.Produces (.rule number) word

section Language
variable {lexicon : Lexicon} {declared : List (String × Expression)} {program : Program}
  {word others : List Kind} {expression : Expression}

namespace Expression.Produces

theorem seq_single {item : Expression} (h : Produces lexicon declared item word) :
    Produces lexicon declared (.seq [item]) word := by
  have := seqCons h .seqNil
  rwa [List.append_nil] at this

theorem of_refersTo {name : String} (refers : expression.refersTo name = true)
    (h : Produces lexicon declared (.reference name) word) :
    Produces lexicon declared expression word :=
  Expression.of_refersTo (motive := (Produces lexicon declared · word)) h
    (fun _ _ _ => .precedence) expression refers

/-- A reference to a rule produces nothing but what its body produces. -/
theorem of_reference (unique : (declared.map (·.1)).Nodup) {name : String} {body : Expression}
    (mem : (name, body) ∈ declared) (h : Produces lexicon declared (.reference name) word) :
    Produces lexicon declared body word := by
  cases h with
  | terminal alone => cases alone
  | tokenRule other => exact absurd (List.mem_map_of_mem mem) other
  | rule mem' expansion =>
    obtain ⟨-, rfl⟩ := Prod.mk.inj (List.inj_on_of_nodup_map unique mem' mem rfl)
    exact expansion

/-- The alternative that a tail is made of produces what stands behind the reference to its own
rule, after what that reference produces. -/
theorem of_isTail {name : String} {alternative : Alternative}
    (tail : alternative.isTail name = true)
    (self : Produces lexicon declared (.reference name) word)
    (rest : Produces lexicon declared (.seq alternative.afterReference) others) :
    Produces lexicon declared alternative.expression (word ++ others) := by
  rcases Alternative.cases_of_isTail tail with ⟨first, refers, heq⟩ | ⟨refers, hnone⟩
  · rw [heq]
    exact .seqCons (of_refersTo refers self) rest
  · rw [hnone] at rest
    cases rest with
    | terminal alone => cases alone
    | seqNil =>
      rw [List.append_nil]
      exact of_refersTo refers self

end Expression.Produces

theorem Expression.Passes.produces :
    Expression.Passes (Expression.Produces lexicon declared · word) :=
  ⟨fun _ _ _ => .precedence, fun _ _ => .choice, fun _ => .seq_single⟩

theorem Expression.Produces.of_choice {alternatives : List Expression}
    (h : Produces lexicon declared (.choice alternatives) word) :
    ∃ alternative ∈ alternatives, Produces lexicon declared alternative word := by
  cases h with
  | terminal alone => cases alone
  | choice mem one => exact ⟨_, mem, one⟩

/-! ### From the program to the grammar -/

/-- What holds for the body of a rule holds for references to it. -/
theorem Phrase.For.produces_of_body {ops : Array (Op Nat)} {number : Nat}
    (body : ∀ name body, declared[number]? = some (name, body) →
      body.Produces lexicon declared word)
    (h : Phrase.For lexicon (declared.map (·.1)) ops (.rule number) expression) :
    expression.Produces lexicon declared word := by
  cases h with
  | rule named refers =>
    rw [List.getElem?_map] at named
    obtain ⟨⟨name, expansion⟩, hentry, rfl⟩ := Option.map_eq_some_iff.mp named
    exact .of_refersTo refers (.rule (List.mem_of_getElem? hentry) (body name expansion hentry))

/-- **What a part of the program produces, the expressions produce that it is for.** -/
theorem Program.Produces.produces_of_for (has : program.Has lexicon declared) {phrase : Phrase}
    (h : program.Produces phrase word) :
    ∀ expression, phrase.For lexicon (declared.map (·.1)) program.ops expression →
      expression.Produces lexicon declared word := by
  induction h with
  | token found =>
    rintro expression ⟨implements⟩
    refine implements.of_means .produces found ?_
    rintro expression (⟨text, rfl, means⟩ | ⟨alone, means⟩ | ⟨name, rfl, other, means⟩)
    · exact .literal means
    · exact .terminal alone means
    · exact .tokenRule (List.idxOf?_eq_none_iff.mp other) means
  | seq found _ ih =>
    rintro expression ⟨implements⟩
    refine implements.of_means .produces found ?_
    rintro expression ⟨items, rfl, all⟩
    exact ih _ (.all all)
  | choice found mem _ ih =>
    rintro expression ⟨implements⟩
    refine implements.of_means .produces found ?_
    rintro expression ⟨alternatives, rfl, all⟩
    obtain ⟨one, hone, himplements⟩ := all.exists_of_mem mem
    exact .choice hone (ih one (.op himplements))
  | repetition found _ ih =>
    rintro expression ⟨implements⟩
    refine implements.of_means .produces found ?_
    rintro expression ⟨inner, rfl, one⟩
    exact ih _ (.many one)
  | optionalNone found =>
    rintro expression ⟨implements⟩
    refine implements.of_means .produces found ?_
    rintro expression ⟨inner, rfl, -⟩
    exact .optionalNone
  | optionalSome found _ ih =>
    rintro expression ⟨implements⟩
    refine implements.of_means .produces found ?_
    rintro expression ⟨inner, rfl, one⟩
    exact .optionalSome (ih inner (.op one))
  | blank found =>
    rintro expression ⟨implements⟩
    refine implements.of_means .produces found ?_
    rintro expression (rfl | rfl)
    · exact .seqNil
    · exact .blank
  | call found _ ih =>
    rintro expression ⟨implements⟩
    refine implements.of_means .produces found ?_
    rintro expression ⟨name, rfl, named⟩
    exact ih _ (.rule named (by simp [Expression.refersTo, Expression.withoutPrecedence]))
  | allNil =>
    intro expression hfor
    cases hfor with
    | all implement =>
      cases implement
      exact .seqNil
  | allCons _ _ ih ih' =>
    intro expression hfor
    cases hfor with
    | all implement =>
      rcases implement with _ | ⟨head, rest⟩
      exact .seqCons (ih _ (.op head)) (ih' _ (.all rest))
  | manyNil =>
    intro expression hfor
    cases hfor with
    | many => exact .repetitionNil
  | manyCons _ _ ih ih' =>
    intro expression hfor
    cases hfor with
    | many implements => exact .repetitionCons (ih _ (.op implements)) (ih' _ (.many implements))
  | plain lookup body _ ih =>
    intro expression hfor
    refine hfor.produces_of_body fun name declared' hentry => ?_
    obtain ⟨rule, hrule, -, himplements⟩ := has.rules _ _ _ hentry
    obtain rfl := Option.some.inj (lookup.symm.trans hrule)
    rw [body] at himplements
    cases himplements with
    | plain whole => exact ih _ (.op whole)
  | base lookup body _ ih =>
    intro expression hfor
    refine hfor.produces_of_body fun name declared' hentry => ?_
    obtain ⟨rule, hrule, -, himplements⟩ := has.rules _ _ _ hentry
    obtain rfl := Option.some.inj (lookup.symm.trans hrule)
    rw [body] at himplements
    cases himplements with
    | leftRecursive bases =>
      obtain ⟨one, hone, hproduces⟩ := (ih _ (.op bases)).of_choice
      obtain ⟨alternative, halternative, rfl⟩ := List.mem_map.mp hone
      exact Expression.of_alternative .produces _ (List.mem_filter.mp halternative).1 hproduces
  | tail lookup body _ mem _ ih ih' =>
    intro expression hfor
    refine hfor.produces_of_body fun name declared' hentry => ?_
    obtain ⟨rule, hrule, -, himplements⟩ := has.rules _ _ _ hentry
    obtain rfl := Option.some.inj (lookup.symm.trans hrule)
    rw [body] at himplements
    cases himplements with
    | leftRecursive _ others =>
      obtain ⟨alternative, halternative, htail⟩ := exists_of_forall₂ others mem
      obtain ⟨halternative, hisTail⟩ := List.mem_filter.mp halternative
      -- what the rule has produced is what the reference in front of the tail stands for
      have hself := ih (.reference name) (.rule (by rw [List.getElem?_map, hentry]; rfl)
        (by simp [Expression.refersTo, Expression.withoutPrecedence]))
      exact Expression.of_alternative .produces _ halternative
        (.of_isTail hisTail hself (ih' _ (.op htail.means)))

/-! ### From the grammar to the program -/

/-- An operation for a choice produces what the operations for its alternatives do. -/
theorem Implements.produces_choice {names : List String} {op : Nat}
    {alternatives : List Expression}
    (implements : Implements lexicon names program.ops op (.choice alternatives))
    (mem : expression ∈ alternatives)
    (one : ∀ op, Implements lexicon names program.ops op expression →
      program.Produces (.op op) word) : program.Produces (.op op) word := by
  cases implements with
  | terminal _ alone => cases alone
  | choiceSingle alternative =>
    obtain rfl := List.mem_singleton.mp mem
    exact one op alternative
  | choice found all =>
    obtain ⟨part, hpart, himplements⟩ := all.exists_part mem
    exact .choice found hpart (one part himplements)

namespace Program

variable {names : List String}

/-- A rule that was split produces what its base does, so what an alternative does that does not
begin with the rule itself. -/
theorem Splits.produces_base {number : Nat} {name : String} {body : Expression} {base : Nat}
    {tails : List Tail} (splits : program.Splits lexicon names number name body base tails)
    {alternative : Alternative} (mem : alternative ∈ body.alternatives 0 .none)
    (other : alternative.isTail name = false)
    (one : ∀ op, Implements lexicon names program.ops op alternative.expression →
      program.Produces (.op op) word) : program.Produces (.rule number) word := by
  obtain ⟨rule, lookup, hbody⟩ := splits.rule
  exact .base lookup hbody
    (splits.bases.produces_choice
      (List.mem_map_of_mem (List.mem_filter.mpr ⟨mem, by simp [other]⟩)) one)

/-- **An expression that is one alternative**, and no sequence that might begin with a rule. -/
theorem Carries.of_alone
    (alone : ∀ level associativity,
      expression.alternatives level associativity = [⟨expression, level, associativity⟩])
    (single : ∀ first rest, expression ≠ .seq (first :: rest))
    (parts : ∀ phrase : Phrase, phrase.For lexicon names program.ops expression →
      program.Produces phrase word) : program.Carries lexicon names expression word := by
  refine ⟨parts, ?_⟩
  intro number name body base tails level associativity splits inside
  have mem : ⟨expression, level, associativity⟩ ∈ body.alternatives 0 .none :=
    inside (by rw [alone]; exact List.mem_singleton.mpr rfl)
  by_cases htail : Alternative.isTail name ⟨expression, level, associativity⟩ = true
  · rcases Alternative.cases_of_isTail htail with ⟨_, _, heq⟩ | ⟨refers, -⟩
    · exact absurd heq (single _ _)
    · exact parts _ (.rule splits.named refers)
  · exact splits.produces_base mem (Bool.eq_false_iff.mpr htail) fun op h => parts _ (.op h)

end Program

/-- **What a body produces, its rule produces.** -/
theorem Program.Has.produces_of_body (has : program.Has lexicon declared) {number : Nat}
    {name : String} {body : Expression} (entry : declared[number]? = some (name, body))
    (carries : program.Carries lexicon (declared.map (·.1)) body word) :
    program.Produces (.rule number) word := by
  obtain ⟨rule, lookup, -, himplements⟩ := has.rules _ _ _ entry
  cases hbody : rule.body with
  | plain op =>
    rw [hbody] at himplements
    cases himplements with
    | plain whole => exact .plain lookup hbody (carries.parts _ (.op whole))
  | leftRecursive base tails =>
    rw [hbody] at himplements
    cases himplements with
    | leftRecursive bases others =>
      have named : (declared.map (·.1))[number]? = some name := by
        rw [List.getElem?_map, entry]
        rfl
      exact carries.alternatives ⟨named, ⟨rule, lookup, hbody⟩, bases, others⟩ fun _ h => h

/-- A rule of this name that has this body stands where the name stands. -/
theorem getElem?_of_named (unique : (declared.map (·.1)).Nodup) {number : Nat} {name : String}
    {body : Expression} (mem : (name, body) ∈ declared)
    (named : (declared.map (·.1))[number]? = some name) :
    declared[number]? = some (name, body) := by
  rw [List.getElem?_map] at named
  obtain ⟨⟨name, other⟩, hentry, rfl⟩ := Option.map_eq_some_iff.mp named
  rw [hentry]
  exact congrArg some (List.inj_on_of_nodup_map unique (List.mem_of_getElem? hentry) mem rfl)

theorem Implements.token_of_isTerminal {names : List String} {ops : Array (Op Nat)} {op : Nat}
    {kind : Kind} (alone : expression.isTerminal = true)
    (means : lexicon.inline? expression = some kind)
    (implements : Implements lexicon names ops op expression) : ops[op]? = some (.token kind) := by
  cases implements with
  | terminal found _ means' =>
    obtain rfl := Option.some.inj (means.symm.trans means')
    exact found
  | literal | tokenRule | call | seqNil | seqSingle | seq | choiceSingle | choice | repetition
  | optional | blank | precedence => cases alone

theorem Expression.alternatives_of_isTerminal {level : Int} {associativity : Associativity}
    (alone : expression.isTerminal = true) :
    expression.alternatives level associativity = [⟨expression, level, associativity⟩] := by
  cases expression with
  | pattern | token | nested | delimited | quoted => rw [alternatives]
  | literal | seq | choice | repetition | optional | reference | blank | precedence => cases alone

theorem Expression.refersTo_of_isTerminal {name : String} (alone : expression.isTerminal = true) :
    ¬ expression.refersTo name = true := by
  cases expression with
  | pattern | token | nested | delimited | quoted => exact Bool.false_ne_true
  | literal | seq | choice | repetition | optional | reference | blank | precedence => cases alone

theorem Expression.alternatives_subset {level : Int} {associativity : Associativity} :
    ∀ {bodies : List Expression}, expression ∈ bodies →
      expression.alternatives level associativity ⊆
        alternativesOfAll level associativity bodies
  | first :: rest, mem => by
    rw [alternativesOfAll]
    rcases List.mem_cons.mp mem with rfl | mem
    · exact List.subset_append_left _ _
    · exact List.Subset.trans (alternatives_subset mem) (List.subset_append_right _ _)

namespace Program.Carries

variable {names : List String}

/-- **An expression that operations are for**, and no other part of a program. -/
theorem of_op
    (alone : ∀ level associativity,
      expression.alternatives level associativity = [⟨expression, level, associativity⟩])
    (other : (∀ items, expression ≠ .seq items) ∧
      ∀ least inner, expression ≠ .repetition least inner)
    (unnamed : ∀ name ∈ names, ¬ expression.refersTo name = true)
    (ops : ∀ op, Implements lexicon names program.ops op expression →
      program.Produces (.op op) word) : program.Carries lexicon names expression word := by
  refine .of_alone alone (fun first rest => other.1 _) fun phrase h => ?_
  cases h with
  | op implements => exact ops _ implements
  | all => exact absurd rfl (other.1 _)
  | many => exact absurd rfl (other.2 _ _)
  | rule named refers => exact absurd refers (unnamed _ (List.mem_of_getElem? named))

/-- A repetition, by what the loops for it produce. -/
theorem of_repetition {least : Nat} {inner : Expression}
    (many : ∀ part, Implements lexicon names program.ops part inner →
      program.Produces (.many least part) word) :
    program.Carries lexicon names (.repetition least inner) word := by
  refine .of_alone (fun _ _ => by rw [Expression.alternatives]) (by simp) fun phrase h => ?_
  cases h with
  | op implements =>
    cases implements with
    | terminal _ alone => cases alone
    | repetition found one => exact .repetition found (many _ one)
  | many one => exact many _ one
  | rule _ refers => cases refers

theorem literal {text : String} {kind : Kind} (means : lexicon.literal? text = some kind) :
    program.Carries lexicon names (.literal text) [kind] := by
  refine .of_op (fun _ _ => by rw [Expression.alternatives]) (by simp)
    (fun _ _ => Bool.false_ne_true) ?_
  intro op implements
  cases implements with
  | terminal _ alone => cases alone
  | literal found means' =>
    obtain rfl := Option.some.inj (means.symm.trans means')
    exact .token found

theorem terminal {kind : Kind} (alone : expression.isTerminal = true)
    (means : lexicon.inline? expression = some kind) :
    program.Carries lexicon names expression [kind] := by
  refine .of_op (fun _ _ => Expression.alternatives_of_isTerminal alone) ?_
    (fun _ _ => Expression.refersTo_of_isTerminal alone)
    fun op implements => .token (implements.token_of_isTerminal alone means)
  constructor
  · rintro items rfl
    cases alone
  · rintro least inner rfl
    cases alone

theorem tokenRule {name : String} {kind : Kind} (other : name ∉ names)
    (means : lexicon.named? name = some kind) :
    program.Carries lexicon names (.reference name) [kind] := by
  refine .of_op (fun _ _ => by rw [Expression.alternatives]) (by simp) ?_ ?_
  · intro rule hrule refers
    obtain rfl : name = rule := by
      simpa [Expression.refersTo, Expression.withoutPrecedence] using refers
    exact other hrule
  · intro op implements
    cases implements with
    | terminal _ alone => cases alone
    | tokenRule found _ means' =>
      obtain rfl := Option.some.inj (means.symm.trans means')
      exact .token found
    | call _ named => exact absurd (List.mem_of_getElem? named) other

/-- **A reference to a rule**, by what the rule produces. -/
theorem rule {name : String} (declared : name ∈ names)
    (produces : ∀ number, names[number]? = some name → program.Produces (.rule number) word) :
    program.Carries lexicon names (.reference name) word := by
  refine .of_alone (fun _ _ => by rw [Expression.alternatives]) (by simp) fun phrase h => ?_
  cases h with
  | op implements =>
    cases implements with
    | terminal _ alone => cases alone
    | tokenRule _ other => exact absurd declared (List.idxOf?_eq_none_iff.mp other)
    | call found named => exact .call found (produces _ named)
  | @rule number other _ named refers =>
    obtain rfl : name = other := by
      simpa [Expression.refersTo, Expression.withoutPrecedence] using refers
    exact produces _ named

theorem seqNil : program.Carries lexicon names (.seq []) [] := by
  refine .of_alone (fun _ _ => by rw [Expression.alternatives]) (by simp) fun phrase h => ?_
  cases h with
  | op implements =>
    cases implements with
    | terminal _ alone => cases alone
    | seqNil found => exact .blank found
    | seq found all =>
      cases all
      exact .seq found .allNil
  | all implement =>
    cases implement
    exact .allNil
  | rule _ refers => cases refers

/-- **One item more.**  If a rule was split that has the sequence as an alternative, and the item is
a reference to that rule, then the items behind it are those of a tail. -/
theorem seqCons {first : Expression} {rest : List Expression}
    (head : program.Carries lexicon names first word)
    (tail : program.Carries lexicon names (.seq rest) others)
    (single : rest = [] → others = []) :
    program.Carries lexicon names (.seq (first :: rest)) (word ++ others) := by
  have hall : ∀ {parts : List Nat}, ImplementsAll lexicon names program.ops parts
      (first :: rest) → program.Produces (.all parts) (word ++ others) := by
    rintro parts (_ | ⟨hfirst, hrest⟩)
    exact .allCons (head.parts _ (.op hfirst)) (tail.parts _ (.all hrest))
  have hop : ∀ op, Implements lexicon names program.ops op (.seq (first :: rest)) →
      program.Produces (.op op) (word ++ others) := by
    intro op implements
    cases implements with
    | terminal _ alone => cases alone
    | seq found all => exact .seq found (hall all)
    | seqSingle one =>
      rw [single rfl, List.append_nil]
      exact head.parts _ (.op one)
  refine ⟨fun phrase h => ?_, ?_⟩
  · cases h with
    | op implements => exact hop _ implements
    | all implement => exact hall implement
    | rule _ refers => cases refers
  · intro number name body base tails level associativity splits inside
    rw [Expression.alternatives] at inside
    have mem := inside (List.mem_singleton.mpr rfl)
    by_cases hfirst : first.refersTo name = true
    · obtain ⟨tail', htail, hmeans⟩ := exists_of_forall₂ splits.others.flip
        (List.mem_filter.mpr ⟨mem, hfirst⟩)
      obtain ⟨rule, lookup, hbody⟩ := splits.rule
      exact .tail lookup hbody (head.parts _ (.rule splits.named hfirst)) htail
        (tail.parts _ (.op hmeans.means))
    · exact splits.produces_base mem (Bool.eq_false_iff.mpr hfirst) hop

theorem choice {bodies : List Expression} (mem : expression ∈ bodies)
    (one : program.Carries lexicon names expression word) :
    program.Carries lexicon names (.choice bodies) word := by
  refine ⟨fun phrase h => ?_, ?_⟩
  · cases h with
    | op implements => exact implements.produces_choice mem fun op h => one.parts _ (.op h)
    | rule _ refers => cases refers
  · intro number name body base tails level associativity splits inside
    rw [Expression.alternatives] at inside
    exact one.alternatives splits (List.Subset.trans (Expression.alternatives_subset mem) inside)

theorem optional {inner : Expression}
    (ops : ∀ op part, program.ops[op]? = some (.optional part) →
      Implements lexicon names program.ops part inner → program.Produces (.op op) word) :
    program.Carries lexicon names (.optional inner) word := by
  refine .of_op (fun _ _ => by rw [Expression.alternatives]) (by simp)
    (fun _ _ => Bool.false_ne_true) ?_
  intro op implements
  cases implements with
  | terminal _ alone => cases alone
  | optional found one => exact ops op _ found one

theorem blank : program.Carries lexicon names .blank [] := by
  refine .of_op (fun _ _ => by rw [Expression.alternatives]) (by simp)
    (fun _ _ => Bool.false_ne_true) ?_
  intro op implements
  cases implements with
  | terminal _ alone => cases alone
  | blank found => exact .blank found

theorem precedence {level : Int} {associativity : Associativity}
    (one : program.Carries lexicon names expression word) :
    program.Carries lexicon names (.precedence level associativity expression) word := by
  refine ⟨fun phrase h => ?_, ?_⟩
  · cases h with
    | op implements =>
      cases implements with
      | terminal _ alone => cases alone
      | precedence inner => exact one.parts _ (.op inner)
    | rule named refers => exact one.parts _ (.rule named refers)
  · intro number name body base tails level associativity splits inside
    rw [Expression.alternatives] at inside
    exact one.alternatives splits inside

end Program.Carries

/-- **What an expression produces, the program produces that has its rules.** -/
theorem Expression.Produces.carries (has : program.Has lexicon declared)
    (h : expression.Produces lexicon declared word) :
    program.Carries lexicon (declared.map (·.1)) expression word := by
  induction h with
  | literal means => exact .literal means
  | terminal alone means => exact .terminal alone means
  | tokenRule other means => exact .tokenRule other means
  | rule mem _ ih =>
    refine .rule (List.mem_map_of_mem mem) fun number named => ?_
    exact has.produces_of_body (getElem?_of_named has.unique mem named) ih
  | seqNil => exact .seqNil
  | seqCons _ tail ih ih' =>
    refine .seqCons ih ih' ?_
    rintro rfl
    cases tail with
    | terminal alone => cases alone
    | seqNil => rfl
  | choice mem _ ih => exact .choice mem ih
  | repetitionNil => exact .of_repetition fun _ _ => .manyNil
  | repetitionCons _ _ ih ih' =>
    exact .of_repetition fun _ one => .manyCons (ih.parts _ (.op one)) (ih'.parts _ (.many one))
  | optionalNone => exact .optional fun _ _ found _ => .optionalNone found
  | optionalSome _ ih =>
    exact .optional fun _ _ found one => .optionalSome found (ih.parts _ (.op one))
  | blank => exact .blank
  | precedence _ ih => exact .precedence ih

end Language

/-! ### Lowering -/

namespace Grammar

/-- Names stay unique if a rule with a free name is added. -/
theorem nodup_concat_rule {grammar : Grammar} {name : String} {body : Expression}
    (unique : (grammar.rules.map (·.1)).Nodup) (free : grammar.rule? name = none) :
    ((grammar.rules ++ [(name, body)]).map (·.1)).Nodup := by
  rw [List.map_append]
  refine List.Nodup.append unique (List.nodup_singleton name) ?_
  intro other hother hname
  obtain rfl := List.mem_singleton.mp hname
  obtain ⟨entry, hentry, heq⟩ := List.mem_map.mp hother
  have hne := List.lookup_eq_none_iff.mp free entry hentry
  exact absurd heq.symm (by simpa using hne)

/-- **The rules of a grammar have different names**, however it is put together. -/
theorem nodup_define {grammar defined : Grammar} {name : String} {body : Expression}
    (unique : (grammar.rules.map (·.1)).Nodup) (done : grammar.define name body = .ok defined) :
    (defined.rules.map (·.1)).Nodup := by
  unfold define declares at done
  split at done
  · cases done
  · rename_i hfree
    obtain rfl := Except.ok.inj done
    exact nodup_concat_rule unique (by simpa using hfree)

theorem nodup_replace {grammar : Grammar} {name : String} {body : Expression}
    (unique : (grammar.rules.map (·.1)).Nodup) :
    ((grammar.replace name body).1.rules.map (·.1)).Nodup := by
  unfold replace
  split
  · have hnames : (grammar.rules.map fun entry =>
        if entry.1 = name then (name, body) else entry).map (·.1) = grammar.rules.map (·.1) := by
      rw [List.map_map]
      refine List.map_congr_left fun entry _ => ?_
      by_cases heq : entry.1 = name <;> simp [heq]
    rw [hnames]
    exact unique
  · rename_i hfree
    exact nodup_concat_rule unique hfree

end Grammar

namespace Program

theorem length_lowerRules {grammar : Grammar} {lexicon : Lexicon} {names : List String} :
    ∀ {declared : List (String × Expression)} {number : Nat} {kinds table : KindTable}
      {before after : Arena} {rules : List Rule},
      lowerRules grammar lexicon names number declared kinds before = .ok (rules, table, after) →
        rules.length = declared.length
  | [], _, _, _, _, _, _, done => by
    obtain ⟨rfl, -⟩ := Prod.mk.inj (Except.ok.inj done)
    rfl
  | (name, body) :: rest, _, _, _, _, _, _, done => by
    simp only [lowerRules] at done
    obtain ⟨⟨lowered, middle⟩, -, done⟩ := bind_eq_ok.mp done
    obtain ⟨⟨others, last, final⟩, hrest, done⟩ := bind_eq_ok.mp done
    obtain ⟨rfl, -⟩ := Prod.mk.inj (pure_eq_ok.mp done)
    rw [List.length_cons, List.length_cons, length_lowerRules hrest]

variable {grammar : Grammar} {tokens : List String} {draft : Lexicon.Draft} {program : Program}
  {kinds : KindTable}

theorem size_rules_ofGrammar (done : ofGrammar grammar tokens draft = .ok (program, kinds)) :
    program.rules.size = (syntacticRules grammar tokens).length := by
  unfold ofGrammar at done
  obtain ⟨⟨rules, table, after⟩, hrules, done⟩ := bind_eq_ok.mp done
  obtain ⟨rfl, -⟩ := Prod.mk.inj (pure_eq_ok.mp done)
  rw [List.size_toArray]
  exact length_lowerRules hrules

/-- The program of a grammar has the rules of the grammar. -/
theorem has_ofGrammar (unique : (grammar.rules.map (·.1)).Nodup)
    (done : ofGrammar grammar tokens draft = .ok (program, kinds)) :
    program.Has draft.lexicon (syntacticRules grammar tokens) := by
  refine ⟨unique.sublist (List.filter_sublist.map _), ?_⟩
  intro number name body hentry
  obtain ⟨after, hops, hlowers⟩ := lowersRules_ofGrammar done
  have hlt : number < program.rules.size := by
    rw [size_rules_ofGrammar done]
    exact (List.getElem?_eq_some_iff.mp hentry).1
  have lookup := Array.getElem?_eq_getElem hlt
  obtain ⟨entry, hentry', -, hdeclares⟩ :=
    hlowers.rules number program.rules[number] (by rw [Array.getElem?_toList, lookup])
  obtain rfl := Option.some.inj (hentry.symm.trans hentry')
  rw [Nat.zero_add, ← hops] at hdeclares
  exact ⟨_, lookup, hdeclares.name, hdeclares.body⟩

/-- **Lowering keeps the language.**  The program of a grammar has each rule that is no terminal,
under its name; and what the rule produces in the program is what its body produces in the
grammar. -/
theorem produces_rule_iff (unique : (grammar.rules.map (·.1)).Nodup)
    (done : ofGrammar grammar tokens draft = .ok (program, kinds)) {number : Nat} {name : String}
    {body : Expression}
    (declared : (syntacticRules grammar tokens)[number]? = some (name, body)) :
    (∃ rule, program.rules[number]? = some rule ∧ rule.name = name) ∧
      ∀ word, program.Produces (.rule number) word ↔
        body.Produces draft.lexicon (syntacticRules grammar tokens) word := by
  have has := has_ofGrammar unique done
  have mem := List.mem_of_getElem? declared
  have named : ((syntacticRules grammar tokens).map (·.1))[number]? = some name := by
    rw [List.getElem?_map, declared]
    rfl
  obtain ⟨rule, lookup, hname, -⟩ := has.rules _ _ _ declared
  refine ⟨⟨rule, lookup, hname⟩, fun word => ⟨fun h => ?_, fun h => ?_⟩⟩
  · have hreference := h.produces_of_for has (.reference name)
      (.rule named (by simp [Expression.refersTo, Expression.withoutPrecedence]))
    exact hreference.of_reference has.unique mem
  · exact has.produces_of_body declared (h.carries has)

end Program

/-- The terminals of the grammar of operators. -/
def Lexicon.Draft.operators : Lexicon.Draft :=
  (Lexicon.ofGrammar .operators []).toOption.getD default

/-- The program of the grammar of operators. -/
def Program.operators : Program :=
  ((Program.ofGrammar .operators [] .operators).toOption.getD default).1

/-- The text `n+n`: a match of the base, and one of the tail for sums behind it. -/
theorem Program.produces_rule_iff_operators :
    Program.operators.Produces (.rule 0) [⟨8⟩, ⟨5⟩, ⟨8⟩] := by
  have lowered := eq_ok_getD (show (Program.ofGrammar .operators [] .operators).toOption.isSome =
    true by with_unfolding_all decide)
  refine ((produces_rule_iff (by with_unfolding_all decide) lowered
    (show (syntacticRules .operators [])[0]? = some ("e", _) from rfl)).2 _).mpr ?_
  have operand : (Expression.reference "e").Produces Lexicon.Draft.operators.lexicon
      (syntacticRules .operators []) [⟨8⟩] :=
    .rule (List.mem_singleton.mpr rfl)
      (.choice (List.mem_of_getElem? (i := 3) rfl) (.literal (by with_unfolding_all decide)))
  exact .choice List.mem_cons_self (.precedence (.seqCons operand
    (.seqCons (.literal (by with_unfolding_all decide)) operand.seq_single)))

end Syntagm
