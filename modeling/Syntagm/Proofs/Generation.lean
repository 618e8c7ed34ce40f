import Syntagm.Proofs.Lowering

/-!
# What rule bodies generate

A rule body is the right-hand side of a context-free grammar.  `Generates` says which
sequences of symbols it stands for: one token for a literal, a terminal or a token rule, one
node for a rule that makes nodes, and what its own body generates for a rule that makes none.

What operations match is compared with this by their form.  An operation that implements an
expression has the form of that expression up to annotations and to sequences and choices of
one part, which generate the same (`Implements.generates`).  A rule that was split because it is
left-recursive generates what one of its alternatives does (`Expression.generates_alternative`).
-/

namespace Syntagm

/-- A symbol of a right-hand side: a token or a node of a kind. -/
inductive Symbol where
  | token (kind : Kind)
  | node (kind : Kind)
  deriving DecidableEq, Repr

/-- **What an expression generates** as a context-free right-hand side. -/
inductive Generates (grammar : Grammar) (compiled : CompiledGrammar) :
    Expression → List Symbol → Prop where
  /-- A text in a rule stands for one token of its kind. -/
  | literal {text kind} (means : compiled.lexicon.literal? text = some kind) :
      Generates grammar compiled (.literal text) [.token kind]
  /-- So does a terminal that is written out. -/
  | terminal {expression kind} (alone : expression.isTerminal = true)
      (means : compiled.lexicon.inline? expression = some kind) :
      Generates grammar compiled expression [.token kind]
  /-- So does a reference to a token rule. -/
  | tokenRule {name kind} (means : compiled.lexicon.named? name = some kind) :
      Generates grammar compiled (.reference name) [.token kind]
  /-- A reference to a rule that makes nodes stands for one node of its kind. -/
  | visible {rule} (mem : rule ∈ compiled.program.rules)
      (shown : Program.leavesNoNode grammar rule.name = false) :
      Generates grammar compiled (.reference rule.name) [.node rule.kind]
  /-- A reference to a rule that makes none stands for what its body generates. -/
  | hidden {name body symbols}
      (declared : (name, body) ∈ Program.syntacticRules grammar grammar.tokenRules)
      (hides : Program.leavesNoNode grammar name = true)
      (expansion : Generates grammar compiled body symbols) :
      Generates grammar compiled (.reference name) symbols
  | seqNil : Generates grammar compiled (.seq []) []
  | seqCons {first rest symbols others} (head : Generates grammar compiled first symbols)
      (tail : Generates grammar compiled (.seq rest) others) :
      Generates grammar compiled (.seq (first :: rest)) (symbols ++ others)
  | choice {alternatives alternative symbols} (mem : alternative ∈ alternatives)
      (one : Generates grammar compiled alternative symbols) :
      Generates grammar compiled (.choice alternatives) symbols
  | repetitionNil {inner} : Generates grammar compiled (.repetition 0 inner) []
  | repetitionCons {least inner symbols others}
      (head : Generates grammar compiled inner symbols)
      (tail : Generates grammar compiled (.repetition (least - 1) inner) others) :
      Generates grammar compiled (.repetition least inner) (symbols ++ others)
  | optionalNone {inner} : Generates grammar compiled (.optional inner) []
  | optionalSome {inner symbols} (one : Generates grammar compiled inner symbols) :
      Generates grammar compiled (.optional inner) symbols
  | blank : Generates grammar compiled .blank []
  | precedence {level associativity inner symbols}
      (one : Generates grammar compiled inner symbols) :
      Generates grammar compiled (.precedence level associativity inner) symbols

/-- **A property that expressions keep in what is put around them**: an annotation, a choice, a
sequence of one. -/
structure Expression.Passes (motive : Expression → Prop) : Prop where
  precedence : ∀ level associativity inner, motive inner →
    motive (.precedence level associativity inner)
  choice : ∀ alternatives, ∀ alternative ∈ alternatives, motive alternative →
    motive (.choice alternatives)
  seq : ∀ item, motive item → motive (.seq [item])

section Generation
variable {grammar : Grammar} {compiled : CompiledGrammar} {symbols others : List Symbol}

theorem Generates.seq_single {item : Expression} (h : Generates grammar compiled item symbols) :
    Generates grammar compiled (.seq [item]) symbols := by
  have := Generates.seqCons h .seqNil
  rwa [List.append_nil] at this

theorem Expression.Passes.generates : Expression.Passes (Generates grammar compiled · symbols) :=
  ⟨fun _ _ _ => .precedence, fun _ _ => .choice, fun _ => .seq_single⟩

/-- A reference generates the same under annotations. -/
theorem generates_of_refersTo {name : String} {expression : Expression}
    (refers : expression.refersTo name = true)
    (h : Generates grammar compiled (.reference name) symbols) :
    Generates grammar compiled expression symbols :=
  Expression.of_refersTo (motive := (Generates grammar compiled · symbols)) h
    (fun _ _ _ => .precedence) expression refers

/-! ### Alternatives -/

/-- A tail is a sequence that begins with the reference, or the reference alone. -/
theorem Alternative.cases_of_isTail {name : String} {alternative : Alternative}
    (tail : alternative.isTail name = true) :
    (∃ first, first.refersTo name = true ∧
      alternative.expression = .seq (first :: alternative.afterReference)) ∨
      (alternative.expression.refersTo name = true ∧ alternative.afterReference = []) := by
  unfold Alternative.isTail at tail
  unfold Alternative.afterReference
  split at tail
  · rename_i items hitems
    cases items with
    | nil => cases tail
    | cons first items => exact .inl ⟨first, tail, by rw [hitems]; rfl⟩
  · exact .inr ⟨tail, rfl⟩

/-- An alternative generates what its expression does. -/
theorem Alternative.generates_of_isTail {name : String} {alternative : Alternative}
    (tail : alternative.isTail name = true)
    (self : Generates grammar compiled (.reference name) symbols)
    (rest : Generates grammar compiled (.seq alternative.afterReference) others) :
    Generates grammar compiled alternative.expression (symbols ++ others) := by
  rcases Alternative.cases_of_isTail tail with ⟨first, refers, heq⟩ | ⟨refers, hnone⟩
  · rw [heq]
    exact .seqCons (generates_of_refersTo refers self) rest
  · -- the alternative is the reference alone, so nothing follows it
    rw [hnone] at rest
    cases rest with
    | terminal alone => cases alone
    | seqNil =>
      rw [List.append_nil]
      exact generates_of_refersTo refers self

namespace Expression

mutual

/-- A body has such a property if one of its alternatives does. -/
theorem of_alternative {motive : Expression → Prop} (passes : Passes motive) (body : Expression)
    {level : Int} {associativity : Associativity} {alternative : Alternative}
    (mem : alternative ∈ body.alternatives level associativity)
    (h : motive alternative.expression) : motive body := by
  cases body with
  | precedence _ _ inner =>
    exact passes.precedence _ _ _
      (of_alternative passes inner (by simpa [alternatives] using mem) h)
  | choice bodies =>
    obtain ⟨body, hbody, hone⟩ :=
      of_alternativeOfAll passes bodies (by simpa [alternatives] using mem) h
    exact passes.choice bodies body hbody hone
  | literal _ | pattern _ | seq _ | repetition _ _ | optional _ | reference _ | blank | token _
  | nested _ _ | delimited _ _ | quoted _ _ =>
    simp only [alternatives, List.mem_singleton] at mem
    rw [mem] at h
    exact h

theorem of_alternativeOfAll {motive : Expression → Prop} (passes : Passes motive)
    (bodies : List Expression) {level : Int} {associativity : Associativity}
    {alternative : Alternative}
    (mem : alternative ∈ alternativesOfAll level associativity bodies)
    (h : motive alternative.expression) : ∃ body ∈ bodies, motive body := by
  cases bodies with
  | nil => cases mem
  | cons first rest =>
    simp only [alternativesOfAll, List.mem_append] at mem
    rcases mem with mem | mem
    · exact ⟨first, List.mem_cons_self, of_alternative passes first mem h⟩
    · obtain ⟨body, hbody, hone⟩ := of_alternativeOfAll passes rest mem h
      exact ⟨body, List.mem_cons_of_mem _ hbody, hone⟩

end

/-- **A body generates what one of its alternatives does.** -/
theorem generates_alternative (body : Expression) {level : Int} {associativity : Associativity}
    {alternative : Alternative}
    (mem : alternative ∈ body.alternatives level associativity)
    (h : Generates grammar compiled alternative.expression symbols) :
    Generates grammar compiled body symbols :=
  of_alternative .generates body mem h

end Expression

/-! ### Operations -/

/-- What is related to the elements of another list pairwise is related to one of them. -/
theorem exists_of_forall₂ {α β : Type} {r : α → β → Prop} {a : α} {first : List α}
    {second : List β} (h : List.Forall₂ r first second) (hmem : a ∈ first) :
    ∃ b ∈ second, r a b := by
  induction h with
  | nil => cases hmem
  | cons head _ ih =>
    rcases List.mem_cons.mp hmem with rfl | hmem
    · exact ⟨_, List.mem_cons_self, head⟩
    · obtain ⟨b, hb, hr⟩ := ih hmem
      exact ⟨b, List.mem_cons_of_mem _ hb, hr⟩

/-- Each part implements one of the expressions. -/
theorem ImplementsAll.exists_of_mem {lexicon : Lexicon} {names : List String}
    {ops : Array (Op Nat)} {op : Nat} : ∀ {parts : List Nat} {expressions : List Expression},
      ImplementsAll lexicon names ops parts expressions → op ∈ parts →
        ∃ expression ∈ expressions, Implements lexicon names ops op expression
  | _, _, .nil, hmem => nomatch hmem
  | _, _, .cons head rest, hmem => by
    rcases List.mem_cons.mp hmem with rfl | hmem
    · exact ⟨_, List.mem_cons_self, head⟩
    · obtain ⟨expression, hexpression, himplements⟩ := rest.exists_of_mem hmem
      exact ⟨expression, List.mem_cons_of_mem _ hexpression, himplements⟩

/-- Each of the expressions is implemented by a part. -/
theorem ImplementsAll.exists_part {lexicon : Lexicon} {names : List String}
    {ops : Array (Op Nat)} {expression : Expression} :
    ∀ {parts : List Nat} {expressions : List Expression},
      ImplementsAll lexicon names ops parts expressions → expression ∈ expressions →
        ∃ op ∈ parts, Implements lexicon names ops op expression
  | _, _, .nil, hmem => nomatch hmem
  | _, _, .cons head rest, hmem => by
    rcases List.mem_cons.mp hmem with rfl | hmem
    · exact ⟨_, List.mem_cons_self, head⟩
    · obtain ⟨op, hop, himplements⟩ := rest.exists_part hmem
      exact ⟨op, List.mem_cons_of_mem _ hop, himplements⟩

/-- **The expressions that an operation of this form is for**, up to annotations and to
sequences and choices of one part. -/
def Op.Means (lexicon : Lexicon) (names : List String) (ops : Array (Op Nat)) :
    Op Nat → Expression → Prop
  | .token kind, expression =>
    (∃ text, expression = .literal text ∧ lexicon.literal? text = some kind) ∨
      (expression.isTerminal = true ∧ lexicon.inline? expression = some kind) ∨
      ∃ name, expression = .reference name ∧ names.idxOf? name = none ∧
        lexicon.named? name = some kind
  | .call rule _, expression => ∃ name, expression = .reference name ∧ names[rule]? = some name
  | .seq parts, expression =>
    ∃ items, expression = .seq items ∧ ImplementsAll lexicon names ops parts items
  | .choice parts, expression =>
    ∃ alternatives, expression = .choice alternatives ∧
      ImplementsAll lexicon names ops parts alternatives
  | .repetition least part, expression =>
    ∃ inner, expression = .repetition least inner ∧ Implements lexicon names ops part inner
  | .optional part, expression =>
    ∃ inner, expression = .optional inner ∧ Implements lexicon names ops part inner
  | .blank, expression => expression = .seq [] ∨ expression = .blank

/-- **What the expressions for an operation of its form have**, every expression has that it
implements, if what is put around an expression keeps it. -/
theorem Implements.of_means {lexicon : Lexicon} {names : List String} {ops : Array (Op Nat)}
    {motive : Expression → Prop} (passes : Expression.Passes motive) {op : Nat}
    {what : Op Nat} (found : ops[op]? = some what)
    (means : ∀ expression, what.Means lexicon names ops expression → motive expression) :
    ∀ {expression : Expression}, Implements lexicon names ops op expression → motive expression
  | _, .literal found' kind => by
    obtain rfl := Option.some.inj (found'.symm.trans found)
    exact means _ (.inl ⟨_, rfl, kind⟩)
  | _, .terminal found' alone kind => by
    obtain rfl := Option.some.inj (found'.symm.trans found)
    exact means _ (.inr (.inl ⟨alone, kind⟩))
  | _, .tokenRule found' other kind => by
    obtain rfl := Option.some.inj (found'.symm.trans found)
    exact means _ (.inr (.inr ⟨_, rfl, other, kind⟩))
  | _, .call found' name => by
    obtain rfl := Option.some.inj (found'.symm.trans found)
    exact means _ ⟨_, rfl, name⟩
  | _, .seqNil found' => by
    obtain rfl := Option.some.inj (found'.symm.trans found)
    exact means _ (.inl rfl)
  | _, .seqSingle one => passes.seq _ (one.of_means passes found means)
  | _, .seq found' all => by
    obtain rfl := Option.some.inj (found'.symm.trans found)
    exact means _ ⟨_, rfl, all⟩
  | _, .choiceSingle one => passes.choice _ _ List.mem_cons_self (one.of_means passes found means)
  | _, .choice found' all => by
    obtain rfl := Option.some.inj (found'.symm.trans found)
    exact means _ ⟨_, rfl, all⟩
  | _, .repetition found' one => by
    obtain rfl := Option.some.inj (found'.symm.trans found)
    exact means _ ⟨_, rfl, one⟩
  | _, .optional found' one => by
    obtain rfl := Option.some.inj (found'.symm.trans found)
    exact means _ ⟨_, rfl, one⟩
  | _, .blank found' => by
    obtain rfl := Option.some.inj (found'.symm.trans found)
    exact means _ (.inr rfl)
  | _, .precedence one => passes.precedence _ _ _ (one.of_means passes found means)

/-- **What the expressions for an operation of its form generate**, every expression that it
implements generates. -/
theorem Implements.generates {lexicon : Lexicon} {names : List String} {ops : Array (Op Nat)}
    {op : Nat} {what : Op Nat} (found : ops[op]? = some what)
    (means : ∀ expression, what.Means lexicon names ops expression →
      Generates grammar compiled expression symbols)
    {expression : Expression} (implements : Implements lexicon names ops op expression) :
    Generates grammar compiled expression symbols :=
  implements.of_means .generates found means

end Generation

end Syntagm
