import Mathlib.Data.List.Forall2
import Syntagm.Compiled.Basic
import Syntagm.Proofs.Lexicon

/-!
# What lowering builds

Lowering adds operations behind those that are there, so what an operation is never changes
(`Arena.Grows`).  The operation for an expression **implements** it (`Implements`): its shape
is that of the expression, literals and terminals are tokens of their kinds, and references
are calls.  A rule body is implemented as a whole, or, if the rule is left-recursive, one
alternative after the other (`ImplementsBody`).
-/

namespace Syntagm

/-! ### The form of operations -/

/-- The kind of a terminal that a rule body can refer to. -/
def Lexicon.Assigns (lexicon : Lexicon) (kind : Kind) : Prop :=
  (∃ text, lexicon.literal? text = some kind) ∨ (∃ name, lexicon.named? name = some kind) ∨
    ∃ expression, lexicon.inline? expression = some kind

theorem Lexicon.Owned.of_assigns {lexicon : Lexicon} {table : KindTable}
    (h : lexicon.Owned table) {kind : Kind} (assigns : lexicon.Assigns kind) : table.Owns kind := by
  rcases assigns with ⟨text, htext⟩ | ⟨name, hname⟩ | ⟨expression, hexpression⟩
  · exact of_lookup h.literals htext
  · exact of_lookup h.named hname
  · exact of_lookup h.inline hexpression

/-- Tokens in an operation are terminals of the lexicon. -/
def Op.Known (lexicon : Lexicon) {Part : Type} : Op Part → Prop
  | .token kind => lexicon.Assigns kind
  | _ => True

/-- **Adding operations** keeps those that are there; the new ones are known. -/
structure Arena.Grows (lexicon : Lexicon) (before after : Arena) : Prop where
  added : ∃ more, after.ops = before.ops ++ more ∧ ∀ op ∈ more, op.Known lexicon

namespace Arena.Grows

variable {lexicon : Lexicon} {first second third : Arena}

theorem refl (arena : Arena) : Grows lexicon arena arena :=
  ⟨#[], by simp⟩

theorem trans (h : Grows lexicon first second) (h' : Grows lexicon second third) :
    Grows lexicon first third := by
  obtain ⟨more, heq, hknown⟩ := h
  obtain ⟨more', heq', hknown'⟩ := h'
  refine ⟨more ++ more', by rw [heq', heq, Array.append_assoc], fun op hop => ?_⟩
  rcases Array.mem_append.mp hop with hop | hop
  · exact hknown op hop
  · exact hknown' op hop

theorem add (arena : Arena) (owner : Nat) {op : Op Nat} (known : op.Known lexicon) :
    Grows lexicon arena (arena.add owner op).2 :=
  ⟨#[op], by simp [Arena.add], by simpa using known⟩

/-- What an operation is never changes. -/
theorem getElem? (h : Grows lexicon first second) {op : Nat} {what : Op Nat}
    (found : first.ops[op]? = some what) : second.ops[op]? = some what := by
  obtain ⟨more, heq, -⟩ := h
  have hlt := (Array.getElem?_eq_some_iff.mp found).1
  rw [heq, Array.getElem?_append_left hlt, found]

end Arena.Grows

theorem Arena.getElem?_add (arena : Arena) (owner : Nat) (op : Op Nat) :
    (arena.add owner op).2.ops[(arena.add owner op).1]? = some op := by
  simp [Arena.add]

/-! ### Implementation -/

mutual

/-- **An operation implements an expression.**  `names` are the names of the rules that are no
terminals.  A sequence or choice of one part may be that part itself. -/
inductive Implements (lexicon : Lexicon) (names : List String) (ops : Array (Op Nat)) :
    Nat → Expression → Prop where
  | literal {op text kind} (found : ops[op]? = some (.token kind))
      (means : lexicon.literal? text = some kind) : Implements lexicon names ops op (.literal text)
  | terminal {op expression kind} (found : ops[op]? = some (.token kind))
      (alone : expression.isTerminal = true) (means : lexicon.inline? expression = some kind) :
      Implements lexicon names ops op expression
  | tokenRule {op name kind} (found : ops[op]? = some (.token kind))
      (other : names.idxOf? name = none) (means : lexicon.named? name = some kind) :
      Implements lexicon names ops op (.reference name)
  | call {op name rule bound} (found : ops[op]? = some (.call rule bound))
      (means : names[rule]? = some name) : Implements lexicon names ops op (.reference name)
  | seqNil {op} (found : ops[op]? = some .blank) : Implements lexicon names ops op (.seq [])
  | seqSingle {op item} (one : Implements lexicon names ops op item) :
      Implements lexicon names ops op (.seq [item])
  | seq {op parts items} (found : ops[op]? = some (.seq parts))
      (all : ImplementsAll lexicon names ops parts items) :
      Implements lexicon names ops op (.seq items)
  | choiceSingle {op alternative} (one : Implements lexicon names ops op alternative) :
      Implements lexicon names ops op (.choice [alternative])
  | choice {op parts alternatives} (found : ops[op]? = some (.choice parts))
      (all : ImplementsAll lexicon names ops parts alternatives) :
      Implements lexicon names ops op (.choice alternatives)
  | repetition {op part least inner} (found : ops[op]? = some (.repetition least part))
      (one : Implements lexicon names ops part inner) :
      Implements lexicon names ops op (.repetition least inner)
  | optional {op part inner} (found : ops[op]? = some (.optional part))
      (one : Implements lexicon names ops part inner) :
      Implements lexicon names ops op (.optional inner)
  | blank {op} (found : ops[op]? = some .blank) : Implements lexicon names ops op .blank
  | precedence {op level associativity inner} (one : Implements lexicon names ops op inner) :
      Implements lexicon names ops op (.precedence level associativity inner)

/-- Operations implement the expressions of a list. -/
inductive ImplementsAll (lexicon : Lexicon) (names : List String) (ops : Array (Op Nat)) :
    List Nat → List Expression → Prop where
  | nil : ImplementsAll lexicon names ops [] []
  | cons {op expression parts expressions} (head : Implements lexicon names ops op expression)
      (rest : ImplementsAll lexicon names ops parts expressions) :
      ImplementsAll lexicon names ops (op :: parts) (expression :: expressions)

end

variable {lexicon : Lexicon} {names : List String} {before after : Arena}

/-- What a reference has, and annotations keep, every expression has that refers to the rule. -/
theorem Expression.of_refersTo {motive : Expression → Prop} {name : String}
    (reference : motive (.reference name))
    (precedence : ∀ level associativity inner, motive inner →
      motive (.precedence level associativity inner)) :
    ∀ expression : Expression, expression.refersTo name = true → motive expression
  | .precedence level associativity inner, refers =>
    precedence level associativity inner (of_refersTo reference precedence inner refers)
  | .reference target, refers => by
    obtain rfl : target = name := by
      simpa [Expression.refersTo, Expression.withoutPrecedence] using refers
    exact reference

mutual

theorem Implements.mono (h : before.Grows lexicon after) {op : Nat} {expression : Expression} :
    Implements lexicon names before.ops op expression →
      Implements lexicon names after.ops op expression
  | .literal found means => .literal (h.getElem? found) means
  | .terminal found alone means => .terminal (h.getElem? found) alone means
  | .tokenRule found other means => .tokenRule (h.getElem? found) other means
  | .call found means => .call (h.getElem? found) means
  | .seqNil found => .seqNil (h.getElem? found)
  | .seqSingle one => .seqSingle (one.mono h)
  | .seq found all => .seq (h.getElem? found) (all.mono h)
  | .choiceSingle one => .choiceSingle (one.mono h)
  | .choice found all => .choice (h.getElem? found) (all.mono h)
  | .repetition found one => .repetition (h.getElem? found) (one.mono h)
  | .optional found one => .optional (h.getElem? found) (one.mono h)
  | .blank found => .blank (h.getElem? found)
  | .precedence one => .precedence (one.mono h)

theorem ImplementsAll.mono (h : before.Grows lexicon after) {parts : List Nat}
    {expressions : List Expression} :
    ImplementsAll lexicon names before.ops parts expressions →
      ImplementsAll lexicon names after.ops parts expressions
  | .nil => .nil
  | .cons head rest => .cons (head.mono h) (rest.mono h)

end

/-! ### References at the end -/

/-- **An operation ends in a call**: it is this call, or a sequence of which this is the last
part. -/
inductive EndsInCall (ops : Array (Op Nat)) (rule : Nat) (bound : Int) : Nat → Prop where
  | call {op} (found : ops[op]? = some (.call rule bound)) : EndsInCall ops rule bound op
  | seq {op front last} (found : ops[op]? = some (.seq (front ++ [last])))
      (call : ops[last]? = some (.call rule bound)) : EndsInCall ops rule bound op

theorem EndsInCall.mono (h : before.Grows lexicon after) {rule : Nat} {bound : Int} {op : Nat} :
    EndsInCall before.ops rule bound op → EndsInCall after.ops rule bound op
  | .call found => .call (h.getElem? found)
  | .seq found last => .seq (h.getElem? found) (h.getElem? last)

/-- What is matched for an alternative, which in a tail is what stands behind the reference. -/
def Alternative.operands (name : String) (alternative : Alternative) : List Expression :=
  if alternative.isTail name then alternative.afterReference
  else
    match alternative.expression with
    | .seq items => items
    | _ => []

/-- Whether the alternative ends in a reference to the rule of this name. -/
def Alternative.isTrailing (name : String) (alternative : Alternative) : Bool :=
  (alternative.operands name).getLast?.any (·.refersTo name)

/-- An operation takes one of several others: it is the only one of them, or a choice of them. -/
inductive Offers (ops : Array (Op Nat)) : Nat → List Nat → Prop where
  | single {op} : Offers ops op [op]
  | choice {op parts} (found : ops[op]? = some (.choice parts)) : Offers ops op parts

theorem Offers.mono (h : before.Grows lexicon after) {op : Nat} {parts : List Nat} :
    Offers before.ops op parts → Offers after.ops op parts
  | .single => .single
  | .choice found => .choice (h.getElem? found)

/-! ### Lowering expressions -/

theorem getElem?_of_idxOf? {rule : Nat} {name : String} (h : names.idxOf? name = some rule) :
    names[rule]? = some name := by
  obtain ⟨hlt, heq, -⟩ := List.findIdx?_eq_some_iff_getElem.mp h
  rw [List.getElem?_eq_getElem hlt, eq_of_beq heq]

namespace LoweringScope

/-- What lowering an expression does: operations are added, and the one that is returned
implements the expression. -/
structure Lowers (scope : LoweringScope) (expression : Expression) (before after : Arena)
    (op : Nat) : Prop where
  grows : before.Grows scope.lexicon after
  means : Implements scope.lexicon scope.ruleNames after.ops op expression

/-- What lowering the expressions of a list does. -/
structure LowersAll (scope : LoweringScope) (expressions : List Expression)
    (before after : Arena) (ops : List Nat) : Prop where
  grows : before.Grows scope.lexicon after
  mean : ImplementsAll scope.lexicon scope.ruleNames after.ops ops expressions

/-- A reference to the rule itself at the end of an alternative is a call with its bound. -/
def Trails (scope : LoweringScope) (ops : Array (Op Nat)) (op : Nat) (alternative : Alternative) :
    Prop :=
  alternative.isTrailing scope.name = true →
    EndsInCall ops scope.rule alternative.trailingBound op

/-- A tail and the alternative that it is made of. -/
structure TailOf (scope : LoweringScope) (ops : Array (Op Nat)) (tail : Tail)
    (alternative : Alternative) : Prop where
  level : tail.level = alternative.level
  associativity : tail.associativity = alternative.associativity
  means : Implements scope.lexicon scope.ruleNames ops tail.op (.seq alternative.afterReference)
  trails : scope.Trails ops tail.op alternative

/-- What lowering alternatives does: those that begin with the rule itself become tails, the
others parts of the base. -/
structure Sorts (scope : LoweringScope) (alternatives : List Alternative) (before after : Arena)
    (base : List Nat) (tails : List Tail) : Prop where
  grows : before.Grows scope.lexicon after
  trails : List.Forall₂ (scope.Trails after.ops) base
    (alternatives.filter (!·.isTail scope.name))
  base : ImplementsAll scope.lexicon scope.ruleNames after.ops base
    ((alternatives.filter (!·.isTail scope.name)).map (·.expression))
  tails : List.Forall₂ (scope.TailOf after.ops) tails
    (alternatives.filter (·.isTail scope.name))

/-- **The body of a rule is implemented**: as a whole, or by a base and tails made of its
alternatives. -/
inductive ImplementsBody (scope : LoweringScope) (ops : Array (Op Nat)) (body : Expression) :
    RuleBody → Prop where
  | plain {op} (whole : Implements scope.lexicon scope.ruleNames ops op body) :
      ImplementsBody scope ops body (.plain op)
  | leftRecursive {base tails}
      (bases : Implements scope.lexicon scope.ruleNames ops base
        (.choice (((body.alternatives 0 .none).filter (!·.isTail scope.name)).map (·.expression))))
      (others : List.Forall₂ (scope.TailOf ops) tails
        ((body.alternatives 0 .none).filter (·.isTail scope.name)))
      (trails : ∃ parts, Offers ops base parts ∧ List.Forall₂ (scope.Trails ops) parts
        ((body.alternatives 0 .none).filter (!·.isTail scope.name))) :
      ImplementsBody scope ops body (.leftRecursive base tails)

variable {scope : LoweringScope} {expression : Expression} {expressions : List Expression}
  {middle : Arena} {op : Nat} {ops : List Nat}

/-- One operation is added for the expression. -/
theorem Lowers.add {what : Op Nat} (known : what.Known scope.lexicon)
    (means : ∀ {ops : Array (Op Nat)} {op : Nat}, ops[op]? = some what →
      Implements scope.lexicon scope.ruleNames ops op expression) :
    scope.Lowers expression before (before.add scope.rule what).2
      (before.add scope.rule what).1 :=
  ⟨.add _ _ known, means (before.getElem?_add _ _)⟩

/-- One operation is added behind those of the parts. -/
theorem LowersAll.add {what : Op Nat} (h : scope.LowersAll expressions before after ops)
    (known : what.Known scope.lexicon)
    (means : ∀ {all : Array (Op Nat)} {op : Nat}, all[op]? = some what →
      ImplementsAll scope.lexicon scope.ruleNames all ops expressions →
      Implements scope.lexicon scope.ruleNames all op expression) :
    scope.Lowers expression before (after.add scope.rule what).2
      (after.add scope.rule what).1 :=
  have grows := Arena.Grows.add after scope.rule known
  ⟨h.grows.trans grows, means (after.getElem?_add _ _) (h.mean.mono grows)⟩

theorem Lowers.wrap {inner : Expression} {what : Op Nat}
    (h : scope.Lowers inner before after op) (known : what.Known scope.lexicon)
    (means : ∀ {all : Array (Op Nat)} {whole : Nat}, all[whole]? = some what →
      Implements scope.lexicon scope.ruleNames all op inner →
      Implements scope.lexicon scope.ruleNames all whole expression) :
    scope.Lowers expression before (after.add scope.rule what).2
      (after.add scope.rule what).1 :=
  have grows := Arena.Grows.add after scope.rule known
  ⟨h.grows.trans grows, means (after.getElem?_add _ _) (h.means.mono grows)⟩

theorem LowersAll.nil : scope.LowersAll [] before before [] := ⟨.refl before, .nil⟩

theorem LowersAll.cons (h : scope.Lowers expression before middle op)
    (h' : scope.LowersAll expressions middle after ops) :
    scope.LowersAll (expression :: expressions) before after (op :: ops) :=
  ⟨h.grows.trans h'.grows, .cons (h.means.mono h'.grows) h'.mean⟩

mutual

/-- **Lowering an expression** gives an operation that implements it. -/
theorem lowers_lower (expression : Expression) {before after : Arena} {op : Nat}
    (done : scope.lower expression before = .ok (op, after)) :
    scope.Lowers expression before after op := by
  cases expression with
  | literal text =>
    simp only [lower] at done
    split at done
    · rename_i kind hkind
      obtain ⟨rfl, rfl⟩ := Prod.mk.inj (Except.ok.inj done)
      exact .add (.inl ⟨text, hkind⟩) fun found => .literal found hkind
    · cases done
  | reference name =>
    simp only [lower] at done
    split at done
    · rename_i rule hrule
      obtain ⟨rfl, rfl⟩ := Prod.mk.inj (Except.ok.inj done)
      exact .add trivial fun found => .call found (getElem?_of_idxOf? hrule)
    · rename_i hother
      split at done
      · rename_i kind hkind
        obtain ⟨rfl, rfl⟩ := Prod.mk.inj (Except.ok.inj done)
        exact .add (.inr (.inl ⟨name, hkind⟩)) fun found => .tokenRule found hother hkind
      · cases done
  | seq items =>
    simp only [lower] at done
    obtain ⟨⟨ops, middle⟩, hitems, done⟩ := bind_eq_ok.mp done
    obtain ⟨rfl, rfl⟩ := Prod.mk.inj (pure_eq_ok.mp done)
    have hall := lowersAll_lowerAll items hitems
    cases ops with
    | nil =>
      -- no operations implement no expressions, so this is the empty sequence
      refine hall.add trivial fun found mean => ?_
      cases mean
      exact .seqNil found
    | cons op ops => exact hall.add trivial .seq
  | choice alternatives =>
    simp only [lower] at done
    obtain ⟨⟨ops, middle⟩, halternatives, done⟩ := bind_eq_ok.mp done
    obtain ⟨rfl, rfl⟩ := Prod.mk.inj (pure_eq_ok.mp done)
    exact (lowersAll_lowerAll alternatives halternatives).add trivial .choice
  | repetition least inner =>
    simp only [lower] at done
    obtain ⟨⟨part, middle⟩, hinner, done⟩ := bind_eq_ok.mp done
    obtain ⟨rfl, rfl⟩ := Prod.mk.inj (pure_eq_ok.mp done)
    exact (lowers_lower inner hinner).wrap trivial .repetition
  | optional inner =>
    simp only [lower] at done
    obtain ⟨⟨part, middle⟩, hinner, done⟩ := bind_eq_ok.mp done
    obtain ⟨rfl, rfl⟩ := Prod.mk.inj (pure_eq_ok.mp done)
    exact (lowers_lower inner hinner).wrap trivial .optional
  | blank =>
    simp only [lower] at done
    obtain ⟨rfl, rfl⟩ := Prod.mk.inj (Except.ok.inj done)
    exact .add trivial .blank
  | precedence _ _ inner =>
    simp only [lower] at done
    have hinner := lowers_lower inner done
    exact ⟨hinner.grows, .precedence hinner.means⟩
  | pattern _ | token _ | nested _ _ | delimited _ _ | quoted _ _ =>
    simp only [lower] at done
    split at done
    · rename_i kind hkind
      obtain ⟨rfl, rfl⟩ := Prod.mk.inj (Except.ok.inj done)
      exact .add (.inr (.inr ⟨_, hkind⟩)) fun found => .terminal found rfl hkind
    · cases done

/-- Lowering the expressions of a list. -/
theorem lowersAll_lowerAll (expressions : List Expression) {before after : Arena}
    {ops : List Nat} (done : scope.lowerAll expressions before = .ok (ops, after)) :
    scope.LowersAll expressions before after ops := by
  cases expressions with
  | nil =>
    simp only [lowerAll] at done
    obtain ⟨rfl, rfl⟩ := Prod.mk.inj (Except.ok.inj done)
    exact .nil
  | cons first rest =>
    simp only [lowerAll] at done
    obtain ⟨⟨op, middle⟩, hfirst, done⟩ := bind_eq_ok.mp done
    obtain ⟨⟨ops, last⟩, hrest, done⟩ := bind_eq_ok.mp done
    obtain ⟨rfl, rfl⟩ := Prod.mk.inj (pure_eq_ok.mp done)
    exact .cons (lowers_lower first hfirst) (lowersAll_lowerAll rest hrest)

end

/-! ### Lowering alternatives -/

/-- What lowering the items of an alternative does.  The reference to the rule itself at the
end is a call of it, like any other reference to it. -/
theorem lowersAll_lowerItems (self : scope.ruleNames[scope.rule]? = some scope.name)
    (bound : Int) (items : List Expression) {before after : Arena} {ops : List Nat}
    (done : scope.lowerItems bound items before = .ok (ops, after)) :
    scope.LowersAll items before after ops := by
  induction items generalizing before ops with
  | nil =>
    obtain ⟨rfl, rfl⟩ := Prod.mk.inj (Except.ok.inj done)
    exact .nil
  | cons item rest ih =>
    rw [lowerItems] at done
    split at done <;> rename_i hself
    · obtain ⟨⟨op, middle⟩, hitem, done⟩ := bind_eq_ok.mp done
      obtain ⟨⟨ops, last⟩, hrest, done⟩ := bind_eq_ok.mp done
      obtain ⟨rfl, rfl⟩ := Prod.mk.inj (pure_eq_ok.mp done)
      obtain ⟨rfl, rfl⟩ := Prod.mk.inj (pure_eq_ok.mp hitem)
      rw [Bool.and_eq_true] at hself
      -- the call stands where the reference did, and the annotations around it change nothing
      refine .cons (.add ?_ fun found => ?_) (ih hrest)
      · trivial
      · exact item.of_refersTo (.call found self) (fun _ _ _ => .precedence) hself.2
    · obtain ⟨⟨op, middle⟩, hitem, done⟩ := bind_eq_ok.mp done
      obtain ⟨⟨ops, last⟩, hrest, done⟩ := bind_eq_ok.mp done
      obtain ⟨rfl, rfl⟩ := Prod.mk.inj (pure_eq_ok.mp done)
      exact .cons (lowers_lower item hitem) (ih hrest)

/-- **The call at the end**: a reference to the rule itself at the end of the items becomes a call
with the given bound. -/
theorem exists_call_lowerItems {bound : Int} {items : List Expression} {before after : Arena}
    {ops : List Nat} (trailing : items.getLast?.any (·.refersTo scope.name) = true)
    (done : scope.lowerItems bound items before = .ok (ops, after)) :
    ∃ front last, ops = front ++ [last] ∧ after.ops[last]? = some (.call scope.rule bound) := by
  induction items generalizing before ops with
  | nil => cases trailing
  | cons item rest ih =>
    rw [lowerItems] at done
    split at done <;> rename_i hself
    · obtain ⟨⟨op, middle⟩, hitem, done⟩ := bind_eq_ok.mp done
      obtain ⟨⟨ops, last⟩, hrest, done⟩ := bind_eq_ok.mp done
      obtain ⟨rfl, rfl⟩ := Prod.mk.inj (pure_eq_ok.mp done)
      obtain ⟨rfl, rfl⟩ := Prod.mk.inj (pure_eq_ok.mp hitem)
      -- only the last item is lowered to a call with this bound
      obtain rfl := List.isEmpty_iff.mp (Bool.and_eq_true_iff.mp hself).1
      obtain ⟨rfl, rfl⟩ := Prod.mk.inj (Except.ok.inj hrest)
      exact ⟨[], _, rfl, before.getElem?_add _ _⟩
    · obtain ⟨⟨op, middle⟩, hitem, done⟩ := bind_eq_ok.mp done
      obtain ⟨⟨ops, last⟩, hrest, done⟩ := bind_eq_ok.mp done
      obtain ⟨rfl, rfl⟩ := Prod.mk.inj (pure_eq_ok.mp done)
      cases rest with
      | nil => exact absurd trailing hself
      | cons next rest =>
        rw [List.getLast?_cons_cons] at trailing
        obtain ⟨front, last, rfl, hcall⟩ := ih trailing hrest
        exact ⟨op :: front, last, rfl, hcall⟩

/-- The same of the operation for all items. -/
theorem endsInCall_lowerSequence {bound : Int} {items : List Expression} {before after : Arena}
    {op : Nat} (trailing : items.getLast?.any (·.refersTo scope.name) = true)
    (done : scope.lowerSequence bound items before = .ok (op, after)) :
    EndsInCall after.ops scope.rule bound op := by
  rw [lowerSequence] at done
  obtain ⟨⟨ops, middle⟩, hitems, done⟩ := bind_eq_ok.mp done
  obtain ⟨front, last, heq, hcall⟩ := exists_call_lowerItems trailing hitems
  match ops with
  | [] => simp at heq
  | [single] =>
    obtain ⟨rfl, rfl⟩ := Prod.mk.inj (pure_eq_ok.mp done)
    obtain ⟨-, hlast⟩ := (List.singleton_eq_append_iff.mp heq).resolve_right (by simp)
    obtain rfl := List.singleton_inj.mp hlast
    exact .call hcall
  | first :: second :: rest =>
    obtain ⟨rfl, rfl⟩ := Prod.mk.inj (pure_eq_ok.mp done)
    have grows := Arena.Grows.add middle scope.rule
      (show (Op.seq (front ++ [last])).Known scope.lexicon from trivial)
    show EndsInCall (middle.add scope.rule (.seq (first :: second :: rest))).2.ops _ _ _
    rw [heq]
    exact .seq (middle.getElem?_add _ _) (grows.getElem? hcall)

/-- What lowering the items of an alternative to one operation does. -/
theorem lowers_lowerSequence (self : scope.ruleNames[scope.rule]? = some scope.name)
    (bound : Int) (items : List Expression) {before after : Arena} {op : Nat}
    (done : scope.lowerSequence bound items before = .ok (op, after)) :
    scope.Lowers (.seq items) before after op := by
  rw [lowerSequence] at done
  obtain ⟨⟨ops, middle⟩, hitems, done⟩ := bind_eq_ok.mp done
  have hall := lowersAll_lowerItems self bound items hitems
  match ops with
  | [] =>
    obtain ⟨rfl, rfl⟩ := Prod.mk.inj (pure_eq_ok.mp done)
    refine hall.add trivial fun found mean => ?_
    cases mean
    exact .seqNil found
  | [single] =>
    obtain ⟨rfl, rfl⟩ := Prod.mk.inj (pure_eq_ok.mp done)
    cases hall.mean with
    | cons one rest =>
      cases rest
      exact ⟨hall.grows, .seqSingle one⟩
  | first :: second :: rest =>
    obtain ⟨rfl, rfl⟩ := Prod.mk.inj (pure_eq_ok.mp done)
    exact hall.add trivial .seq

/-- What lowering an alternative of the base does. -/
theorem lowers_lowerBase (self : scope.ruleNames[scope.rule]? = some scope.name)
    (alternative : Alternative) {before after : Arena} {op : Nat}
    (done : scope.lowerBase alternative before = .ok (op, after)) :
    scope.Lowers alternative.expression before after op := by
  unfold lowerBase at done
  split at done
  · rename_i items hitems
    rw [hitems]
    exact lowers_lowerSequence self _ items done
  · exact lowers_lower _ done

/-- A reference at the end of an alternative of the base. -/
theorem trails_lowerBase {alternative : Alternative} {before after : Arena} {op : Nat}
    (base : alternative.isTail scope.name ≠ true)
    (done : scope.lowerBase alternative before = .ok (op, after)) :
    scope.Trails after.ops op alternative := by
  intro trailing
  rw [Alternative.isTrailing, Alternative.operands, if_neg base] at trailing
  unfold lowerBase at done
  split at done
  · rename_i items hitems
    rw [hitems] at trailing
    exact endsInCall_lowerSequence trailing done
  · rename_i hother
    split at trailing
    · rename_i items hitems
      exact absurd hitems (hother items)
    · cases trailing

theorem Trails.mono {alternative : Alternative} (h : scope.Trails before.ops op alternative)
    (grows : before.Grows scope.lexicon after) : scope.Trails after.ops op alternative :=
  fun trailing => (h trailing).mono grows

theorem TailOf.mono {tail : Tail} {alternative : Alternative}
    (h : scope.TailOf before.ops tail alternative) (grows : before.Grows scope.lexicon after) :
    scope.TailOf after.ops tail alternative :=
  ⟨h.level, h.associativity, h.means.mono grows, h.trails.mono grows⟩

theorem sorts_lowerAlternatives (self : scope.ruleNames[scope.rule]? = some scope.name)
    (alternatives : List Alternative) {before after : Arena} {base : List Nat} {tails : List Tail}
    (done : scope.lowerAlternatives alternatives before = .ok (base, tails, after)) :
    scope.Sorts alternatives before after base tails := by
  induction alternatives generalizing before base tails with
  | nil =>
    obtain ⟨rfl, hrest⟩ := Prod.mk.inj (Except.ok.inj done)
    obtain ⟨rfl, rfl⟩ := Prod.mk.inj hrest
    exact ⟨.refl _, .nil, .nil, .nil⟩
  | cons first rest ih =>
    rw [lowerAlternatives] at done
    split at done
    · rename_i htail
      obtain ⟨⟨op, middle⟩, hfirst, done⟩ := bind_eq_ok.mp done
      obtain ⟨⟨base, tails, last⟩, hrest, done⟩ := bind_eq_ok.mp done
      obtain ⟨rfl, hpair⟩ := Prod.mk.inj (pure_eq_ok.mp done)
      obtain ⟨rfl, rfl⟩ := Prod.mk.inj hpair
      have hone := lowers_lowerSequence self _ _ hfirst
      have hothers := ih hrest
      refine ⟨hone.grows.trans hothers.grows, ?_, ?_, ?_⟩
      · simpa [htail] using hothers.trails
      · simpa [htail] using hothers.base
      · rw [List.filter_cons_of_pos htail]
        refine .cons ⟨rfl, rfl, hone.means.mono hothers.grows, fun trailing => ?_⟩ hothers.tails
        rw [Alternative.isTrailing, Alternative.operands, if_pos htail] at trailing
        exact (endsInCall_lowerSequence trailing hfirst).mono hothers.grows
    · rename_i hbase
      obtain ⟨⟨op, middle⟩, hfirst, done⟩ := bind_eq_ok.mp done
      obtain ⟨⟨base, tails, last⟩, hrest, done⟩ := bind_eq_ok.mp done
      obtain ⟨rfl, hpair⟩ := Prod.mk.inj (pure_eq_ok.mp done)
      obtain ⟨rfl, rfl⟩ := Prod.mk.inj hpair
      have hone := lowers_lowerBase self _ hfirst
      have hothers := ih hrest
      refine ⟨hone.grows.trans hothers.grows, ?_, ?_, ?_⟩
      · rw [List.filter_cons_of_pos (by simpa using hbase)]
        exact .cons ((trails_lowerBase hbase hfirst).mono hothers.grows) hothers.trails
      · rw [List.filter_cons_of_pos (by simpa using hbase), List.map_cons]
        exact .cons (hone.means.mono hothers.grows) hothers.base
      · rw [List.filter_cons_of_neg hbase]
        exact hothers.tails

theorem ImplementsBody.mono {body : Expression} {lowered : RuleBody}
    (h : scope.ImplementsBody before.ops body lowered) (grows : before.Grows scope.lexicon after) :
    scope.ImplementsBody after.ops body lowered := by
  cases h with
  | plain whole => exact .plain (whole.mono grows)
  | leftRecursive bases tails trails =>
    obtain ⟨parts, hoffers, htrails⟩ := trails
    exact .leftRecursive (bases.mono grows) (tails.imp fun _ _ h => h.mono grows)
      ⟨parts, hoffers.mono grows, htrails.imp fun _ _ h => h.mono grows⟩

/-- **What lowering the body of a rule does.** -/
theorem implementsBody_lowerBody (self : scope.ruleNames[scope.rule]? = some scope.name)
    (body : Expression) {before after : Arena} {lowered : RuleBody}
    (done : scope.lowerBody body before = .ok (lowered, after)) :
    before.Grows scope.lexicon after ∧ scope.ImplementsBody after.ops body lowered := by
  simp only [lowerBody] at done
  split at done
  · obtain ⟨⟨base, tails, middle⟩, halternatives, done⟩ := bind_eq_ok.mp done
    have hsorts := sorts_lowerAlternatives self _ halternatives
    match base with
    | [] => exact absurd done throw_ne_ok
    | [single] =>
      -- one alternative is no choice of its own
      obtain ⟨rfl, rfl⟩ := Prod.mk.inj (pure_eq_ok.mp done)
      have hbase := hsorts.base
      refine ⟨hsorts.grows, .leftRecursive ?_ hsorts.tails ⟨_, .single, hsorts.trails⟩⟩
      generalize ((body.alternatives 0 .none).filter _).map _ = alternatives at hbase ⊢
      cases hbase with
      | cons one rest =>
        cases rest
        exact .choiceSingle one
    | first :: second :: rest =>
      obtain ⟨rfl, rfl⟩ := Prod.mk.inj (pure_eq_ok.mp done)
      have grows := Arena.Grows.add middle scope.rule
        (show (Op.choice (first :: second :: rest)).Known scope.lexicon from trivial)
      exact ⟨hsorts.grows.trans grows, .leftRecursive
        (.choice (middle.getElem?_add _ _) (hsorts.base.mono grows))
        (hsorts.tails.imp fun _ _ h => h.mono grows)
        ⟨_, .choice (middle.getElem?_add _ _), hsorts.trails.imp fun _ _ h => h.mono grows⟩⟩
  · obtain ⟨⟨op, middle⟩, hbody, done⟩ := bind_eq_ok.mp done
    obtain ⟨rfl, rfl⟩ := Prod.mk.inj (pure_eq_ok.mp done)
    have hwhole := lowers_lower body hbody
    exact ⟨hwhole.grows, .plain hwhole.means⟩

end LoweringScope

/-! ### Lowering all rules -/

namespace Program

/-- A rule of a program is what its declaration says. -/
structure Declares (grammar : Grammar) (scope : LoweringScope) (ops : Array (Op Nat))
    (body : Expression) (rule : Rule) : Prop where
  name : rule.name = scope.name
  hidden : rule.hidden = leavesNoNode grammar scope.name
  body : scope.ImplementsBody ops body rule.body

/-- What lowering the rules of a list does, the first of which has the number `number`. -/
structure LowersRules (grammar : Grammar) (lexicon : Lexicon) (names : List String)
    (number : Nat) (declared : List (String × Expression)) (kinds table : KindTable)
    (before after : Arena) (rules : List Rule) : Prop where
  grows : before.Grows lexicon after
  size : table.size = kinds.size + declared.length
  rules : ∀ index rule, rules[index]? = some rule →
    ∃ entry, declared[index]? = some entry ∧ rule.kind = ⟨kinds.size + index⟩ ∧
      Declares grammar ⟨lexicon, names, number + index, entry.1⟩ after.ops entry.2 rule

theorem lowersRules_lowerRules {grammar : Grammar} (number : Nat)
    (declared : List (String × Expression)) (kinds : KindTable)
    (inOrder : ∀ index entry, declared[index]? = some entry →
      names[number + index]? = some entry.1)
    {table : KindTable} {before after : Arena} {rules : List Rule}
    (done : lowerRules grammar lexicon names number declared kinds before =
      .ok (rules, table, after)) :
    LowersRules grammar lexicon names number declared kinds table before after rules := by
  induction declared generalizing number kinds before rules with
  | nil =>
    obtain ⟨rfl, hpair⟩ := Prod.mk.inj (Except.ok.inj done)
    obtain ⟨rfl, rfl⟩ := Prod.mk.inj hpair
    exact ⟨.refl _, rfl, fun _ _ h => (nomatch h)⟩
  | cons first rest ih =>
    obtain ⟨name, body⟩ := first
    simp only [lowerRules] at done
    obtain ⟨⟨lowered, middle⟩, hfirst, done⟩ := bind_eq_ok.mp done
    obtain ⟨⟨others, last, final⟩, hrest, done⟩ := bind_eq_ok.mp done
    obtain ⟨rfl, hpair⟩ := Prod.mk.inj (pure_eq_ok.mp done)
    obtain ⟨rfl, rfl⟩ := Prod.mk.inj hpair
    obtain ⟨grows, means⟩ := LoweringScope.implementsBody_lowerBody
      (inOrder 0 (name, body) rfl) body hfirst
    have hothers := ih (number + 1) (kinds.add name (.rule (leavesNoNode grammar name)))
      (fun index entry h => by
        rw [Nat.add_right_comm]
        exact inOrder (index + 1) entry h) hrest
    refine ⟨grows.trans hothers.grows, ?_, ?_⟩
    · rw [hothers.size, KindTable.size_add, List.length_cons, Nat.add_right_comm, Nat.add_assoc]
    · intro index rule hrule
      cases index with
      | zero =>
        obtain rfl := Option.some.inj hrule
        exact ⟨(name, body), rfl, rfl, rfl, rfl, means.mono hothers.grows⟩
      | succ index =>
        obtain ⟨entry, hentry, hkind, hdeclares⟩ := hothers.rules index rule hrule
        refine ⟨entry, hentry, ?_, ?_⟩
        · rw [hkind, KindTable.size_add, Nat.add_right_comm, Nat.add_assoc]
        · rwa [Nat.add_right_comm, Nat.add_assoc] at hdeclares

end Program

/-! ### Compiling -/

/-- **What compiling establishes.**  The kinds of terminals are owned, the rules are those of
the grammar that are no terminals, in their order, and each is what its declaration says. -/
structure CompiledGrammar.Realizes (compiled : CompiledGrammar) (grammar : Grammar) : Prop where
  owned : compiled.lexicon.Owned compiled.kinds
  known : ∀ op ∈ compiled.program.ops, op.Known compiled.lexicon
  rules : ∀ number rule, compiled.program.rules[number]? = some rule →
    ∃ entry, (Program.syntacticRules grammar grammar.tokenRules)[number]? = some entry ∧
      Program.Declares grammar ⟨compiled.lexicon,
        (Program.syntacticRules grammar grammar.tokenRules).map (·.1), number, entry.1⟩
        compiled.program.ops entry.2 rule
  kinds : ∃ base, 5 ≤ base ∧ ∀ number (rule : Rule),
    compiled.program.rules[number]? = some rule → rule.kind = ⟨base + number⟩
  start : ∃ rule, compiled.program.rules[compiled.start]? = some rule ∧
    grammar.start = some rule.name

theorem Grammar.start_of_resolve {grammar : Grammar} {name : String}
    (done : grammar.resolve = .ok name) : grammar.start = some name := by
  unfold resolve at done
  split at done
  · exact absurd done throw_ne_ok
  · rename_i start hstart
    split at done
    · obtain ⟨_, hthrow, -⟩ := bind_eq_ok.mp done
      exact absurd hthrow throw_ne_ok
    · simp only [bind_eq_ok, pure_eq_ok] at done
      obtain ⟨_, _, _, _, _, _, _, _, _, _, _, _, rfl⟩ := done
      exact hstart

theorem Program.lowersRules_ofGrammar {grammar : Grammar} {tokens : List String}
    {draft : Lexicon.Draft} {program : Program} {kinds : KindTable}
    (done : ofGrammar grammar tokens draft = .ok (program, kinds)) :
    ∃ after, program.ops = after.ops ∧
      LowersRules grammar draft.lexicon ((syntacticRules grammar tokens).map (·.1)) 0
        (syntacticRules grammar tokens) draft.kinds kinds .empty after program.rules.toList := by
  unfold ofGrammar at done
  obtain ⟨⟨rules, table, after⟩, hrules, done⟩ := bind_eq_ok.mp done
  obtain ⟨rfl, rfl⟩ := Prod.mk.inj (pure_eq_ok.mp done)
  refine ⟨after, rfl, lowersRules_lowerRules 0 _ _ (fun index entry h => ?_) hrules⟩
  rw [Nat.zero_add, List.getElem?_map, h]
  rfl

/-- A rule that is found by its name has that name. -/
theorem Program.name_of_rule? {program : Program} {name : String} {number : Nat}
    (found : program.rule? name = some number) :
    ∃ rule, program.rules[number]? = some rule ∧ rule.name = name := by
  obtain ⟨hlt, heq, -⟩ := Array.findIdx?_eq_some_iff_getElem.mp found
  exact ⟨_, Array.getElem?_eq_getElem hlt, eq_of_beq heq⟩

/-- **A compiled grammar realizes its grammar.** -/
theorem Grammar.realizes_compile {grammar : Grammar} {compiled : CompiledGrammar}
    (done : grammar.compile = .ok compiled) : compiled.Realizes grammar := by
  unfold compile at done
  obtain ⟨start, hresolve, done⟩ := bind_eq_ok.mp done
  obtain ⟨draft, hdraft, done⟩ := bind_eq_ok.mp done
  obtain ⟨⟨program, kinds⟩, hprogram, done⟩ := bind_eq_ok.mp done
  obtain ⟨_, _, done⟩ := bind_eq_ok.mp done
  obtain ⟨_, _, done⟩ := bind_eq_ok.mp done
  split at done
  · rename_i number hstart
    obtain ⟨sync, _, done⟩ := bind_eq_ok.mp done
    obtain rfl := pure_eq_ok.mp done
    have hsound := Lexicon.sound_ofGrammar hdraft
    obtain ⟨after, hops, hlowers⟩ := Program.lowersRules_ofGrammar hprogram
    obtain ⟨rule, hrule, hname⟩ := Program.name_of_rule? hstart
    refine ⟨hsound.owned.weaken ?_, ?_, ?_, ⟨draft.kinds.size, hsound.reserved, ?_⟩,
      rule, hrule, ?_⟩
    · rw [hlowers.size]
      exact Nat.le_add_right ..
    · obtain ⟨more, heq, hknown⟩ := hlowers.grows
      intro op hop
      rw [hops, heq] at hop
      exact hknown op (by simpa [Arena.empty] using hop)
    · intro number rule hrule
      rw [← Array.getElem?_toList] at hrule
      obtain ⟨entry, hentry, -, hdeclares⟩ := hlowers.rules number rule hrule
      rw [Nat.zero_add, ← hops] at hdeclares
      exact ⟨entry, hentry, hdeclares⟩
    · intro number rule hrule
      rw [← Array.getElem?_toList] at hrule
      obtain ⟨entry, -, hkind, -⟩ := hlowers.rules number rule hrule
      exact hkind
    · rw [hname]
      exact start_of_resolve hresolve
  · exact absurd done throw_ne_ok

/-- What succeeds gives what it gives when failures are left out. -/
theorem eq_ok_getD {ε α : Type} [Inhabited α] {result : Except ε α}
    (ok : result.toOption.isSome = true) : result = .ok (result.toOption.getD default) := by
  cases result with
  | ok => rfl
  | error => cases ok

/-- What a grammar compiles to, if it does. -/
theorem Grammar.compile_eq_getD {grammar : Grammar} (ok : grammar.compile.toOption.isSome = true) :
    grammar.compile = .ok (grammar.compile.toOption.getD default) :=
  eq_ok_getD ok

/-! ### A small grammar -/

/-- The grammar of one text, an `a` and a `b`. -/
def Grammar.pair : Grammar :=
  { Grammar.empty "pair" with
    rules := [("pair", .seq [.literal "a", .literal "b"])]
    start := some "pair" }

/-- What it is compiled to. -/
def CompiledGrammar.pair : CompiledGrammar := Grammar.pair.compile.toOption.getD default

theorem Grammar.compile_pair : Grammar.pair.compile = .ok CompiledGrammar.pair :=
  Grammar.compile_eq_getD (by with_unfolding_all decide)

/-! ### Views -/

/-- The operation with its parts as plain numbers. -/
def Op.withoutLimit {limit : Nat} : Op (Fin limit) → Op Nat
  | .token kind => .token kind
  | .seq items => .seq (items.map (·.val))
  | .choice alternatives => .choice (alternatives.map (·.val))
  | .repetition least inner => .repetition least inner.val
  | .optional inner => .optional inner.val
  | .blank => .blank
  | .call rule bound => .call rule bound

namespace Op

variable {limit : Nat}

theorem val_of_belowLimit? {part : Nat} {number : Fin limit}
    (h : belowLimit? limit part = some number) : number.val = part := by
  unfold belowLimit? at h
  split at h
  · rw [← Option.some.inj h]
  · cases h

theorem map_val_of_mapM {parts : List Nat} {numbers : List (Fin limit)}
    (h : parts.mapM (belowLimit? limit) = some numbers) : numbers.map (·.val) = parts := by
  induction parts generalizing numbers with
  | nil =>
    obtain rfl := Option.some.inj h
    rfl
  | cons part rest ih =>
    rw [List.mapM_cons] at h
    obtain ⟨number, hnumber, h⟩ := Option.bind_eq_some_iff.mp h
    obtain ⟨others, hothers, h⟩ := Option.bind_eq_some_iff.mp h
    obtain rfl := Option.some.inj h
    rw [List.map_cons, val_of_belowLimit? hnumber, ih hothers]

theorem withoutLimit_of_below? {op : Op Nat} {limited : Op (Fin limit)}
    (h : op.below? limit = some limited) : limited.withoutLimit = op := by
  cases op with
  | token | blank | call =>
    obtain rfl := Option.some.inj h
    rfl
  | seq items =>
    obtain ⟨numbers, hnumbers, rfl⟩ := Option.map_eq_some_iff.mp h
    exact congrArg Op.seq (map_val_of_mapM hnumbers)
  | choice alternatives =>
    obtain ⟨numbers, hnumbers, rfl⟩ := Option.map_eq_some_iff.mp h
    exact congrArg Op.choice (map_val_of_mapM hnumbers)
  | repetition least inner =>
    obtain ⟨number, hnumber, rfl⟩ := Option.map_eq_some_iff.mp h
    exact congrArg (Op.repetition least) (val_of_belowLimit? hnumber)
  | optional inner =>
    obtain ⟨number, hnumber, rfl⟩ := Option.map_eq_some_iff.mp h
    exact congrArg Op.optional (val_of_belowLimit? hnumber)

theorem exists_mapM_belowLimit? {parts : List Nat} (below : ∀ part ∈ parts, part < limit) :
    ∃ numbers, parts.mapM (belowLimit? limit) = some numbers := by
  induction parts with
  | nil => exact ⟨[], rfl⟩
  | cons part rest ih =>
    obtain ⟨hpart, hrest⟩ := List.forall_mem_cons.mp below
    obtain ⟨numbers, hnumbers⟩ := ih hrest
    refine ⟨⟨part, hpart⟩ :: numbers, ?_⟩
    rw [List.mapM_cons, belowLimit?, dif_pos hpart, hnumbers]
    rfl

theorem exists_below? {op : Op Nat} (below : ∀ part ∈ op.parts, part < limit) :
    ∃ limited, op.below? limit = some limited := by
  cases op with
  | token | blank | call => exact ⟨_, rfl⟩
  | seq items =>
    obtain ⟨numbers, hnumbers⟩ := exists_mapM_belowLimit? below
    exact ⟨.seq numbers, congrArg (Option.map Op.seq) hnumbers⟩
  | choice alternatives =>
    obtain ⟨numbers, hnumbers⟩ := exists_mapM_belowLimit? below
    exact ⟨.choice numbers, congrArg (Option.map Op.choice) hnumbers⟩
  | repetition least inner =>
    exact ⟨.repetition least ⟨inner, below inner List.mem_cons_self⟩,
      congrArg (Option.map (Op.repetition least)) (dif_pos _)⟩
  | optional inner =>
    exact ⟨.optional ⟨inner, below inner List.mem_cons_self⟩,
      congrArg (Option.map Op.optional) (dif_pos _)⟩

end Op

/-- **A view shows the operation**, unless it is the choice without alternatives. -/
theorem Program.getElem?_of_view {program : Program} {op : Nat} {view : Op (Fin op)}
    (h : program.view op = view) (some : view ≠ .choice []) :
    program.ops[op]? = .some view.withoutLimit := by
  unfold Program.view at h
  cases hview : (program.ops[op]?).bind (Op.below? op) with
  | none =>
    rw [hview] at h
    exact absurd h.symm some
  | some limited =>
    rw [hview] at h
    obtain rfl : limited = view := h
    obtain ⟨what, hwhat, hbelow⟩ := Option.bind_eq_some_iff.mp hview
    rw [hwhat, Op.withoutLimit_of_below? hbelow]

/-- An operation is viewed as what it is, or not viewed at all. -/
theorem Program.view_of_getElem? {program : Program} {op : Nat} {what : Op Nat}
    (found : program.ops[op]? = some what) :
    (program.view op).withoutLimit = what ∨ program.view op = .choice [] := by
  unfold Program.view
  rw [found, Option.bind_some]
  cases hbelow : what.below? op with
  | none => exact .inr rfl
  | some limited => exact .inl (Op.withoutLimit_of_below? hbelow)

/-- An operation whose parts come before it is viewed as what it is. -/
theorem Program.withoutLimit_view {program : Program} {op : Nat} {what : Op Nat}
    (found : program.ops[op]? = some what) (below : ∀ part ∈ what.parts, part < op) :
    (program.view op).withoutLimit = what := by
  obtain ⟨limited, hlimited⟩ := Op.exists_below? below
  rw [Program.view, found, Option.bind_some, hlimited]
  exact Op.withoutLimit_of_below? hlimited

namespace CompiledGrammar

variable {compiled : CompiledGrammar} {grammar : Grammar}

/-- Tokens that operations match have kinds of terminals. -/
theorem Realizes.owns_of_view (h : compiled.Realizes grammar) {op : Nat} {kind : Kind}
    (view : compiled.program.view op = .token kind) : compiled.kinds.Owns kind := by
  have hop := Program.getElem?_of_view view (by simp)
  exact h.owned.of_assigns (h.known _ (Array.mem_of_getElem? hop))

theorem Realizes.not_reserved (h : compiled.Realizes grammar) {number : Nat} {rule : Rule}
    (lookup : compiled.program.rules[number]? = some rule) : rule.kind.isReserved = false := by
  obtain ⟨base, hbase, hkinds⟩ := h.kinds
  rw [hkinds number rule lookup, Kind.isReserved, decide_eq_false_iff_not]
  exact Nat.not_lt.mpr (Nat.le_add_right_of_le hbase)

theorem Realizes.kind_ne (h : compiled.Realizes grammar) {number : Nat} {rule : Rule}
    (lookup : compiled.program.rules[number]? = some rule) {kind : Kind}
    (reserved : kind.isReserved = true) : rule.kind ≠ kind := by
  rintro rfl
  exact Bool.false_ne_true ((h.not_reserved lookup).symm.trans reserved)

theorem Realizes.kind_ne_missing (h : compiled.Realizes grammar) {number : Nat} {rule : Rule}
    (lookup : compiled.program.rules[number]? = some rule) : rule.kind ≠ Kind.missing :=
  h.kind_ne lookup rfl

end CompiledGrammar

end Syntagm
