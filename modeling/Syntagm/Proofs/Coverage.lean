import Syntagm.Compiled.Basic
import Syntagm.Proofs.Classification
import Syntagm.Proofs.Lowering

/-!
# Lowering finds every terminal

Three passes look at the bodies of rules: names are resolved, terminals are collected, and the
bodies are lowered.  What lowering looks up are the **leaves** of a body (`Expression.leaves`): its
texts, its references and the terminals written out in it.  The pass that collects terminals meets
the same texts and terminals (`spells_addRuleTerminals`), and adds the token rules that are
referred to (`isSome_named?_addTokenRules`).  So the lexicon covers every leaf
(`covers_ofGrammar`), and lowering fails for one reason alone: a rule of which every alternative
begins with the rule itself (`LoweringScope.lowerBody_total`).
-/

namespace Syntagm

variable {grammar : Grammar} {tokens : List String}

/-! ### Leaves -/

namespace Expression

mutual

/-- The texts, references and terminals that an expression is made of, in order. -/
def leaves : Expression → List Expression
  | .seq items => leavesOfAll items
  | .choice alternatives => leavesOfAll alternatives
  | .repetition _ inner | .optional inner | .precedence _ _ inner => leaves inner
  | .blank => []
  | .literal text => [.literal text]
  | .reference name => [.reference name]
  | .pattern source => [.pattern source]
  | .token inner => [.token inner]
  | .nested opening closing => [.nested opening closing]
  | .delimited opening closing => [.delimited opening closing]
  | .quoted opening closing => [.quoted opening closing]

/-- The leaves of the expressions of a list. -/
def leavesOfAll : List Expression → List Expression
  | [] => []
  | first :: rest => leaves first ++ leavesOfAll rest

end

mutual

/-- A reference among the leaves is one of the references. -/
theorem mem_references_of_leaf {name : String} :
    ∀ expression : Expression, .reference name ∈ expression.leaves → name ∈ expression.references
  | .seq items, h => mem_referencesOfAll_of_leaf items h
  | .choice alternatives, h => mem_referencesOfAll_of_leaf alternatives h
  | .repetition _ inner, h | .optional inner, h | .precedence _ _ inner, h =>
    mem_references_of_leaf inner h
  | .reference _, h => by simpa [leaves, references] using h
  | .blank, h | .literal _, h | .pattern _, h | .token _, h | .nested _ _, h | .delimited _ _, h
  | .quoted _ _, h => by simp [leaves] at h

theorem mem_referencesOfAll_of_leaf {name : String} : ∀ expressions : List Expression,
    .reference name ∈ leavesOfAll expressions → name ∈ referencesOfAll expressions
  | first :: rest, h => (List.mem_append.mp h).elim
    (fun h => List.mem_append_left _ (mem_references_of_leaf first h))
    (fun h => List.mem_append_right _ (mem_referencesOfAll_of_leaf rest h))

end

mutual

/-- The leaves of an alternative are leaves of the body. -/
theorem leaves_of_mem_alternatives {alternative : Alternative} {leaf : Expression} {level : Int}
    {associativity : Associativity} : ∀ body : Expression,
    alternative ∈ body.alternatives level associativity → leaf ∈ alternative.expression.leaves →
      leaf ∈ body.leaves
  | .precedence _ _ inner, h, hleaf => leaves_of_mem_alternatives inner h hleaf
  | .choice bodies, h, hleaf => leaves_of_mem_alternativesOfAll bodies h hleaf
  | .literal _, h, hleaf | .pattern _, h, hleaf | .seq _, h, hleaf | .repetition _ _, h, hleaf
  | .optional _, h, hleaf | .reference _, h, hleaf | .blank, h, hleaf | .token _, h, hleaf
  | .nested _ _, h, hleaf | .delimited _ _, h, hleaf | .quoted _ _, h, hleaf => by
    obtain rfl := List.mem_singleton.mp h
    exact hleaf

theorem leaves_of_mem_alternativesOfAll {alternative : Alternative} {leaf : Expression}
    {level : Int} {associativity : Associativity} : ∀ bodies : List Expression,
    alternative ∈ alternativesOfAll level associativity bodies →
      leaf ∈ alternative.expression.leaves → leaf ∈ leavesOfAll bodies
  | first :: rest, h, hleaf => (List.mem_append.mp h).elim
    (fun h => List.mem_append_left _ (leaves_of_mem_alternatives first h hleaf))
    (fun h => List.mem_append_right _ (leaves_of_mem_alternativesOfAll rest h hleaf))

end

end Expression

/-! ### Collecting terminals -/

/-- Whether a leaf, unless it is a reference, is a terminal of the lexicon. -/
def Lexicon.Spells (lexicon : Lexicon) : Expression → Prop
  | .literal text => (lexicon.literal? text).isSome = true
  | .reference _ => True
  | other => (lexicon.inline? other).isSome = true

namespace Lexicon.Draft

/-- An entry stays when others are added behind it. -/
theorem isSome_lookup_append {α : Type} [BEq α] {entries : List (α × Kind)} {key : α}
    (h : (entries.lookup key).isSome = true) (more : List (α × Kind)) :
    ((entries ++ more).lookup key).isSome = true := by
  rw [List.lookup_append, Option.isSome_or, h, Bool.true_or]

/-- What a lexicon spells, it spells with more terminals. -/
theorem keeps_spells (leaf : Expression) : Keeps (·.lexicon.Spells leaf) where
  named _ _ _ _ _ h := by
    cases leaf <;> exact h
  literal _ _ h _ := by
    cases leaf with
    | literal _ => exact isSome_lookup_append h _
    | _ => exact h
  inline _ _ _ _ h _ := by
    cases leaf with
    | literal _ | reference _ => exact h
    | _ => exact isSome_lookup_append h _

theorem keeps_named (name : String) :
    Keeps fun draft => (draft.lexicon.named? name).isSome = true where
  named _ _ _ _ _ h := isSome_lookup_append h _
  literal _ _ h _ := h
  inline _ _ _ _ h _ := h

end Lexicon.Draft

namespace Grammar

open Lexicon.Draft

/-- The entry that was just added is found. -/
theorem isSome_lookup_concat {α : Type} [BEq α] [LawfulBEq α] (entries : List (α × Kind)) (key : α)
    (kind : Kind) : ((entries ++ [(key, kind)]).lookup key).isSome = true := by
  rw [List.lookup_append, Option.isSome_or, List.lookup_cons_self, Option.isSome_some, Bool.or_true]

mutual

/-- **Collecting the terminals of an expression** meets all its leaves. -/
theorem spells_addTerminals (rule : String) (expression : Expression)
    {draft draft' : Lexicon.Draft}
    (done : grammar.addTerminals rule expression draft = .ok draft') :
    ∀ leaf ∈ expression.leaves, draft'.lexicon.Spells leaf := by
  cases expression with
  | literal text =>
    refine List.forall_mem_singleton.mpr ?_
    simp only [addTerminals] at done
    split at done
    · cases done
    · split at done <;> obtain rfl := Except.ok.inj done
      · assumption
      · exact isSome_lookup_concat ..
  | seq items =>
    exact spells_addAllTerminals rule items (by simpa [addTerminals] using done)
  | choice alternatives =>
    exact spells_addAllTerminals rule alternatives (by simpa [addTerminals] using done)
  | repetition _ inner | precedence _ _ inner | optional inner =>
    exact spells_addTerminals rule inner (by simpa [addTerminals] using done)
  | reference name => exact List.forall_mem_singleton.mpr trivial
  | blank => exact List.forall_mem_nil _
  | pattern _ | token _ | nested _ _ | delimited _ _ | quoted _ _ =>
    refine List.forall_mem_singleton.mpr ?_
    simp only [addTerminals] at done
    split at done
    · obtain rfl := Except.ok.inj done
      assumption
    · obtain ⟨matcher, -, done⟩ := bind_eq_ok.mp done
      obtain rfl := pure_eq_ok.mp done
      exact isSome_lookup_concat ..

theorem spells_addAllTerminals (rule : String) (expressions : List Expression)
    {draft draft' : Lexicon.Draft}
    (done : grammar.addAllTerminals rule expressions draft = .ok draft') :
    ∀ leaf ∈ Expression.leavesOfAll expressions, draft'.lexicon.Spells leaf := by
  cases expressions with
  | nil => exact List.forall_mem_nil _
  | cons first rest =>
    simp only [addAllTerminals] at done
    obtain ⟨middle, hfirst, hrest⟩ := bind_eq_ok.mp done
    refine List.forall_mem_append.mpr ⟨fun leaf hleaf => ?_, spells_addAllTerminals rule rest hrest⟩
    have hspells := spells_addTerminals rule first hfirst leaf hleaf
    exact (keeps_spells leaf).addAllTerminals rule rest hspells hrest

end

/-- **Collecting the terminals of the rules** meets all leaves of those that are no token rules. -/
theorem spells_addRuleTerminals {rules : List (String × Expression)} {draft draft' : Lexicon.Draft}
    (done : grammar.addRuleTerminals tokens rules draft = .ok draft') :
    ∀ rule ∈ rules, tokens.contains rule.1 = false →
      ∀ leaf ∈ rule.2.leaves, draft'.lexicon.Spells leaf := by
  induction rules generalizing draft with
  | nil => exact List.forall_mem_nil _
  | cons first rest ih =>
    rw [addRuleTerminals] at done
    split at done
    · rename_i htoken
      exact List.forall_mem_cons.mpr
        ⟨fun hsyntactic => absurd (htoken.symm.trans hsyntactic) (by decide), ih done⟩
    · obtain ⟨middle, hfirst, hrest⟩ := bind_eq_ok.mp done
      refine List.forall_mem_cons.mpr ⟨fun _ leaf hleaf => ?_, ih hrest⟩
      have hspells := spells_addTerminals _ _ hfirst leaf hleaf
      exact (keeps_spells leaf).addRuleTerminals rest hspells hrest

/-- **Every token rule in use becomes a terminal.** -/
theorem isSome_named?_addTokenRules {rules : List (String × Expression)}
    {draft draft' : Lexicon.Draft}
    (done : grammar.addTokenRules tokens rules draft = .ok draft') :
    ∀ rule ∈ rules, tokens.contains rule.1 = true → grammar.usesToken tokens rule.1 = true →
      (draft'.lexicon.named? rule.1).isSome = true := by
  induction rules generalizing draft with
  | nil => exact List.forall_mem_nil _
  | cons first rest ih =>
    rw [addTokenRules] at done
    split at done <;> rename_i hadded
    · obtain ⟨matcher, -, done⟩ := bind_eq_ok.mp done
      refine List.forall_mem_cons.mpr ⟨fun _ _ => ?_, ih done⟩
      refine (keeps_named first.1).addTokenRules rest ?_ done
      exact isSome_lookup_concat draft.lexicon.named first.1 draft.kinds.next
    · exact List.forall_mem_cons.mpr
        ⟨fun htoken huses => absurd (Bool.and_eq_true_iff.mpr ⟨htoken, huses⟩) hadded, ih done⟩

/-! ### Resolved names -/

/-- A name for which nothing fails has a rule. -/
theorem declares_of_resolveAll {user : String} {names : List String} {done : Unit}
    (h : grammar.resolveAll user names = .ok done) :
    ∀ name ∈ names, grammar.declares name = true := by
  unfold resolveAll at h
  split at h
  · cases h
  · rename_i hnone
    simpa using List.find?_eq_none.mp hnone

theorem eq_ok_of_forM {ε α : Type} {f : α → Except ε Unit} {xs : List α} {done : Unit}
    (h : xs.forM f = .ok done) : ∀ x ∈ xs, f x = .ok () := by
  induction xs with
  | nil => exact List.forall_mem_nil _
  | cons x xs ih =>
    obtain ⟨_, hfirst, hrest⟩ := bind_eq_ok.mp h
    exact List.forall_mem_cons.mpr ⟨hfirst, ih hrest⟩

/-- **In a grammar that resolves** the start rule and whatever a rule refers to are declared. -/
theorem declares_of_resolve {start : String} (resolved : grammar.resolve = .ok start) :
    grammar.declares start = true ∧
      ∀ rule ∈ grammar.rules, ∀ name ∈ rule.2.references, grammar.declares name = true := by
  unfold resolve at resolved
  split at resolved
  · exact absurd resolved throw_ne_ok
  · split at resolved
    · obtain ⟨_, hthrow, -⟩ := bind_eq_ok.mp resolved
      exact absurd hthrow throw_ne_ok
    · simp only [bind_eq_ok, pure_eq_ok] at resolved
      obtain ⟨_, hstart, _, hrules, _, -, _, -, _, -, _, -, rfl⟩ := resolved
      exact ⟨declares_of_resolveAll hstart _ (List.mem_singleton_self _),
        fun rule hrule => declares_of_resolveAll (eq_ok_of_forM hrules rule hrule)⟩

theorem exists_mem_of_declares {name : String} (h : grammar.declares name = true) :
    ∃ body, (name, body) ∈ grammar.rules := by
  obtain ⟨body, hbody⟩ := Option.isSome_iff_exists.mp h
  obtain ⟨front, back, heq, -⟩ := List.lookup_eq_some_iff.mp hbody
  exact ⟨body, heq ▸ by simp⟩

/-- The start rule is no token rule. -/
theorem start_ne_of_mem_tokenRules {name : String} (h : name ∈ grammar.tokenRules) :
    grammar.start ≠ some name :=
  (grammar.leastTokenRules_tokenRules.nonStart name h).2

end Grammar

/-! ### Coverage -/

/-- **A leaf is covered**: lowering finds a kind for it, or the rule that it refers to. -/
def Lexicon.Covers (lexicon : Lexicon) (names : List String) : Expression → Prop
  | .literal text => (lexicon.literal? text).isSome = true
  | .reference name => name ∈ names ∨ (lexicon.named? name).isSome = true
  | other => (lexicon.inline? other).isSome = true

theorem Lexicon.Covers.of_spells {lexicon : Lexicon} {names : List String} {leaf : Expression}
    (spells : lexicon.Spells leaf)
    (reference : ∀ name, leaf = .reference name →
      name ∈ names ∨ (lexicon.named? name).isSome = true) : lexicon.Covers names leaf := by
  cases leaf with
  | reference name => exact reference name rfl
  | _ => exact spells

/-- With keywords a lexicon has the same terminals under the same names. -/
theorem Lexicon.lookups_withKeywords (lexicon : Lexicon) :
    lexicon.withKeywords.named = lexicon.named ∧
      lexicon.withKeywords.literals = lexicon.literals ∧
      lexicon.withKeywords.inline = lexicon.inline := by
  rw [withKeywords]
  split <;> exact ⟨rfl, rfl, rfl⟩

theorem Lexicon.Covers.withKeywords {lexicon : Lexicon} {names : List String} {leaf : Expression}
    (h : lexicon.Covers names leaf) : lexicon.withKeywords.Covers names leaf := by
  obtain ⟨hnamed, hliterals, hinline⟩ := lexicon.lookups_withKeywords
  cases leaf <;>
    simpa only [Covers, literal?, named?, inline?, hnamed, hliterals, hinline] using h

namespace Program

theorem mem_names_of_not_token {name : String} (declared : grammar.declares name = true)
    (syntactic : tokens.contains name = false) :
    name ∈ (syntacticRules grammar tokens).map (·.1) := by
  obtain ⟨body, hmem⟩ := Grammar.exists_mem_of_declares declared
  exact List.mem_map.mpr ⟨_, List.mem_filter.mpr ⟨hmem, Bool.not_eq_eq_eq_not.mpr syntactic⟩, rfl⟩

/-- **The lexicon of a grammar covers all that lowering looks up.** -/
theorem covers_ofGrammar {start : String} {draft : Lexicon.Draft}
    (resolved : grammar.resolve = .ok start)
    (scanned : Lexicon.ofGrammar grammar tokens = .ok draft) :
    ∀ rule ∈ syntacticRules grammar tokens, ∀ leaf ∈ rule.2.leaves,
      draft.lexicon.Covers ((syntacticRules grammar tokens).map (·.1)) leaf := by
  obtain ⟨named, all, hnamed, hall, rfl⟩ := Lexicon.steps_ofGrammar scanned
  intro rule hrule leaf hleaf
  obtain ⟨hmem, hsyntactic⟩ := List.mem_filter.mp hrule
  have hother := Bool.not_eq_eq_eq_not.mp hsyntactic
  refine .withKeywords (.of_spells
    (Grammar.spells_addRuleTerminals hall rule hmem hother leaf hleaf) fun name heq => ?_)
  -- what a rule refers to is another such rule, or a token rule that is in use for this reason
  have href := rule.2.mem_references_of_leaf (heq ▸ hleaf)
  have hdeclared := (Grammar.declares_of_resolve resolved).2 rule hmem name href
  cases htoken : tokens.contains name with
  | false => exact .inl (mem_names_of_not_token hdeclared htoken)
  | true =>
    obtain ⟨body, hbody⟩ := Grammar.exists_mem_of_declares hdeclared
    have huses : grammar.usesToken tokens name = true :=
      Bool.or_eq_true_iff.mpr (.inr (List.any_eq_true.mpr
        ⟨rule, hmem, Bool.and_eq_true_iff.mpr ⟨hsyntactic, List.contains_iff_mem.mpr href⟩⟩))
    refine .inr ((Lexicon.Draft.keeps_named name).addRuleTerminals _ ?_ hall)
    exact Grammar.isSome_named?_addTokenRules hnamed _ hbody htoken huses

end Program

/-! ### Lowering what is covered -/

/-- Two computations that both give a result give one together. -/
theorem exists_bind_eq_ok {ε α β : Type} {x : Except ε α} {f : α → Except ε β}
    (first : ∃ a, x = .ok a) (second : ∀ a, ∃ b, f a = .ok b) : ∃ b, x >>= f = .ok b := by
  obtain ⟨a, rfl⟩ := first
  exact second a

namespace LoweringScope

variable {scope : LoweringScope}

/-- Whatever is looked up for an expression is found. -/
def Covers (scope : LoweringScope) (leaves : List Expression) : Prop :=
  ∀ leaf ∈ leaves, scope.lexicon.Covers scope.ruleNames leaf

mutual

/-- **Lowering an expression fails for no other reason** than a leaf that is not covered. -/
theorem lower_total (expression : Expression) (covered : scope.Covers expression.leaves)
    (arena : Arena) : ∃ result, scope.lower expression arena = .ok result := by
  cases expression with
  | literal text =>
    have hcovered := covered _ (List.mem_singleton_self _)
    obtain ⟨kind, hkind⟩ := Option.isSome_iff_exists.mp hcovered
    exact ⟨_, by rw [lower, hkind]⟩
  | reference name =>
    rw [lower]
    cases hrule : scope.ruleNames.idxOf? name with
    | some rule => exact ⟨_, rfl⟩
    | none =>
      have hcovered := covered _ (List.mem_singleton_self _)
      obtain ⟨kind, hkind⟩ := Option.isSome_iff_exists.mp
        (hcovered.resolve_left (List.idxOf?_eq_none_iff.mp hrule))
      exact ⟨_, by simp only [hkind]; rfl⟩
  | seq items =>
    rw [lower]
    exact exists_bind_eq_ok (lowerAll_total items covered arena) fun _ => ⟨_, rfl⟩
  | choice alternatives =>
    rw [lower]
    exact exists_bind_eq_ok (lowerAll_total alternatives covered arena) fun _ => ⟨_, rfl⟩
  | repetition _ inner | optional inner =>
    rw [lower]
    exact exists_bind_eq_ok (lower_total inner covered arena) fun _ => ⟨_, rfl⟩
  | precedence _ _ inner =>
    rw [lower]
    exact lower_total inner covered arena
  | blank => exact ⟨_, by rw [lower]⟩
  | pattern _ | token _ | nested _ _ | delimited _ _ | quoted _ _ =>
    have hcovered := covered _ (List.mem_singleton_self _)
    obtain ⟨kind, hkind⟩ := Option.isSome_iff_exists.mp hcovered
    exact ⟨_, by rw [lower, hkind]⟩

theorem lowerAll_total (expressions : List Expression)
    (covered : scope.Covers (Expression.leavesOfAll expressions)) (arena : Arena) :
    ∃ result, scope.lowerAll expressions arena = .ok result := by
  cases expressions with
  | nil => exact ⟨_, by rw [lowerAll]⟩
  | cons first rest =>
    obtain ⟨hfirst, hrest⟩ := List.forall_mem_append.mp covered
    rw [lowerAll]
    exact exists_bind_eq_ok (lower_total first hfirst arena) fun _ =>
      exists_bind_eq_ok (lowerAll_total rest hrest _) fun _ => ⟨_, rfl⟩

end

theorem lowerItems_total (bound : Int) (items : List Expression)
    (covered : scope.Covers (Expression.leavesOfAll items)) (arena : Arena) :
    ∃ result, scope.lowerItems bound items arena = .ok result := by
  induction items generalizing arena with
  | nil => exact ⟨_, rfl⟩
  | cons item rest ih =>
    obtain ⟨hitem, hrest⟩ := List.forall_mem_append.mp covered
    have hothers (result : Nat × Arena) : ∃ whole, (do
        let others ← scope.lowerItems bound rest result.2
        return (result.1 :: others.1, others.2) : Except GrammarError (List Nat × Arena)) =
          .ok whole :=
      exists_bind_eq_ok (ih hrest _) fun _ => ⟨_, rfl⟩
    rw [lowerItems]
    split
    · exact exists_bind_eq_ok ⟨_, rfl⟩ hothers
    · exact exists_bind_eq_ok (lower_total item hitem arena) hothers

theorem lowerSequence_total (bound : Int) (items : List Expression)
    (covered : scope.Covers (Expression.leavesOfAll items)) (arena : Arena) :
    ∃ result, scope.lowerSequence bound items arena = .ok result := by
  rw [lowerSequence]
  refine exists_bind_eq_ok (lowerItems_total bound items covered arena) fun result => ?_
  obtain ⟨_ | ⟨first, _ | ⟨second, rest⟩⟩, arena⟩ := result
  all_goals exact ⟨_, rfl⟩

/-- What follows the leading reference of an alternative is covered if the alternative is. -/
theorem Covers.afterReference {alternative : Alternative}
    (h : scope.Covers alternative.expression.leaves) :
    scope.Covers (Expression.leavesOfAll alternative.afterReference) := by
  unfold Alternative.afterReference
  split
  · rename_i items heq
    rw [heq, Expression.leaves] at h
    cases items with
    | nil => exact h
    | cons first rest => exact (List.forall_mem_append.mp h).2
  · exact List.forall_mem_nil _

theorem lowerBase_total (alternative : Alternative)
    (covered : scope.Covers alternative.expression.leaves) (arena : Arena) :
    ∃ result, scope.lowerBase alternative arena = .ok result := by
  unfold lowerBase
  split
  · rename_i items heq
    rw [heq, Expression.leaves] at covered
    exact lowerSequence_total _ items covered arena
  · exact lower_total _ covered arena

theorem lowerAlternatives_total (alternatives : List Alternative)
    (covered : ∀ alternative ∈ alternatives, scope.Covers alternative.expression.leaves)
    (arena : Arena) : ∃ result, scope.lowerAlternatives alternatives arena = .ok result := by
  induction alternatives generalizing arena with
  | nil => exact ⟨_, rfl⟩
  | cons first rest ih =>
    obtain ⟨hfirst, hrest⟩ := List.forall_mem_cons.mp covered
    rw [lowerAlternatives]
    split
    · exact exists_bind_eq_ok (lowerSequence_total _ _ hfirst.afterReference arena) fun _ =>
        exists_bind_eq_ok (ih hrest _) fun _ => ⟨_, rfl⟩
    · exact exists_bind_eq_ok (lowerBase_total first hfirst arena) fun _ =>
        exists_bind_eq_ok (ih hrest _) fun _ => ⟨_, rfl⟩

end LoweringScope

/-- **A rule that can begin with nothing but itself**: all its alternatives begin with a reference
to it. -/
def Expression.OnlyTails (name : String) (body : Expression) : Prop :=
  body.alternatives 0 .none ≠ [] ∧
    ∀ alternative ∈ body.alternatives 0 .none, alternative.isTail name = true

namespace LoweringScope

variable {scope : LoweringScope}

/-- Without a base all alternatives are tails. -/
theorem isTail_of_lowerAlternatives (alternatives : List Alternative) {tails : List Tail}
    {before after : Arena}
    (done : scope.lowerAlternatives alternatives before = .ok ([], tails, after)) :
    ∀ alternative ∈ alternatives, alternative.isTail scope.name = true := by
  induction alternatives generalizing before after tails with
  | nil => exact List.forall_mem_nil _
  | cons first rest ih =>
    rw [lowerAlternatives] at done
    split at done <;> rename_i hfirst
    all_goals
      obtain ⟨⟨op, middle⟩, -, done⟩ := bind_eq_ok.mp done
      obtain ⟨⟨base, others, last⟩, hrest, done⟩ := bind_eq_ok.mp done
      obtain ⟨hbase, -⟩ := Prod.mk.inj (pure_eq_ok.mp done)
    · exact List.forall_mem_cons.mpr ⟨hfirst, ih (hbase ▸ hrest)⟩
    · cases hbase

/-- **Lowering a rule fails** only if the rule can begin with nothing but itself. -/
theorem lowerBody_total (body : Expression) (covered : scope.Covers body.leaves) (arena : Arena) :
    (∃ result, scope.lowerBody body arena = .ok result) ∨
      body.OnlyTails scope.name ∧
        scope.lowerBody body arena = .error (.leftRecursion [scope.name, scope.name]) := by
  simp only [lowerBody]
  split <;> rename_i htail
  · have hcovered : ∀ alternative ∈ body.alternatives 0 .none,
        scope.Covers alternative.expression.leaves := fun alternative hmem leaf hleaf =>
      covered leaf (Expression.leaves_of_mem_alternatives body hmem hleaf)
    obtain ⟨⟨base, tails, after⟩, halternatives⟩ := lowerAlternatives_total _ hcovered arena
    rw [halternatives]
    cases base with
    | nil =>
      obtain ⟨alternative, hmem, -⟩ := List.any_eq_true.mp htail
      exact .inr ⟨⟨List.ne_nil_of_mem hmem, isTail_of_lowerAlternatives _ halternatives⟩, rfl⟩
    | cons first rest =>
      cases rest with
      | nil => exact .inl ⟨_, rfl⟩
      | cons second rest => exact .inl ⟨_, rfl⟩
  · exact .inl (exists_bind_eq_ok (lower_total body covered arena) fun _ => ⟨_, rfl⟩)

end LoweringScope

namespace Program

/-- **Lowering the rules fails** only for a rule that can begin with nothing but itself. -/
theorem lowerRules_total {lexicon : Lexicon} {names : List String} (number : Nat)
    (rules : List (String × Expression)) (kinds : KindTable) (arena : Arena)
    (covered : ∀ rule ∈ rules, ∀ leaf ∈ rule.2.leaves, lexicon.Covers names leaf) :
    (∃ result, lowerRules grammar lexicon names number rules kinds arena = .ok result) ∨
      ∃ rule ∈ rules, rule.2.OnlyTails rule.1 ∧
        lowerRules grammar lexicon names number rules kinds arena =
          .error (.leftRecursion [rule.1, rule.1]) := by
  induction rules generalizing number kinds arena with
  | nil => exact .inl ⟨_, rfl⟩
  | cons first rest ih =>
    obtain ⟨hfirst, hrest⟩ := List.forall_mem_cons.mp covered
    have hcovered : LoweringScope.Covers ⟨lexicon, names, number, first.1⟩ first.2.leaves := hfirst
    rw [lowerRules]
    rcases LoweringScope.lowerBody_total first.2 hcovered arena with
      ⟨⟨lowered, middle⟩, hok⟩ | ⟨honly, herror⟩
    · rw [hok]
      rcases ih (number + 1) (kinds.add first.1 (.rule (leavesNoNode grammar first.1))) middle hrest
        with hothers | ⟨rule, hmem, honly, herror⟩
      · obtain ⟨result, hothers⟩ := hothers
        exact .inl ⟨_, bind_eq_ok.mpr ⟨_, rfl, bind_eq_ok.mpr ⟨_, hothers, rfl⟩⟩⟩
      · exact .inr ⟨rule, List.mem_cons_of_mem _ hmem, honly,
          bind_eq_error.mpr (.inr ⟨_, rfl, bind_eq_error.mpr (.inl herror)⟩)⟩
    · exact .inr ⟨first, List.mem_cons_self, honly, bind_eq_error.mpr (.inl herror)⟩

end Program

end Syntagm
