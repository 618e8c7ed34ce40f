import Syntagm.Proofs.Coverage
import Syntagm.Proofs.Terminals

/-!
# Programs are well formed

Lowering a rule adds operations one by one behind those that are there, each with parts that are
there by then (`Arena.Builds`).  So the arena stays well formed, what is in it stays, and whatever
is added belongs to the rule (`Builds.wellFormed`, `Builds.extended`, `Builds.owned`).  Rule after
rule this makes a program in which every operation was added for the rule that owns it
(`Program.BuildsRules`).

The tokens in it are terminals: the lexicon gives out no kind but that of a terminal
(`Lexicon.Grounded`), and no two terminals have the same.
-/

namespace Syntagm

/-! ### Arenas -/

namespace Arena

/-- **Operations of a rule are added** behind others: their parts are there by then, and the rules
that they call exist, of which there are `limit`. -/
inductive Builds (owner limit : Nat) (before : Arena) : Arena → Prop where
  | refl : Builds owner limit before before
  | add {middle : Arena} {what : Op Nat} (h : Builds owner limit before middle)
      (parts : ∀ part ∈ what.parts, part < middle.ops.size)
      (calls : ∀ rule bound, what = .call rule bound → rule < limit) :
      Builds owner limit before (middle.add owner what).2

/-- **A well-formed arena**: every operation has an owner, parts come first, and calls go to rules
that exist. -/
structure WellFormed (limit : Nat) (arena : Arena) : Prop where
  owners : arena.owners.size = arena.ops.size
  parts : ∀ (op : Nat) (what : Op Nat), arena.ops[op]? = some what → ∀ part ∈ what.parts, part < op
  calls : ∀ (op rule : Nat) (bound : Int), arena.ops[op]? = some (.call rule bound) → rule < limit

/-- What is in one arena is in the other one. -/
structure Extends (before after : Arena) : Prop where
  ops : before.ops.toList <+: after.ops.toList
  owners : before.owners.toList <+: after.owners.toList

variable {owner limit : Nat} {before middle after : Arena}

namespace Extends

theorem refl (arena : Arena) : Extends arena arena := ⟨List.prefix_rfl, List.prefix_rfl⟩

theorem trans (h : Extends before middle) (h' : Extends middle after) : Extends before after :=
  ⟨h.ops.trans h'.ops, h.owners.trans h'.owners⟩

theorem size_le (h : Extends before after) : before.ops.size ≤ after.ops.size := by
  simpa using h.ops.length_le

/-- What is there stays at its place. -/
theorem getElem?_of_prefix {α : Type} {front whole : Array α} (h : front.toList <+: whole.toList)
    {index : Nat} (lt : index < front.size) : whole[index]? = front[index]? := by
  obtain ⟨more, heq⟩ := h
  rw [← Array.getElem?_toList, ← Array.getElem?_toList, ← heq,
    List.getElem?_append_left (by simpa using lt)]

end Extends

theorem WellFormed.getElem?_owners (wf : before.WellFormed limit) (h : before.Extends after)
    {op : Nat} (lt : op < before.ops.size) : after.owners[op]? = before.owners[op]? :=
  Extends.getElem?_of_prefix h.owners (wf.owners ▸ lt)

/-- An arena with one more operation. -/
theorem WellFormed.add (wf : before.WellFormed limit) {what : Op Nat}
    (parts : ∀ part ∈ what.parts, part < before.ops.size)
    (calls : ∀ rule bound, what = .call rule bound → rule < limit) :
    (before.add owner what).2.WellFormed limit := by
  -- an operation is the new one, or was there
  have hold {op : Nat} {other : Op Nat} (found : (before.add owner what).2.ops[op]? = some other) :
      op = before.ops.size ∧ other = what ∨ before.ops[op]? = some other := by
    simp only [Arena.add, Array.getElem?_push] at found
    split at found
    · exact .inl ⟨‹_›, (Option.some.inj found).symm⟩
    · exact .inr found
  refine ⟨by simp [Arena.add, wf.owners], fun op other found part hpart => ?_,
    fun op rule bound found => ?_⟩
  · rcases hold found with ⟨rfl, rfl⟩ | hfound
    · exact parts part hpart
    · exact wf.parts op other hfound part hpart
  · rcases hold found with ⟨rfl, heq⟩ | hfound
    · exact calls rule bound heq.symm
    · exact wf.calls op rule bound hfound

theorem wellFormed_empty (limit : Nat) : empty.WellFormed limit :=
  ⟨rfl, fun _ _ found => (nomatch found), fun _ _ _ found => (nomatch found)⟩

namespace Builds

theorem trans (h : Builds owner limit before middle) (h' : Builds owner limit middle after) :
    Builds owner limit before after := by
  induction h' with
  | refl => exact h
  | add _ parts calls ih => exact ih.add parts calls

theorem extended (h : Builds owner limit before after) : before.Extends after := by
  induction h with
  | refl => exact .refl before
  | add _ _ _ ih => exact ih.trans ⟨by simp [Arena.add], by simp [Arena.add]⟩

/-- **Building keeps an arena well formed.** -/
theorem wellFormed (h : Builds owner limit before after) (wf : before.WellFormed limit) :
    after.WellFormed limit := by
  induction h with
  | refl => exact wf
  | add _ parts calls ih => exact ih.add parts calls

/-- **What is added belongs to the rule.** -/
theorem owned (h : Builds owner limit before after) (wf : before.WellFormed limit) {op : Nat}
    (ge : before.ops.size ≤ op) (lt : op < after.ops.size) : after.owners[op]? = some owner := by
  induction h with
  | refl => exact absurd lt (Nat.not_lt.mpr ge)
  | @add middle what h _ _ ih =>
    have hsize := (h.wellFormed wf).owners
    simp only [Arena.add, Array.size_push, Array.getElem?_push, hsize] at lt ⊢
    split
    · rfl
    · exact ih (by omega)

end Builds

end Arena

/-! ### Lowering a rule -/

/-- The operations that a body points at: its entry and its tails. -/
def RuleBody.ops : RuleBody → List Nat
  | .plain op => [op]
  | .leftRecursive base tails => base :: tails.map (·.op)

namespace LoweringScope

/-- **Lowering adds operations** of the rule, the given ones among them. -/
structure Adds (scope : LoweringScope) (before after : Arena) (ops : List Nat) : Prop where
  builds : before.Builds scope.rule scope.ruleNames.length after
  inside : ∀ op ∈ ops, op < after.ops.size

namespace Adds

variable {scope : LoweringScope} {before middle after : Arena} {op : Nat} {ops others : List Nat}

theorem nil : scope.Adds before before [] := ⟨.refl, List.forall_mem_nil _⟩

theorem append (h : scope.Adds before middle ops) (h' : scope.Adds middle after others) :
    scope.Adds before after (ops ++ others) :=
  ⟨h.builds.trans h'.builds, List.forall_mem_append.mpr
    ⟨fun op hop => Nat.lt_of_lt_of_le (h.inside op hop) h'.builds.extended.size_le, h'.inside⟩⟩

/-- One more operation, made of those that were added. -/
theorem add (h : scope.Adds before middle ops) {what : Op Nat} (parts : what.parts ⊆ ops)
    (calls : ∀ rule bound, what = .call rule bound → rule < scope.ruleNames.length) :
    scope.Adds before (middle.add scope.rule what).2 [(middle.add scope.rule what).1] :=
  ⟨h.builds.add (fun part hpart => h.inside part (parts hpart)) calls,
    List.forall_mem_singleton.mpr (by simp [Arena.add])⟩

/-- One more operation that is no call. -/
theorem wrap (h : scope.Adds before middle ops) {what : Op Nat} (parts : what.parts ⊆ ops)
    (noCall : ∀ rule bound, what ≠ .call rule bound) :
    scope.Adds before (middle.add scope.rule what).2 [(middle.add scope.rule what).1] :=
  h.add parts fun rule bound heq => absurd heq (noCall rule bound)

end Adds

variable {scope : LoweringScope}

mutual

/-- Lowering an expression adds operations. -/
theorem adds_lower (expression : Expression) {before after : Arena} {op : Nat}
    (done : scope.lower expression before = .ok (op, after)) : scope.Adds before after [op] := by
  cases expression with
  | literal text =>
    simp only [lower] at done
    split at done
    · obtain ⟨rfl, rfl⟩ := Prod.mk.inj (Except.ok.inj done)
      exact Adds.nil.wrap (List.Subset.refl _) nofun
    · cases done
  | reference name =>
    simp only [lower] at done
    split at done
    · rename_i rule hrule
      obtain ⟨rfl, rfl⟩ := Prod.mk.inj (Except.ok.inj done)
      refine Adds.nil.add (List.Subset.refl _) fun _ _ heq => ?_
      obtain ⟨rfl, -⟩ := Op.call.inj heq
      exact (List.getElem?_eq_some_iff.mp (getElem?_of_idxOf? hrule)).1
    · split at done
      · obtain ⟨rfl, rfl⟩ := Prod.mk.inj (Except.ok.inj done)
        exact Adds.nil.wrap (List.Subset.refl _) nofun
      · cases done
  | seq items =>
    simp only [lower] at done
    obtain ⟨⟨ops, middle⟩, hitems, done⟩ := bind_eq_ok.mp done
    obtain ⟨rfl, rfl⟩ := Prod.mk.inj (pure_eq_ok.mp done)
    have hall := adds_lowerAll items hitems
    split
    · exact hall.wrap (List.nil_subset _) nofun
    · exact hall.wrap (List.Subset.refl _) nofun
  | choice alternatives =>
    simp only [lower] at done
    obtain ⟨⟨ops, middle⟩, halternatives, done⟩ := bind_eq_ok.mp done
    obtain ⟨rfl, rfl⟩ := Prod.mk.inj (pure_eq_ok.mp done)
    exact (adds_lowerAll alternatives halternatives).wrap (List.Subset.refl _) nofun
  | repetition _ inner | optional inner =>
    simp only [lower] at done
    obtain ⟨⟨part, middle⟩, hinner, done⟩ := bind_eq_ok.mp done
    obtain ⟨rfl, rfl⟩ := Prod.mk.inj (pure_eq_ok.mp done)
    exact (adds_lower inner hinner).wrap (List.Subset.refl _) nofun
  | blank =>
    simp only [lower] at done
    obtain ⟨rfl, rfl⟩ := Prod.mk.inj (Except.ok.inj done)
    exact Adds.nil.wrap (List.Subset.refl _) nofun
  | precedence _ _ inner =>
    simp only [lower] at done
    exact adds_lower inner done
  | pattern _ | token _ | nested _ _ | delimited _ _ | quoted _ _ =>
    simp only [lower] at done
    split at done
    · obtain ⟨rfl, rfl⟩ := Prod.mk.inj (Except.ok.inj done)
      exact Adds.nil.wrap (List.Subset.refl _) nofun
    · cases done

theorem adds_lowerAll (expressions : List Expression) {before after : Arena} {ops : List Nat}
    (done : scope.lowerAll expressions before = .ok (ops, after)) :
    scope.Adds before after ops := by
  cases expressions with
  | nil =>
    simp only [lowerAll] at done
    obtain ⟨rfl, rfl⟩ := Prod.mk.inj (Except.ok.inj done)
    exact .nil
  | cons first rest =>
    simp only [lowerAll] at done
    obtain ⟨⟨op, middle⟩, hfirst, done⟩ := bind_eq_ok.mp done
    obtain ⟨⟨ops, last⟩, hrest, done⟩ := bind_eq_ok.mp done
    obtain ⟨rfl, rfl⟩ := Prod.mk.inj (pure_eq_ok.mp done)
    exact (adds_lower first hfirst).append (adds_lowerAll rest hrest)

end

-- the rule that is lowered is one of the rules
variable (self : scope.rule < scope.ruleNames.length)
include self

theorem adds_lowerItems (bound : Int) (items : List Expression) {before after : Arena}
    {ops : List Nat} (done : scope.lowerItems bound items before = .ok (ops, after)) :
    scope.Adds before after ops := by
  induction items generalizing before ops with
  | nil =>
    obtain ⟨rfl, rfl⟩ := Prod.mk.inj (Except.ok.inj done)
    exact .nil
  | cons item rest ih =>
    rw [lowerItems] at done
    split at done
    all_goals
      obtain ⟨⟨op, middle⟩, hitem, done⟩ := bind_eq_ok.mp done
      obtain ⟨⟨ops, last⟩, hrest, done⟩ := bind_eq_ok.mp done
      obtain ⟨rfl, rfl⟩ := Prod.mk.inj (pure_eq_ok.mp done)
    · obtain ⟨rfl, rfl⟩ := Prod.mk.inj (pure_eq_ok.mp hitem)
      refine Adds.append (Adds.nil.add (List.Subset.refl _) fun _ _ heq => ?_) (ih hrest)
      obtain ⟨rfl, -⟩ := Op.call.inj heq
      exact self
    · exact (adds_lower item hitem).append (ih hrest)

theorem adds_lowerSequence (bound : Int) (items : List Expression) {before after : Arena} {op : Nat}
    (done : scope.lowerSequence bound items before = .ok (op, after)) :
    scope.Adds before after [op] := by
  rw [lowerSequence] at done
  obtain ⟨⟨ops, middle⟩, hitems, done⟩ := bind_eq_ok.mp done
  have hall := adds_lowerItems self bound items hitems
  obtain _ | ⟨first, _ | ⟨second, rest⟩⟩ := ops
  · obtain ⟨rfl, rfl⟩ := Prod.mk.inj (pure_eq_ok.mp done)
    exact hall.wrap (List.Subset.refl _) (by simp)
  · obtain ⟨rfl, rfl⟩ := Prod.mk.inj (pure_eq_ok.mp done)
    exact hall
  · obtain ⟨rfl, rfl⟩ := Prod.mk.inj (pure_eq_ok.mp done)
    exact hall.wrap (List.Subset.refl _) (by simp)

theorem adds_lowerBase (alternative : Alternative) {before after : Arena} {op : Nat}
    (done : scope.lowerBase alternative before = .ok (op, after)) :
    scope.Adds before after [op] := by
  unfold lowerBase at done
  split at done
  · exact adds_lowerSequence self _ _ done
  · exact adds_lower _ done

theorem adds_lowerAlternatives (alternatives : List Alternative) {before after : Arena}
    {base : List Nat} {tails : List Tail}
    (done : scope.lowerAlternatives alternatives before = .ok (base, tails, after)) :
    scope.Adds before after (base ++ tails.map (·.op)) := by
  induction alternatives generalizing before base tails with
  | nil =>
    obtain ⟨rfl, hpair⟩ := Prod.mk.inj (Except.ok.inj done)
    obtain ⟨rfl, rfl⟩ := Prod.mk.inj hpair
    exact .nil
  | cons first rest ih =>
    rw [lowerAlternatives] at done
    split at done
    all_goals
      obtain ⟨⟨op, middle⟩, hfirst, done⟩ := bind_eq_ok.mp done
      obtain ⟨⟨others, rests, last⟩, hrest, done⟩ := bind_eq_ok.mp done
      obtain ⟨rfl, hpair⟩ := Prod.mk.inj (pure_eq_ok.mp done)
      obtain ⟨rfl, rfl⟩ := Prod.mk.inj hpair
    · -- the tail stands behind the base
      have hall := (adds_lowerSequence self _ _ hfirst).append (ih hrest)
      exact ⟨hall.builds, fun op hop => hall.inside op (by simpa [or_left_comm] using hop)⟩
    · exact (adds_lowerBase self first hfirst).append (ih hrest)

/-- **Lowering the body of a rule** adds operations of this rule, among them its entry and its
tails. -/
theorem adds_lowerBody (body : Expression) {before after : Arena} {lowered : RuleBody}
    (done : scope.lowerBody body before = .ok (lowered, after)) :
    scope.Adds before after lowered.ops := by
  simp only [lowerBody] at done
  split at done
  · obtain ⟨⟨base, tails, middle⟩, halternatives, done⟩ := bind_eq_ok.mp done
    have hall := adds_lowerAlternatives self _ halternatives
    obtain _ | ⟨first, _ | ⟨second, rest⟩⟩ := base
    · exact absurd done throw_ne_ok
    · obtain ⟨rfl, rfl⟩ := Prod.mk.inj (pure_eq_ok.mp done)
      exact hall
    · obtain ⟨rfl, rfl⟩ := Prod.mk.inj (pure_eq_ok.mp done)
      have hparts : (Op.choice (first :: second :: rest)).parts ⊆
        first :: second :: rest ++ tails.map (·.op) := List.subset_append_left ..
      refine ⟨(hall.wrap hparts (by simp)).builds, fun op hop => ?_⟩
      rcases List.mem_cons.mp hop with rfl | hop
      · simp [Arena.add]
      · have hlt := hall.inside op (List.mem_append_right _ hop)
        simpa [Arena.add] using Nat.lt_succ_of_lt hlt
  · obtain ⟨⟨op, middle⟩, hbody, done⟩ := bind_eq_ok.mp done
    obtain ⟨rfl, rfl⟩ := Prod.mk.inj (pure_eq_ok.mp done)
    exact adds_lower body hbody

end LoweringScope

/-! ### Lowering all rules -/

namespace Program

/-- **A rule was lowered from its declaration** while the arena was built up to `final`, and what
was added by this is what the rule owns. -/
structure LoweredFrom (lexicon : Lexicon) (names : List String) (final : Arena) (number : Nat)
    (declared : String × Expression) (rule : Rule) (before after : Arena) : Prop where
  name : rule.name = declared.1
  done : LoweringScope.lowerBody ⟨lexicon, names, number, declared.1⟩ declared.2 before =
    .ok (rule.body, after)
  stays : after.Extends final
  owned : ∀ op : Nat, final.owners[op]? = some number ↔
    before.ops.size ≤ op ∧ op < after.ops.size

/-- What lowering the rules of a list adds, the first of which has the number `number`. -/
structure BuildsRules (lexicon : Lexicon) (names : List String) (number : Nat)
    (declared : List (String × Expression)) (before after : Arena) (rules : List Rule) :
    Prop where
  length : rules.length = declared.length
  extended : before.Extends after
  wellFormed : after.WellFormed names.length
  bounded : ∀ op owner : Nat, after.owners[op]? = some owner → owner < number + declared.length
  later : ∀ op owner : Nat, before.ops.size ≤ op → after.owners[op]? = some owner → number ≤ owner
  inside : ∀ rule ∈ rules, ∀ op ∈ rule.body.ops, op < after.ops.size
  lowered : ∀ index rule, rules[index]? = some rule → ∃ entry first last,
    declared[index]? = some entry ∧
      LoweredFrom lexicon names after (number + index) entry rule first last

variable {grammar : Grammar} {lexicon : Lexicon} {names : List String}

theorem buildsRules_lowerRules (number : Nat) (declared : List (String × Expression))
    (kinds : KindTable) (enough : number + declared.length ≤ names.length)
    {table : KindTable} {before after : Arena} {rules : List Rule}
    (wf : before.WellFormed names.length)
    (earlier : ∀ op owner : Nat, before.owners[op]? = some owner → owner < number)
    (done : lowerRules grammar lexicon names number declared kinds before =
      .ok (rules, table, after)) :
    BuildsRules lexicon names number declared before after rules := by
  induction declared generalizing number kinds before rules with
  | nil =>
    obtain ⟨rfl, hpair⟩ := Prod.mk.inj (Except.ok.inj done)
    obtain ⟨rfl, rfl⟩ := Prod.mk.inj hpair
    refine ⟨rfl, .refl _, wf, earlier, fun op owner ge found => ?_, List.forall_mem_nil _, nofun⟩
    have hlt := (Array.getElem?_eq_some_iff.mp found).1
    exact absurd hlt (Nat.not_lt.mpr (wf.owners ▸ ge))
  | cons first rest ih =>
    simp only [lowerRules] at done
    obtain ⟨⟨lowered, middle⟩, hfirst, done⟩ := bind_eq_ok.mp done
    obtain ⟨⟨others, last, final⟩, hrest, done⟩ := bind_eq_ok.mp done
    obtain ⟨rfl, hpair⟩ := Prod.mk.inj (pure_eq_ok.mp done)
    obtain ⟨rfl, rfl⟩ := Prod.mk.inj hpair
    rw [List.length_cons] at enough
    have hself : number < names.length := by omega
    have hadds := LoweringScope.adds_lowerBody hself first.2 hfirst
    have hmiddle := hadds.builds.wellFormed wf
    have hextended := hadds.builds.extended
    -- what is in the middle belongs to this rule or to earlier ones
    have howner (op owner : Nat) (found : middle.owners[op]? = some owner) :
        owner < number ∨ before.ops.size ≤ op ∧ owner = number := by
      have hlt : op < middle.ops.size :=
        hmiddle.owners ▸ (Array.getElem?_eq_some_iff.mp found).1
      rcases Nat.lt_or_ge op before.ops.size with hbefore | hbefore
      · rw [wf.getElem?_owners hextended hbefore] at found
        exact .inl (earlier op owner found)
      · rw [hadds.builds.owned wf hbefore hlt] at found
        exact .inr ⟨hbefore, (Option.some.inj found).symm⟩
    have hothers := ih (number + 1) _ (by omega) hmiddle (fun op owner found => by
      rcases howner op owner found with hlt | ⟨-, rfl⟩ <;> omega) hrest
    refine ⟨by rw [List.length_cons, hothers.length, List.length_cons],
      hextended.trans hothers.extended, hothers.wellFormed, fun op owner found => ?_,
      fun op owner ge found => ?_, ?_, fun index rule hrule => ?_⟩
    · have hlt := hothers.bounded op owner found
      rw [List.length_cons]
      omega
    · rcases Nat.lt_or_ge op middle.ops.size with hlt | hge
      · rw [hmiddle.getElem?_owners hothers.extended hlt,
          hadds.builds.owned wf ge hlt] at found
        exact Nat.le_of_eq (Option.some.inj found)
      · exact Nat.le_of_succ_le (hothers.later op owner hge found)
    · exact List.forall_mem_cons.mpr ⟨fun op hop =>
        Nat.lt_of_lt_of_le (hadds.inside op hop) hothers.extended.size_le, hothers.inside⟩
    · cases index with
      | zero =>
        obtain rfl := Option.some.inj hrule
        refine ⟨first, before, middle, rfl, rfl, hfirst, hothers.extended,
          fun op => ⟨fun found => ?_, ?_⟩⟩
        · rcases Nat.lt_or_ge op middle.ops.size with hlt | hge
          · rw [hmiddle.getElem?_owners hothers.extended hlt] at found
            exact ⟨((howner op _ found).resolve_left (Nat.lt_irrefl _)).1, hlt⟩
          · exact absurd (hothers.later op _ hge found) (Nat.not_succ_le_self _)
        · rintro ⟨ge, lt⟩
          rw [hmiddle.getElem?_owners hothers.extended lt]
          exact hadds.builds.owned wf ge lt
      | succ index =>
        obtain ⟨entry, start, stop, hentry, hlowered⟩ := hothers.lowered index rule hrule
        rw [Nat.add_right_comm, Nat.add_assoc] at hlowered
        exact ⟨entry, start, stop, hentry, hlowered⟩

end Program

/-! ### Tokens are terminals -/

namespace Lexicon

/-- **Every kind that is given out is that of a terminal.** -/
structure Grounded (lexicon : Lexicon) : Prop where
  named : ∀ entry ∈ lexicon.named, entry.2 ∈ lexicon.terminals.map (·.kind)
  literals : ∀ entry ∈ lexicon.literals, entry.2 ∈ lexicon.terminals.map (·.kind)
  inline : ∀ entry ∈ lexicon.inline, entry.2 ∈ lexicon.terminals.map (·.kind)

variable {lexicon : Lexicon}

/-- What is found is the kind of a terminal. -/
theorem Grounded.of_assigns (h : lexicon.Grounded) {kind : Kind} (assigns : lexicon.Assigns kind) :
    kind ∈ lexicon.terminals.map (·.kind) := by
  rcases assigns with ⟨text, htext⟩ | ⟨name, hname⟩ | ⟨expression, hexpression⟩
  · exact of_lookup h.literals htext
  · exact of_lookup h.named hname
  · exact of_lookup h.inline hexpression

section
variable {α : Type} {entries : List (α × Kind)} {terminals : List Terminal}

/-- With one more terminal the entries are still kinds of terminals. -/
theorem mem_kinds_concat (h : ∀ entry ∈ entries, entry.2 ∈ terminals.map (·.kind))
    (new : Terminal) : ∀ entry ∈ entries, entry.2 ∈ (terminals ++ [new]).map (·.kind) := by
  intro entry hentry
  rw [List.map_append]
  exact List.mem_append_left _ (h entry hentry)

/-- So are they with an entry for the new terminal. -/
theorem mem_kinds_concat_new (h : ∀ entry ∈ entries, entry.2 ∈ terminals.map (·.kind))
    {new : Terminal} {kind : Kind} (same : new.kind = kind) (key : α) :
    ∀ entry ∈ entries ++ [(key, kind)], entry.2 ∈ (terminals ++ [new]).map (·.kind) :=
  forall_mem_concat (mem_kinds_concat h new) (by simp [same])

end

theorem Draft.keeps_grounded : Draft.Keeps fun draft => draft.lexicon.Grounded where
  named _ _ _ _ _ h := ⟨mem_kinds_concat_new h.named (by rfl) _, mem_kinds_concat h.literals _,
    mem_kinds_concat h.inline _⟩
  literal _ _ h _ := ⟨mem_kinds_concat h.named _, mem_kinds_concat_new h.literals (by rfl) _,
    mem_kinds_concat h.inline _⟩
  inline _ _ _ _ h _ := ⟨mem_kinds_concat h.named _, mem_kinds_concat h.literals _,
    mem_kinds_concat_new h.inline (by rfl) _⟩

theorem map_kind_withKeywords (lexicon : Lexicon) :
    lexicon.withKeywords.terminals.map (·.kind) = lexicon.terminals.map (·.kind) := by
  cases hword : lexicon.wordPattern? with
  | none => rw [withKeywords, hword]
  | some entry =>
    rw [withKeywords_eq hword]
    simp [Function.comp_def]

theorem grounded_ofGrammar {grammar : Grammar} {tokens : List String} {draft : Draft}
    (done : ofGrammar grammar tokens = .ok draft) : draft.lexicon.Grounded := by
  obtain ⟨all, hall, rfl⟩ := Draft.keeps_grounded.ofGrammar done
    ⟨List.forall_mem_nil _, List.forall_mem_nil _, List.forall_mem_nil _⟩
    fun draft word h => ⟨h.named, h.literals, h.inline⟩
  obtain ⟨hnamed, hliterals, hinline⟩ := all.lexicon.lookups_withKeywords
  refine ⟨?_, ?_, ?_⟩
  · show ∀ entry ∈ all.lexicon.withKeywords.named, _
    rw [hnamed, map_kind_withKeywords]
    exact hall.named
  · show ∀ entry ∈ all.lexicon.withKeywords.literals, _
    rw [hliterals, map_kind_withKeywords]
    exact hall.literals
  · show ∀ entry ∈ all.lexicon.withKeywords.inline, _
    rw [hinline, map_kind_withKeywords]
    exact hall.inline

end Lexicon

/-! ### Well-formed programs -/

namespace Program

/-- **A well-formed program** of a grammar with the given lexicon: parts come first, all numbers are
those of rules and operations, every operation was added for the rule that owns it, and every token
has the kind of exactly one terminal. -/
structure WellFormed (program : Program) (grammar : Grammar) (lexicon : Lexicon) : Prop where
  size : program.rules.size = (syntacticRules grammar grammar.tokenRules).length
  parts : ∀ (op : Nat) (what : Op Nat), program.ops[op]? = some what →
    ∀ part ∈ what.parts, part < op
  calls : ∀ (op rule : Nat) (bound : Int), program.ops[op]? = some (.call rule bound) →
    rule < program.rules.size
  entries : ∀ rule ∈ program.rules, rule.entry < program.ops.size
  tails : ∀ rule ∈ program.rules, ∀ base tails, rule.body = .leftRecursive base tails →
    ∀ tail ∈ tails, tail.op < program.ops.size
  owners : program.owners.size = program.ops.size
  owner : ∀ op owner : Nat, program.owners[op]? = some owner → owner < program.rules.size
  lowered : ∀ (number : Nat) (rule : Rule), program.rules[number]? = some rule →
    ∃ entry before after, (syntacticRules grammar grammar.tokenRules)[number]? = some entry ∧
      LoweredFrom lexicon ((syntacticRules grammar grammar.tokenRules).map (·.1))
        ⟨program.ops, program.owners⟩ number entry rule before after
  tokens : ∀ (op : Nat) (kind : Kind), program.ops[op]? = some (.token kind) →
    kind.isReserved = false ∧ (lexicon.terminals.map (·.kind)).count kind = 1

variable {grammar : Grammar} {start : String} {draft : Lexicon.Draft}

/-- What lowering makes of a grammar is well formed. -/
theorem WellFormed.ofGrammar {program : Program} {kinds : KindTable}
    (scanned : Lexicon.ofGrammar grammar grammar.tokenRules = .ok draft)
    (done : Program.ofGrammar grammar grammar.tokenRules draft = .ok (program, kinds)) :
    program.WellFormed grammar draft.lexicon := by
  have hdone := done
  unfold Program.ofGrammar at hdone
  obtain ⟨⟨rules, table, after⟩, hrules, hdone⟩ := bind_eq_ok.mp hdone
  obtain ⟨rfl, rfl⟩ := Prod.mk.inj (pure_eq_ok.mp hdone)
  have hbuilds := buildsRules_lowerRules 0 _ draft.kinds (by simp) (Arena.wellFormed_empty _)
    (fun _ _ found => (nomatch found)) hrules
  have hnames : ((syntacticRules grammar grammar.tokenRules).map (·.1)).length = rules.length := by
    rw [List.length_map, hbuilds.length]
  have hops (rule : Rule) (hrule : rule ∈ rules.toArray) :
      ∀ op ∈ rule.body.ops, op < after.ops.size := hbuilds.inside rule (by simpa using hrule)
  exact {
    size := hbuilds.length
    parts := hbuilds.wellFormed.parts
    calls := fun op rule bound found =>
      Nat.lt_of_lt_of_eq (hbuilds.wellFormed.calls op rule bound found) hnames
    entries := fun rule hrule => hops rule hrule _ (by
      unfold Rule.entry RuleBody.ops
      cases rule.body <;> exact List.mem_cons_self)
    tails := fun rule hrule base tails heq tail htail => hops rule hrule _ (by
      rw [heq]
      exact List.mem_cons_of_mem _ (List.mem_map_of_mem htail))
    owners := hbuilds.wellFormed.owners
    owner := fun op owner found => by
      have hlt := hbuilds.bounded op owner found
      rwa [Nat.zero_add, ← hbuilds.length] at hlt
    lowered := fun number rule hrule => by
      obtain ⟨entry, before, last, hentry, hlowered⟩ :=
        hbuilds.lowered number rule (by simpa using hrule)
      rw [Nat.zero_add] at hlowered
      exact ⟨entry, before, last, hentry, hlowered⟩
    tokens := fun op kind found => by
      obtain ⟨final, hfinal, hlowers⟩ := Program.lowersRules_ofGrammar done
      obtain ⟨more, heq, hknown⟩ := hlowers.grows
      rw [hfinal, heq] at found
      have hassigns : (Op.token kind).Known draft.lexicon :=
        hknown _ (by simpa [Arena.empty] using Array.mem_of_getElem? found)
      exact ⟨((Lexicon.sound_ofGrammar scanned).owned.of_assigns hassigns).not_reserved,
        List.count_eq_one_of_mem (Lexicon.distinct_ofGrammar scanned).1.kinds
          ((Lexicon.grounded_ofGrammar scanned).of_assigns hassigns)⟩ }

/-- The rule with which parsing starts is one of the rules of the program. -/
theorem WellFormed.exists_rule? {program : Program} {lexicon : Lexicon}
    (wf : program.WellFormed grammar lexicon) (resolved : grammar.resolve = .ok start) :
    ∃ number, program.rule? start = some number := by
  have hsyntactic : grammar.tokenRules.contains start = false := by
    rw [Bool.eq_false_iff, ne_eq, List.contains_iff_mem]
    exact fun hmem =>
      Grammar.start_ne_of_mem_tokenRules hmem (Grammar.start_of_resolve resolved)
  obtain ⟨body, hbody⟩ :=
    Grammar.exists_mem_of_declares (Grammar.declares_of_resolve resolved).1
  obtain ⟨number, hlt, hentry⟩ := List.getElem_of_mem
    (List.mem_filter.mpr ⟨hbody, Bool.not_eq_eq_eq_not.mpr hsyntactic⟩ :
      (start, body) ∈ syntacticRules grammar grammar.tokenRules)
  -- the rule of this number is the one that was lowered from the declaration
  obtain ⟨entry, _, _, hfound, hlowered⟩ :=
    wf.lowered number _ (Array.getElem?_eq_getElem (wf.size ▸ hlt))
  obtain rfl : (start, body) = entry :=
    Option.some.inj ((List.getElem?_eq_some_iff.mpr ⟨hlt, hentry⟩).symm.trans hfound)
  refine Option.isSome_iff_exists.mp ?_
  rw [rule?, Array.findIdx?_isSome, Array.any_eq_true']
  exact ⟨_, Array.getElem_mem (wf.size ▸ hlt), beq_iff_eq.mpr hlowered.name⟩

/-- **The phases agree.**  When all names resolve and all terminals are built, lowering fails for
one reason alone, a rule that can begin with nothing but itself.  Otherwise the program is well
formed, and has the start rule. -/
theorem ofGrammar_agrees (resolved : grammar.resolve = .ok start)
    (scanned : Lexicon.ofGrammar grammar grammar.tokenRules = .ok draft) :
    (∃ rule ∈ syntacticRules grammar grammar.tokenRules, rule.2.OnlyTails rule.1 ∧
      Program.ofGrammar grammar grammar.tokenRules draft =
        .error (.leftRecursion [rule.1, rule.1])) ∨
    ∃ program kinds,
      Program.ofGrammar grammar grammar.tokenRules draft = .ok (program, kinds) ∧
      (∃ number, program.rule? start = some number) ∧
      program.WellFormed grammar draft.lexicon := by
  have hcovers := covers_ofGrammar resolved scanned
  rcases lowerRules_total 0 _ draft.kinds .empty hcovers with
    ⟨⟨rules, kinds, arena⟩, hok⟩ | ⟨rule, hmem, honly, herror⟩
  · have hdone : Program.ofGrammar grammar grammar.tokenRules draft =
        .ok (⟨arena.ops, arena.owners, rules.toArray⟩, kinds) := by
      unfold Program.ofGrammar
      exact bind_eq_ok.mpr ⟨_, hok, rfl⟩
    have hwf := WellFormed.ofGrammar scanned hdone
    exact .inr ⟨_, _, hdone, hwf.exists_rule? resolved, hwf⟩
  · refine .inl ⟨rule, hmem, honly, ?_⟩
    unfold Program.ofGrammar
    exact bind_eq_error.mpr (.inl herror)

end Program

/-- A grammar of sums with a literal, a token rule and a terminal that is written out. -/
def Grammar.sums : Grammar :=
  { Grammar.empty "sums" with
    rules := [
      ("sum", .choice [
        .precedence 1 .left (.seq [.reference "sum", .literal "+", .reference "number"]),
        .reference "number", .quoted "<" ">"]),
      ("number", .token (.repetition 1 (.literal "1")))]
    start := some "sum" }

/-- Its terminals. -/
def Lexicon.Draft.sums : Lexicon.Draft :=
  (Lexicon.ofGrammar .sums Grammar.sums.tokenRules).toOption.getD default

theorem Program.ofGrammar_agrees_sums :
    Grammar.sums.resolve = .ok "sum" ∧
      Lexicon.ofGrammar .sums Grammar.sums.tokenRules = .ok .sums ∧
      ∃ program kinds, ofGrammar .sums Grammar.sums.tokenRules .sums = .ok (program, kinds) ∧
        (∃ number, program.rule? "sum" = some number) ∧
        program.WellFormed .sums Lexicon.Draft.sums.lexicon := by
  have hresolved : Grammar.sums.resolve = .ok "sum" := by with_unfolding_all decide
  have hscanned : Lexicon.ofGrammar .sums Grammar.sums.tokenRules = .ok .sums :=
    eq_ok_getD (by with_unfolding_all decide)
  refine ⟨hresolved, hscanned, (ofGrammar_agrees hresolved hscanned).resolve_left ?_⟩
  rintro ⟨rule, -, -, herror⟩
  have hok : (ofGrammar .sums Grammar.sums.tokenRules .sums).toOption.isSome = true := by
    with_unfolding_all decide
  rw [herror] at hok
  cases hok

end Syntagm
