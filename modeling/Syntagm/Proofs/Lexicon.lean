import Mathlib.Tactic.Common
import Syntagm.Token.Lexer

/-!
# The kinds that terminals have

Building a lexicon gives each terminal the next free kind, so no terminal has one of the
reserved kinds (`Lexicon.Owned`).  In particular no token of a text is the end of the input,
and no operation matches it.
-/

namespace Syntagm

/-! ### Computations that may fail -/

section Success
variable {ε α β : Type}

theorem bind_eq_ok {x : Except ε α} {f : α → Except ε β} {b : β} :
    x >>= f = .ok b ↔ ∃ a, x = .ok a ∧ f a = .ok b := by
  cases x <;> simp [bind, Except.bind]

theorem bind_eq_error {x : Except ε α} {f : α → Except ε β} {error : ε} :
    x >>= f = .error error ↔ x = .error error ∨ ∃ a, x = .ok a ∧ f a = .error error := by
  cases x <;> simp [bind, Except.bind]

theorem pure_eq_ok {a b : α} : (pure a : Except ε α) = .ok b ↔ a = b := by
  simp [pure, Except.pure]

theorem throw_ne_ok {error : ε} {a : α} : (throw error : Except ε α) ≠ .ok a := by
  simp [throw, throwThe, MonadExceptOf.throw]

end Success

/-! ### Members of sets of kinds -/

namespace KindSet

theorem getLsbD_bit {position other : Nat} (h : position < 64) :
    (bit position).getLsbD other = decide (other = position) := by
  unfold bit
  rw [BitVec.getLsbD_shiftLeft]
  by_cases heq : other = position
  · simp [heq, h]
  · by_cases hlt : other < position
    · simp [hlt, heq]
    · have : ¬ other - position = 0 := by omega
      simp [hlt, heq, this]

theorem any_insertBit {position other : Nat} (h : position < 64) (words : List (BitVec 64))
    (index place : Nat) :
    ((insertBit position words index)[place]?).any (·.getLsbD other) =
      ((words[place]?).any (·.getLsbD other) || (place == index && other == position)) := by
  induction words, index using insertBit.induct generalizing place with
  | case1 =>
    cases place <;> simp [insertBit, getLsbD_bit h, Bool.beq_eq_decide_eq]
  | case2 index ih =>
    cases place with
    | zero => simp [insertBit]
    | succ place => simpa [insertBit] using ih place
  | case3 word rest =>
    cases place <;> simp [insertBit, getLsbD_bit h, Bool.beq_eq_decide_eq]
  | case4 word rest index ih =>
    cases place with
    | zero => simp [insertBit]
    | succ place => simpa [insertBit] using ih place

/-- **The members of a set with a kind added.** -/
theorem contains_insert (set : KindSet) (kind other : Kind) :
    (set.insert kind).contains other = (set.contains other || other == kind) := by
  simp only [contains, insert, any_insertBit (Nat.mod_lt kind.index (by decide : 0 < 64))]
  congr 1
  rw [Bool.eq_iff_iff]
  simp only [Bool.and_eq_true, beq_iff_eq]
  constructor
  · rintro ⟨hdiv, hmod⟩
    have : other.index = kind.index := by omega
    cases other
    cases kind
    exact congrArg Kind.mk this
  · rintro rfl
    exact ⟨rfl, rfl⟩

@[simp] theorem contains_empty (kind : Kind) : (∅ : KindSet).contains kind = false := by
  simp [contains, EmptyCollection.emptyCollection, empty]

end KindSet

/-! ### Kinds that are given out -/

/-- A kind that a grammar has given out: it is in the table and not reserved. -/
def KindTable.Owns (table : KindTable) (kind : Kind) : Prop :=
  5 ≤ kind.index ∧ kind.index < table.size

namespace KindTable

variable {table : KindTable} {kind : Kind}

@[simp] theorem size_reserved : reserved.size = 5 := by
  simp [reserved, size]

@[simp] theorem size_add (table : KindTable) (name : String) (kindClass : KindClass) :
    (table.add name kindClass).size = table.size + 1 := by
  simp [size, add]

theorem Owns.weaken {larger : KindTable} (h : table.Owns kind)
    (le : table.size ≤ larger.size) : larger.Owns kind :=
  ⟨h.1, Nat.lt_of_lt_of_le h.2 le⟩

theorem owns_next (h : 5 ≤ table.size) (name : String) (kindClass : KindClass) :
    (table.add name kindClass).Owns table.next :=
  ⟨h, by rw [size_add]; exact Nat.lt_succ_self _⟩

theorem Owns.not_reserved (h : table.Owns kind) : kind.isReserved = false := by
  simp only [Kind.isReserved, decide_eq_false_iff_not]
  exact Nat.not_lt.mpr h.1

end KindTable

/-! ### Lexicons -/

/-- **All kinds of terminals are owned**, however the terminals are found. -/
structure Lexicon.Owned (lexicon : Lexicon) (table : KindTable) : Prop where
  terminals : ∀ terminal ∈ lexicon.terminals, table.Owns terminal.kind
  named : ∀ entry ∈ lexicon.named, table.Owns entry.2
  literals : ∀ entry ∈ lexicon.literals, table.Owns entry.2
  inline : ∀ entry ∈ lexicon.inline, table.Owns entry.2
  keywords : ∀ entry ∈ lexicon.keywords, table.Owns entry.2
  extras : ∀ kind, lexicon.extras.contains kind = true → table.Owns kind

/-- A draft whose kinds are owned, behind the reserved ones. -/
structure Lexicon.Draft.Sound (draft : Lexicon.Draft) : Prop where
  reserved : 5 ≤ draft.kinds.size
  owned : draft.lexicon.Owned draft.kinds

namespace Lexicon

theorem owned_empty (endMarkers : List Char) (table : KindTable) :
    (empty endMarkers).Owned table where
  terminals := by simp [empty]
  named := by simp [empty]
  literals := by simp [empty]
  inline := by simp [empty]
  keywords := by simp [empty]
  extras := by simp [empty]

/-- What is owned by a table is owned by every larger one. -/
theorem Owned.weaken {lexicon : Lexicon} {table larger : KindTable} (h : lexicon.Owned table)
    (le : table.size ≤ larger.size) : lexicon.Owned larger where
  terminals terminal hmem := (h.terminals terminal hmem).weaken le
  named entry hmem := (h.named entry hmem).weaken le
  literals entry hmem := (h.literals entry hmem).weaken le
  inline entry hmem := (h.inline entry hmem).weaken le
  keywords entry hmem := (h.keywords entry hmem).weaken le
  extras kind hmem := (h.extras kind hmem).weaken le

theorem Owned.add {lexicon : Lexicon} {table : KindTable} (h : lexicon.Owned table)
    (name : String) (kindClass : KindClass) : lexicon.Owned (table.add name kindClass) :=
  h.weaken (by simp)

/-- One more entry whose kind is owned. -/
theorem forall_mem_concat {α : Type} {p : α → Prop} {entries : List α} {last : α}
    (h : ∀ entry ∈ entries, p entry) (hlast : p last) : ∀ entry ∈ entries ++ [last], p entry :=
  List.forall_mem_append.mpr ⟨h, List.forall_mem_singleton.mpr hlast⟩

/-- Looking a key up finds the value of an entry. -/
theorem of_lookup {α : Type} [BEq α] [LawfulBEq α] {p : Kind → Prop} {entries : List (α × Kind)}
    (h : ∀ entry ∈ entries, p entry.2) {key : α} {kind : Kind}
    (found : entries.lookup key = some kind) : p kind := by
  obtain ⟨front, back, rfl, -⟩ := List.lookup_eq_some_iff.mp found
  exact h (key, kind) (by simp)

namespace Draft

variable {draft draft' : Draft}

theorem Sound.addNamed (h : draft.Sound) (name : String) (matcher : Matcher)
    (hidden extra : Bool) : (draft.addNamed name matcher hidden extra).Sound where
  reserved := by
    simp only [Draft.addNamed, KindTable.size_add]
    exact Nat.le_succ_of_le h.reserved
  owned := by
    have hold := h.owned.add name (.token hidden)
    have hnew := KindTable.owns_next h.reserved name (.token hidden)
    refine ⟨forall_mem_concat hold.terminals hnew, forall_mem_concat hold.named hnew,
      hold.literals, hold.inline, hold.keywords, fun kind hkind => ?_⟩
    cases extra with
    | false => exact hold.extras kind hkind
    | true =>
      simp only [Draft.addNamed, if_true, KindSet.contains_insert, Bool.or_eq_true,
        beq_iff_eq] at hkind
      rcases hkind with hkind | rfl
      · exact hold.extras kind hkind
      · exact hnew

theorem Sound.addLiteral (h : draft.Sound) (text : String) : (draft.addLiteral text).Sound where
  reserved := by
    simp only [Draft.addLiteral, KindTable.size_add]
    exact Nat.le_succ_of_le h.reserved
  owned := by
    have hold := h.owned.add text (.literal (Unicode.isIdentifier text.toList))
    have hnew := KindTable.owns_next h.reserved text (.literal (Unicode.isIdentifier text.toList))
    exact ⟨forall_mem_concat hold.terminals hnew, hold.named,
      forall_mem_concat hold.literals hnew, hold.inline, hold.keywords, hold.extras⟩

theorem Sound.addInline (h : draft.Sound) (expression : Expression) (name : String)
    (matcher : Matcher) : (draft.addInline expression name matcher).Sound where
  reserved := by
    simp only [Draft.addInline, KindTable.size_add]
    exact Nat.le_succ_of_le h.reserved
  owned := by
    have hold := h.owned.add name (.token true)
    have hnew := KindTable.owns_next h.reserved name (.token true)
    exact ⟨forall_mem_concat hold.terminals hnew, hold.named, hold.literals,
      forall_mem_concat hold.inline hnew, hold.keywords, hold.extras⟩

end Draft

end Lexicon

/-- **An invariant of drafts**: it is kept by each of the three ways to add a terminal. -/
structure Lexicon.Draft.Keeps (p : Draft → Prop) : Prop where
  named : ∀ draft name matcher hidden extra, p draft →
    p (draft.addNamed name matcher hidden extra)
  literal : ∀ draft text, p draft → draft.lexicon.literal? text = none → p (draft.addLiteral text)
  inline : ∀ draft expression name matcher, p draft → matcher.isLiteral = false →
    p (draft.addInline expression name matcher)

theorem Lexicon.Draft.keeps_sound : Keeps Sound where
  named _ name matcher hidden extra h := h.addNamed name matcher hidden extra
  literal _ text h _ := h.addLiteral text
  inline _ expression name matcher h _ := h.addInline expression name matcher

/-- A terminal that is written out in a rule is no literal. -/
theorem Grammar.isLiteral_of_isTerminal {grammar : Grammar} {rule : String}
    {expression : Expression} {matcher : Matcher} (terminal : expression.isTerminal = true)
    (done : grammar.terminalMatcher rule expression = .ok matcher) :
    matcher.isLiteral = false := by
  cases expression with
  | pattern _ | token _ =>
    rw [terminalMatcher, matcherOf] at done
    obtain ⟨written, -, done⟩ := bind_eq_ok.mp done
    split at done
    · obtain rfl := pure_eq_ok.mp done
      rfl
    · cases done
  | nested _ _ | delimited _ _ | quoted _ _ =>
    rw [terminalMatcher, matcherOf] at done
    obtain ⟨_, -, done⟩ := bind_eq_ok.mp done
    obtain rfl := pure_eq_ok.mp done
    rfl
  | literal _ | seq _ | choice _ | repetition _ _ | optional _ | precedence _ _ _ | reference _
  | blank => cases terminal

namespace Lexicon.Draft.Keeps

variable {p : Draft → Prop} {grammar : Grammar} {tokens : List String} {draft draft' : Draft}

mutual

theorem addTerminals (keeps : Keeps p) (rule : String) (expression : Expression)
    {draft draft' : Draft} (h : p draft)
    (done : grammar.addTerminals rule expression draft = .ok draft') : p draft' := by
  cases expression with
  | literal text =>
    simp only [Grammar.addTerminals] at done
    split at done
    · cases done
    · split at done <;> obtain rfl := Except.ok.inj done
      · exact h
      · rename_i hfresh
        exact keeps.literal _ _ h (Option.not_isSome_iff_eq_none.mp hfresh)
  | seq items =>
    exact addAllTerminals keeps rule items h (by simpa [Grammar.addTerminals] using done)
  | choice items =>
    exact addAllTerminals keeps rule items h (by simpa [Grammar.addTerminals] using done)
  | repetition _ inner | precedence _ _ inner | optional inner =>
    exact addTerminals keeps rule inner h (by simpa [Grammar.addTerminals] using done)
  | reference _ | blank =>
    simp only [Grammar.addTerminals] at done
    obtain rfl := Except.ok.inj done
    exact h
  | pattern _ | token _ | nested _ _ | delimited _ _ | quoted _ _ =>
    simp only [Grammar.addTerminals] at done
    split at done
    · obtain rfl := Except.ok.inj done
      exact h
    · obtain ⟨matcher, hmatcher, done⟩ := bind_eq_ok.mp done
      obtain rfl := pure_eq_ok.mp done
      exact keeps.inline _ _ _ _ h (Grammar.isLiteral_of_isTerminal rfl hmatcher)

theorem addAllTerminals (keeps : Keeps p) (rule : String) (expressions : List Expression)
    {draft draft' : Draft} (h : p draft)
    (done : grammar.addAllTerminals rule expressions draft = .ok draft') : p draft' := by
  cases expressions with
  | nil =>
    simp only [Grammar.addAllTerminals] at done
    obtain rfl := Except.ok.inj done
    exact h
  | cons first rest =>
    simp only [Grammar.addAllTerminals] at done
    obtain ⟨middle, hfirst, hrest⟩ := bind_eq_ok.mp done
    exact addAllTerminals keeps rule rest (addTerminals keeps rule first h hfirst) hrest

end

variable (keeps : Keeps p)
include keeps

theorem addTokenRules (rules : List (String × Expression)) (h : p draft)
    (done : grammar.addTokenRules tokens rules draft = .ok draft') : p draft' := by
  induction rules generalizing draft with
  | nil =>
    obtain rfl := Except.ok.inj done
    exact h
  | cons rule rest ih =>
    rw [Grammar.addTokenRules] at done
    split at done
    · obtain ⟨matcher, -, done⟩ := bind_eq_ok.mp done
      exact ih (keeps.named _ _ _ _ _ h) done
    · exact ih h done

theorem addRuleTerminals (rules : List (String × Expression)) (h : p draft)
    (done : grammar.addRuleTerminals tokens rules draft = .ok draft') : p draft' := by
  induction rules generalizing draft with
  | nil =>
    obtain rfl := Except.ok.inj done
    exact h
  | cons rule rest ih =>
    rw [Grammar.addRuleTerminals] at done
    split at done
    · exact ih h done
    · obtain ⟨middle, hfirst, hrest⟩ := bind_eq_ok.mp done
      exact ih (keeps.addTerminals _ _ h hfirst) hrest

end Lexicon.Draft.Keeps

namespace Lexicon

variable {lexicon : Lexicon} {table : KindTable}

theorem owned_addKeyword {keywords : List (String × Kind)} {terminal : Terminal}
    (h : ∀ entry ∈ keywords, table.Owns entry.2) (hterminal : table.Owns terminal.kind) :
    ∀ entry ∈ addKeyword keywords terminal, table.Owns entry.2 := by
  unfold addKeyword
  split
  · exact List.forall_mem_cons.mpr
      ⟨hterminal, fun entry hmem => h entry (List.mem_filter.mp hmem).1⟩
  · exact h

theorem Owned.withKeywords (h : lexicon.Owned table) : lexicon.withKeywords.Owned table := by
  unfold Lexicon.withKeywords
  split
  · rename_i word pattern _
    -- terminals change what they match, not their kinds, and keywords get kinds of terminals
    refine ⟨?_, h.named, h.literals, h.inline, ?_, h.extras⟩
    · intro terminal hmem
      obtain ⟨old, hold, rfl⟩ := List.mem_map.mp hmem
      split <;> exact h.terminals old hold
    · refine List.foldlRecOn (motive := fun keywords : List (String × Kind) =>
        ∀ entry ∈ keywords, table.Owns entry.2) _ _ (fun _ hmem => (nomatch hmem))
        fun keywords hkeywords terminal hmem => ?_
      exact owned_addKeyword hkeywords (h.terminals terminal (List.mem_filter.mp hmem).1)
  · exact h

/-- The steps in which a lexicon is built. -/
theorem steps_ofGrammar {grammar : Grammar} {tokens : List String} {draft : Draft}
    (done : ofGrammar grammar tokens = .ok draft) :
    ∃ named all : Draft,
      grammar.addTokenRules tokens grammar.rules
        ⟨empty grammar.endMarkers, KindTable.reserved⟩ = .ok named ∧
      grammar.addRuleTerminals tokens grammar.rules { named with
        lexicon := { named.lexicon with word := grammar.word.bind named.lexicon.named? } } =
          .ok all ∧
      draft = { all with lexicon := all.lexicon.withKeywords } := by
  simp only [ofGrammar] at done
  split at done
  · obtain ⟨_, hthrow, -⟩ := bind_eq_ok.mp done
    exact absurd hthrow throw_ne_ok
  · split at done
    · split at done
      · obtain ⟨_, hthrow, -⟩ := bind_eq_ok.mp done
        exact absurd hthrow throw_ne_ok
      · simp only [bind_eq_ok, pure_eq_ok] at done
        obtain ⟨named, hnamed, all, hall, rfl⟩ := done
        exact ⟨named, all, hnamed, hall, rfl⟩
    · simp only [bind_eq_ok, pure_eq_ok] at done
      obtain ⟨named, hnamed, all, hall, rfl⟩ := done
      exact ⟨named, all, hnamed, hall, rfl⟩

/-- **A draft before keywords are looked for** has what each step keeps, if it does not depend on
the word terminal. -/
theorem Draft.Keeps.ofGrammar {p : Draft → Prop} (keeps : Draft.Keeps p) {grammar : Grammar}
    {tokens : List String} {draft : Draft} (done : ofGrammar grammar tokens = .ok draft)
    (start : p ⟨empty grammar.endMarkers, KindTable.reserved⟩)
    (word : ∀ draft word, p draft →
      p { draft with lexicon := { draft.lexicon with word := word } }) :
    ∃ all : Draft, p all ∧ draft = { all with lexicon := all.lexicon.withKeywords } := by
  obtain ⟨named, all, hnamed, hall, rfl⟩ := steps_ofGrammar done
  have hword := word named (grammar.word.bind named.lexicon.named?)
    (keeps.addTokenRules _ start hnamed)
  exact ⟨all, keeps.addRuleTerminals _ hword hall, rfl⟩

/-- **The kinds of the terminals of a grammar are owned.** -/
theorem sound_ofGrammar {grammar : Grammar} {tokens : List String} {draft : Draft}
    (done : ofGrammar grammar tokens = .ok draft) : draft.Sound := by
  obtain ⟨all, hsound, rfl⟩ := Draft.keeps_sound.ofGrammar done
    ⟨Nat.le_of_eq KindTable.size_reserved.symm, owned_empty ..⟩
    fun draft word h => ⟨h.reserved, h.owned.terminals, h.owned.named, h.owned.literals,
      h.owned.inline, h.owned.keywords, h.owned.extras⟩
  exact ⟨hsound.reserved, hsound.owned.withKeywords⟩

end Lexicon

end Syntagm
