import Mathlib.Data.List.Nodup
import Syntagm.Proofs.Lowering

/-!
# The terminals of a grammar

Terminals get kinds of their own, and a literal is added only if there is none with its text
(`Lexicon.Distinct`).  Then the literals that the word terminal covers become keywords: a keyword
is such a literal, and it is found by its text (`Lexicon.HasKeywords`).  Two literals with the text
of a keyword are the same terminal, as long as no rule has that text
(`Lexicon.Distinct.eq_keyword`).
-/

namespace Syntagm

/-! ### The terminals of a lexicon -/

/-- **No two terminals have the same kind, and no two literals the same text.**  A terminal that
matches a text is such a literal, or a rule. -/
structure Lexicon.Distinct (lexicon : Lexicon) : Prop where
  kinds : (lexicon.terminals.map (·.kind)).Nodup
  texts : (lexicon.literals.map (·.1)).Nodup
  literal : ∀ terminal ∈ lexicon.terminals, ∀ content, terminal.matcher = .literal content →
    (content, terminal.kind) ∈ lexicon.literals ∨ ∃ name, (name, terminal.kind) ∈ lexicon.named

/-- A draft with distinct terminals, of which none is a keyword yet. -/
structure Lexicon.Draft.Distinct (draft : Lexicon.Draft) : Prop where
  sound : draft.Sound
  distinct : draft.lexicon.Distinct
  plain : ∀ terminal ∈ draft.lexicon.terminals, terminal.isKeyword = false
  none : draft.lexicon.keywords = []

namespace Lexicon

variable {lexicon : Lexicon}

theorem Distinct.eq_of_kind (h : lexicon.Distinct) {first second : Terminal}
    (hfirst : first ∈ lexicon.terminals) (hsecond : second ∈ lexicon.terminals)
    (kind : first.kind = second.kind) : first = second :=
  List.inj_on_of_nodup_map h.kinds hfirst hsecond kind

theorem nodup_concat {β : Type} {entries : List β} {next : β} (h : entries.Nodup)
    (fresh : next ∉ entries) : (entries ++ [next]).Nodup :=
  List.nodup_append.mpr ⟨h, List.nodup_singleton _, by
    rintro _ hmem _ hnext rfl
    exact fresh (List.mem_singleton.mp hnext ▸ hmem)⟩

namespace Draft

/-- The next kind is the kind of no terminal. -/
theorem Distinct.nodup_kinds {draft : Draft} (h : draft.Distinct) :
    (draft.lexicon.terminals.map (·.kind) ++ [draft.kinds.next]).Nodup := by
  refine nodup_concat h.distinct.kinds fun hmem => ?_
  obtain ⟨terminal, hterminal, hkind⟩ := List.mem_map.mp hmem
  have hlt := (h.sound.owned.terminals terminal hterminal).2
  rw [hkind] at hlt
  exact Nat.lt_irrefl _ hlt

theorem keeps_distinct : Keeps Distinct where
  named draft name matcher hidden extra h := by
    refine ⟨h.sound.addNamed .., ⟨?_, h.distinct.texts, ?_⟩, forall_mem_concat h.plain rfl, h.none⟩
    · simpa [addNamed] using h.nodup_kinds
    · refine forall_mem_concat (fun terminal hmem content heq => ?_)
        fun _ _ => .inr ⟨name, List.mem_concat_self⟩
      exact (h.distinct.literal terminal hmem content heq).imp_right
        (Exists.imp fun _ hother => List.mem_append_left _ hother)
  literal draft text h fresh := by
    refine ⟨h.sound.addLiteral text, ⟨?_, ?_, ?_⟩, forall_mem_concat h.plain rfl, h.none⟩
    · simpa [addLiteral] using h.nodup_kinds
    · have hnew : text ∉ draft.lexicon.literals.map (·.1) := by
        intro hmem
        obtain ⟨entry, hentry, rfl⟩ := List.mem_map.mp hmem
        simpa using List.lookup_eq_none_iff.mp fresh entry hentry
      simpa [addLiteral] using nodup_concat h.distinct.texts hnew
    · refine forall_mem_concat (fun terminal hmem content heq => ?_) fun content heq => ?_
      · exact (h.distinct.literal terminal hmem content heq).imp_left (List.mem_append_left _)
      · obtain rfl := Matcher.literal.inj heq
        exact .inl List.mem_concat_self
  inline draft expression name matcher h hliteral := by
    refine ⟨h.sound.addInline .., ⟨?_, h.distinct.texts, ?_⟩, forall_mem_concat h.plain rfl, h.none⟩
    · simpa [addInline] using h.nodup_kinds
    · refine forall_mem_concat h.distinct.literal fun content heq => ?_
      obtain rfl : matcher = .literal content := heq
      cases hliteral

end Draft

/-! ### Keywords -/

/-- **What keywords are**: the literals that the word terminal covers, found by their text. -/
structure HasKeywords (lexicon : Lexicon) : Prop where
  covered : ∀ terminal ∈ lexicon.terminals, terminal.isKeyword = true →
    ∃ word pattern content, lexicon.wordPattern? = some (word, pattern) ∧
      terminal.matcher = .literal content ∧
      pattern.longest? Unicode.isWordCharacter content.toList = some content.toList.length ∧
      (lexicon.keyword? content).isSome = true
  found : ∀ content kind, lexicon.keyword? content = some kind →
    ∃ terminal ∈ lexicon.terminals, terminal.isKeyword = true ∧ terminal.kind = kind ∧
      terminal.matcher = .literal content

variable {terminals : List Terminal} {keywords : List (String × Kind)}

/-- Each keyword is one of the terminals with its text. -/
theorem of_mem_foldl_addKeyword {entry : String × Kind}
    (hmem : entry ∈ terminals.foldl addKeyword keywords) :
    entry ∈ keywords ∨ ∃ terminal ∈ terminals, terminal.kind = entry.2 ∧
      terminal.matcher = .literal entry.1 := by
  induction terminals generalizing keywords with
  | nil => exact .inl hmem
  | cons first rest ih =>
    rcases ih hmem with hold | ⟨terminal, hterminal, heq⟩
    · unfold addKeyword at hold
      split at hold
      · rename_i text hmatcher
        rcases List.mem_cons.mp hold with rfl | hold
        · exact .inr ⟨first, List.mem_cons_self, rfl, hmatcher⟩
        · exact .inl (List.mem_of_mem_filter hold)
      · exact .inl hold
    · exact .inr ⟨terminal, List.mem_cons_of_mem _ hterminal, heq⟩

/-- Each text that is added stays, though perhaps for a later terminal. -/
theorem isSome_lookup_foldl_addKeyword {content : String}
    (h : (∃ kind, (content, kind) ∈ keywords) ∨
      ∃ terminal ∈ terminals, terminal.matcher = .literal content) :
    ((terminals.foldl addKeyword keywords).lookup content).isSome = true := by
  induction terminals generalizing keywords with
  | nil =>
    obtain ⟨kind, hmem⟩ := h.resolve_right fun ⟨_, hmem, _⟩ => nomatch hmem
    by_contra hnone
    rw [Option.not_isSome_iff_eq_none] at hnone
    simpa using List.lookup_eq_none_iff.mp hnone _ hmem
  | cons first rest ih =>
    refine ih ?_
    rcases h with ⟨kind, hmem⟩ | ⟨terminal, hmem, hmatcher⟩
    · refine .inl ?_
      unfold addKeyword
      split
      · rename_i text _
        by_cases heq : content = text
        · exact ⟨first.kind, heq ▸ List.mem_cons_self⟩
        · exact ⟨kind, List.mem_cons_of_mem _ (List.mem_filter.mpr ⟨hmem, by simpa using heq⟩)⟩
      · exact ⟨kind, hmem⟩
    · rcases List.mem_cons.mp hmem with rfl | hmem
      · refine .inl ⟨terminal.kind, ?_⟩
        rw [addKeyword, hmatcher]
        exact List.mem_cons_self
      · exact .inr ⟨terminal, hmem, hmatcher⟩

theorem of_isCovered {word : Kind} {pattern : Pattern} {terminal : Terminal}
    (h : isCovered word pattern terminal = true) : ∃ content, terminal.matcher = .literal content ∧
      pattern.longest? Unicode.isWordCharacter content.toList = some content.toList.length := by
  unfold isCovered at h
  split at h
  · rename_i content hmatcher
    exact ⟨content, hmatcher, eq_of_beq (Bool.and_eq_true_iff.mp h).2⟩
  · cases h

/-- A terminal, which is a keyword if the word terminal covers it. -/
def promote (word : Kind) (pattern : Pattern) (terminal : Terminal) : Terminal :=
  if isCovered word pattern terminal then { terminal with isKeyword := true } else terminal

theorem withKeywords_eq {word : Kind} {pattern : Pattern}
    (h : lexicon.wordPattern? = some (word, pattern)) : lexicon.withKeywords = { lexicon with
      terminals := lexicon.terminals.map (promote word pattern)
      keywords := (lexicon.terminals.filter (isCovered word pattern)).foldl addKeyword [] } := by
  rw [withKeywords, h]
  rfl

@[simp] theorem kind_promote (word : Kind) (pattern : Pattern) (terminal : Terminal) :
    (promote word pattern terminal).kind = terminal.kind := by
  unfold promote
  split <;> rfl

@[simp] theorem matcher_promote (word : Kind) (pattern : Pattern) (terminal : Terminal) :
    (promote word pattern terminal).matcher = terminal.matcher := by
  unfold promote
  split <;> rfl

/-- The word terminal stays what it is. -/
theorem wordPattern?_withKeywords : lexicon.withKeywords.wordPattern? = lexicon.wordPattern? := by
  cases hword : lexicon.wordPattern? with
  | none => rw [withKeywords, hword, hword]
  | some entry =>
    obtain ⟨word, pattern⟩ := entry
    rw [withKeywords_eq hword, ← hword]
    simp only [wordPattern?, terminal?, List.find?_map, Function.comp_def, kind_promote]
    cases lexicon.word with
    | none => rfl
    | some word =>
      simp only [Option.bind_eq_bind, Option.bind_some]
      cases lexicon.terminals.find? (·.kind = word) with
      | none => rfl
      | some terminal => simp only [Option.map_some, Option.bind_some, matcher_promote]

theorem hasKeywords_withKeywords
    (plain : ∀ terminal ∈ lexicon.terminals, terminal.isKeyword = false)
    (none : lexicon.keywords = []) : lexicon.withKeywords.HasKeywords := by
  cases hword : lexicon.wordPattern? with
  | none =>
    rw [withKeywords, hword]
    refine ⟨fun terminal hmem hkeyword => ?_, fun content kind hlookup => ?_⟩
    · rw [plain terminal hmem] at hkeyword
      cases hkeyword
    · rw [keyword?, none] at hlookup
      cases hlookup
  | some entry =>
    obtain ⟨word, pattern⟩ := entry
    have hpattern := wordPattern?_withKeywords.trans hword
    rw [withKeywords_eq hword] at hpattern ⊢
    refine ⟨fun terminal hmem hkeyword => ?_, fun content kind hlookup => ?_⟩
    · obtain ⟨old, hold, rfl⟩ := List.mem_map.mp hmem
      have hcovered : isCovered word pattern old = true := by
        by_contra hnot
        rw [promote, if_neg hnot, plain old hold] at hkeyword
        cases hkeyword
      obtain ⟨content, hmatcher, hlongest⟩ := of_isCovered hcovered
      exact ⟨word, pattern, content, hpattern, (matcher_promote ..).trans hmatcher, hlongest,
        isSome_lookup_foldl_addKeyword
          (.inr ⟨old, List.mem_filter.mpr ⟨hold, hcovered⟩, hmatcher⟩)⟩
    · obtain ⟨front, back, heq, -⟩ := List.lookup_eq_some_iff.mp hlookup
      have hmem : (content, kind) ∈
          (lexicon.terminals.filter (isCovered word pattern)).foldl addKeyword [] := by
        rw [show List.foldl addKeyword [] _ = _ from heq]
        simp
      obtain ⟨old, hold, hkind, hmatcher⟩ :=
        (of_mem_foldl_addKeyword hmem).resolve_left List.not_mem_nil
      obtain ⟨hmem, hcovered⟩ := List.mem_filter.mp hold
      refine ⟨promote word pattern old, List.mem_map_of_mem hmem, ?_, (kind_promote ..).trans hkind,
        (matcher_promote ..).trans hmatcher⟩
      rw [promote, if_pos hcovered]

/-- Keywords leave the terminals distinct. -/
theorem Distinct.withKeywords (h : lexicon.Distinct) : lexicon.withKeywords.Distinct := by
  cases hword : lexicon.wordPattern? with
  | none =>
    rw [Lexicon.withKeywords, hword]
    exact h
  | some entry =>
    obtain ⟨word, pattern⟩ := entry
    rw [withKeywords_eq hword]
    refine ⟨?_, h.texts, fun terminal hmem content heq => ?_⟩
    · simpa [Function.comp_def] using h.kinds
    · obtain ⟨old, hold, rfl⟩ := List.mem_map.mp hmem
      rw [matcher_promote] at heq
      rw [kind_promote]
      exact h.literal old hold content heq

/-- **The lexicon of a grammar** has distinct terminals, and keywords that are covered. -/
theorem distinct_ofGrammar {grammar : Grammar} {tokens : List String} {draft : Draft}
    (done : ofGrammar grammar tokens = .ok draft) :
    draft.lexicon.Distinct ∧ draft.lexicon.HasKeywords := by
  have hempty : Draft.Distinct ⟨empty grammar.endMarkers, KindTable.reserved⟩ :=
    ⟨⟨Nat.le_of_eq KindTable.size_reserved.symm, owned_empty ..⟩,
      ⟨.nil, .nil, List.forall_mem_nil _⟩, List.forall_mem_nil _, rfl⟩
  obtain ⟨all, hall, rfl⟩ := Draft.keeps_distinct.ofGrammar done hempty fun draft word h =>
    ⟨⟨h.sound.reserved, h.sound.owned.terminals, h.sound.owned.named, h.sound.owned.literals,
      h.sound.owned.inline, h.sound.owned.keywords, h.sound.owned.extras⟩,
      ⟨h.distinct.kinds, h.distinct.texts, h.distinct.literal⟩, h.plain, h.none⟩
  exact ⟨hall.distinct.withKeywords, hasKeywords_withKeywords hall.plain hall.none⟩

/-- The word terminal, if it is a pattern. -/
theorem of_wordPattern? {word : Kind} {pattern : Pattern}
    (h : lexicon.wordPattern? = some (word, pattern)) : lexicon.word = some word ∧
      ∃ terminal ∈ lexicon.terminals, terminal.kind = word ∧
        terminal.matcher = .pattern pattern := by
  simp only [wordPattern?, Option.bind_eq_bind, Option.bind_eq_some_iff] at h
  obtain ⟨kind, hkind, terminal, hterminal, h⟩ := h
  split at h
  · rename_i hmatcher
    obtain ⟨rfl, rfl⟩ := Prod.mk.inj (Option.some.inj h)
    have hfind : lexicon.terminals.find? (·.kind = kind) = some terminal := hterminal
    exact ⟨hkind, terminal, List.mem_of_find?_eq_some hfind, by simpa using List.find?_some hfind,
      hmatcher⟩
  · cases h

/-- No terminal that is a rule has the text of a keyword. -/
def KeywordsUnnamed (lexicon : Lexicon) : Prop :=
  ∀ entry ∈ lexicon.named, ∀ terminal ∈ lexicon.terminals, terminal.kind = entry.2 →
    ∀ content, terminal.matcher = .literal content → lexicon.keyword? content = none

/-- Whether a terminal is no literal with the text of a keyword. -/
def isUnlikeKeywords (lexicon : Lexicon) (terminal : Terminal) : Bool :=
  match terminal.matcher with
  | .literal content => (lexicon.keyword? content).isNone
  | _ => true

theorem isUnlikeKeywords_iff {terminal : Terminal} : lexicon.isUnlikeKeywords terminal = true ↔
    ∀ content, terminal.matcher = .literal content → lexicon.keyword? content = none := by
  unfold isUnlikeKeywords
  split
  · rename_i content hmatcher
    simp [hmatcher]
  · rename_i hother
    exact iff_of_true rfl fun content hmatcher => absurd hmatcher (hother content)

instance : Decidable lexicon.KeywordsUnnamed :=
  decidable_of_iff (lexicon.named.all fun entry => lexicon.terminals.all fun terminal =>
    terminal.kind != entry.2 || lexicon.isUnlikeKeywords terminal) (by
      simp only [List.all_eq_true, Bool.or_eq_true, bne_iff_ne, isUnlikeKeywords_iff,
        KeywordsUnnamed, ← imp_iff_not_or])

/-- **A literal with the text of a keyword is that keyword.** -/
theorem Distinct.eq_keyword (distinct : lexicon.Distinct) (keywords : lexicon.HasKeywords)
    (unnamed : lexicon.KeywordsUnnamed) {terminal keyword : Terminal}
    (hterminal : terminal ∈ lexicon.terminals) (hkeyword : keyword ∈ lexicon.terminals)
    (isKeyword : keyword.isKeyword = true) {content : String}
    (matcher : terminal.matcher = .literal content)
    (matcher' : keyword.matcher = .literal content) : terminal = keyword := by
  obtain ⟨_, _, other, -, hother, -, hlookup⟩ := keywords.covered keyword hkeyword isKeyword
  obtain rfl : other = content := Matcher.literal.inj (hother.symm.trans matcher')
  -- neither of the two is a rule
  have hliteral : ∀ one ∈ lexicon.terminals, one.matcher = .literal other →
      (other, one.kind) ∈ lexicon.literals := fun one hone hmatcher =>
    (distinct.literal one hone other hmatcher).resolve_right fun ⟨name, hname⟩ => by
      rw [unnamed _ hname one hone rfl other hmatcher] at hlookup
      cases hlookup
  have hentries := List.inj_on_of_nodup_map distinct.texts (hliteral terminal hterminal matcher)
    (hliteral keyword hkeyword matcher') rfl
  exact distinct.eq_of_kind hterminal hkeyword (Prod.mk.inj hentries).2

end Lexicon

theorem Grammar.distinct_compile {grammar : Grammar} {compiled : CompiledGrammar}
    (done : grammar.compile = .ok compiled) :
    compiled.lexicon.Distinct ∧ compiled.lexicon.HasKeywords := by
  unfold compile at done
  obtain ⟨_, _, done⟩ := bind_eq_ok.mp done
  obtain ⟨draft, hdraft, done⟩ := bind_eq_ok.mp done
  obtain ⟨_, _, done⟩ := bind_eq_ok.mp done
  obtain ⟨_, _, done⟩ := bind_eq_ok.mp done
  obtain ⟨_, _, done⟩ := bind_eq_ok.mp done
  split at done
  · obtain ⟨_, _, done⟩ := bind_eq_ok.mp done
    obtain rfl := pure_eq_ok.mp done
    exact Lexicon.distinct_ofGrammar hdraft
  · exact absurd done throw_ne_ok

end Syntagm
