import Syntagm.Proofs.PatternSource

/-!
# What token expressions denote

The expressions inside a token denote what their form says: sequences are products, choices sums,
repetitions stars, and a reference denotes what the body of its rule denotes (`Grammar.Denotes`).
This is said for any meaning of texts and written patterns.  Among languages it makes the language
of an expression; among the stretches of all texts it also tells what a pattern that asks for places
takes there.

The expressions that are translated faithfully have no empty choices and ask for no more than one
repetition (`Grammar.Lexical`): an empty choice, which denotes nothing, becomes the empty notation,
and every repetition that has to be made at all becomes one that has to be made once.  The notation
of such an expression says what the expression denotes (`Grammar.Lexical.exists_reads`).  So with
every documented library the matcher of the token realises the expression
(`Grammar.sourceOf_realises`).
-/

namespace Syntagm

open Computability
open Pattern (IsLongest)

/-! ### Denotations -/

/-- **What texts and written patterns mean.** -/
structure Leaves (K : Type) where
  literal : List Char → K
  /-- A written pattern can have no meaning. -/
  pattern : String → K → Prop

namespace Grammar

section
variable {K L : Type} [Semiring K] [KStar K] [Semiring L] [KStar L]

/-- **What an expression denotes.** -/
inductive Denotes (grammar : Grammar) (leaves : Leaves K) : Expression → K → Prop
  | literal (text : String) : Denotes grammar leaves (.literal text) (leaves.literal text.toList)
  | pattern {source : String} {x : K} (means : leaves.pattern source x) :
      Denotes grammar leaves (.pattern source) x
  | seqNil : Denotes grammar leaves (.seq []) 1
  | seqCons {first : Expression} {rest : List Expression} {x y : K} :
      Denotes grammar leaves first x → Denotes grammar leaves (.seq rest) y →
      Denotes grammar leaves (.seq (first :: rest)) (x * y)
  | choiceNil : Denotes grammar leaves (.choice []) 0
  | choiceCons {first : Expression} {rest : List Expression} {x y : K} :
      Denotes grammar leaves first x → Denotes grammar leaves (.choice rest) y →
      Denotes grammar leaves (.choice (first :: rest)) (x + y)
  | repetition {least : Nat} {inner : Expression} {x : K} :
      Denotes grammar leaves inner x →
      Denotes grammar leaves (.repetition least inner) (x ^ least * x∗)
  | optional {inner : Expression} {x : K} : Denotes grammar leaves inner x →
      Denotes grammar leaves (.optional inner) (1 + x)
  | blank : Denotes grammar leaves .blank 1
  | token {inner : Expression} {x : K} : Denotes grammar leaves inner x →
      Denotes grammar leaves (.token inner) x
  | precedence {level : Int} {side : Associativity} {inner : Expression} {x : K} :
      Denotes grammar leaves inner x → Denotes grammar leaves (.precedence level side inner) x
  | reference {name : String} {body : Expression} {x : K}
      (declared : grammar.rule? name = some body) :
      Denotes grammar leaves body x → Denotes grammar leaves (.reference name) x

namespace Denotes

variable {grammar : Grammar} {leaves : Leaves K} {others : Leaves L} {expression : Expression}
  {x y : K}

/-- An expression denotes one thing, if each written pattern means one thing. -/
theorem unique (h : grammar.Denotes leaves expression x)
    (h' : grammar.Denotes leaves expression y)
    (single : ∀ source x y, leaves.pattern source x → leaves.pattern source y → x = y) :
    x = y := by
  induction h generalizing y with
  | literal text => cases h'; rfl
  | pattern means =>
    cases h' with
    | pattern means' => exact single _ _ _ means means'
  | seqNil | choiceNil | blank => cases h'; rfl
  | seqCons _ _ ih ih' =>
    cases h' with
    | seqCons first rest => rw [ih first, ih' rest]
  | choiceCons _ _ ih ih' =>
    cases h' with
    | choiceCons first rest => rw [ih first, ih' rest]
  | repetition _ ih =>
    cases h' with
    | repetition inner => rw [ih inner]
  | optional _ ih =>
    cases h' with
    | optional inner => rw [ih inner]
  | token _ ih =>
    cases h' with
    | token inner => exact ih inner
  | precedence _ ih =>
    cases h' with
    | precedence inner => exact ih inner
  | reference declared _ ih =>
    cases h' with
    | reference declared' inner =>
      obtain rfl := Option.some.inj (declared.symm.trans declared')
      exact ih inner

/-- **A map that keeps the operations** takes what an expression denotes to what it denotes. -/
theorem map (f : K →+* L) (kstar : ∀ x, f x∗ = (f x)∗)
    (literal : ∀ text, f (leaves.literal text) = others.literal text)
    (pattern : ∀ {source x}, leaves.pattern source x → others.pattern source (f x))
    (h : grammar.Denotes leaves expression x) : grammar.Denotes others expression (f x) := by
  induction h with
  | literal text =>
    rw [literal]
    exact .literal text
  | pattern means => exact .pattern (pattern means)
  | seqNil =>
    rw [map_one]
    exact .seqNil
  | seqCons _ _ ih ih' =>
    rw [map_mul]
    exact .seqCons ih ih'
  | choiceNil =>
    rw [map_zero]
    exact .choiceNil
  | choiceCons _ _ ih ih' =>
    rw [map_add]
    exact .choiceCons ih ih'
  | repetition _ ih =>
    rw [map_mul, map_pow, kstar]
    exact .repetition ih
  | optional _ ih =>
    rw [map_add, map_one]
    exact .optional ih
  | blank =>
    rw [map_one]
    exact .blank
  | token _ ih => exact .token ih
  | precedence _ ih => exact .precedence ih
  | reference declared _ ih => exact .reference declared ih

theorem seq {items : List Expression} {xs : List K}
    (h : List.Forall₂ (grammar.Denotes leaves) items xs) :
    grammar.Denotes leaves (.seq items) xs.prod := by
  induction h with
  | nil => exact .seqNil
  | cons first _ ih =>
    rw [List.prod_cons]
    exact .seqCons first ih

theorem choice {alternatives : List Expression} {xs : List K}
    (h : List.Forall₂ (grammar.Denotes leaves) alternatives xs) :
    grammar.Denotes leaves (.choice alternatives) xs.sum := by
  induction h with
  | nil => exact .choiceNil
  | cons first _ ih =>
    rw [List.sum_cons]
    exact .choiceCons first ih

end Denotes

end

/-! ### Lexical expressions -/

/-- **Lexical expressions** with written patterns from a set, references expanded: no choice is
empty, and no repetition asks for more than one. -/
inductive Lexical (grammar : Grammar) (patterns : Set String) : Expression → Prop
  | literal (text : String) : Lexical grammar patterns (.literal text)
  | pattern {source : String} (mem : source ∈ patterns) : Lexical grammar patterns (.pattern source)
  | seq {items : List Expression} (lexical : ∀ item ∈ items, Lexical grammar patterns item) :
      Lexical grammar patterns (.seq items)
  | choice {alternatives : List Expression} (ne : alternatives ≠ [])
      (lexical : ∀ alternative ∈ alternatives, Lexical grammar patterns alternative) :
      Lexical grammar patterns (.choice alternatives)
  | repetition {least : Nat} {inner : Expression} (le : least ≤ 1)
      (lexical : Lexical grammar patterns inner) :
      Lexical grammar patterns (.repetition least inner)
  | optional {inner : Expression} (lexical : Lexical grammar patterns inner) :
      Lexical grammar patterns (.optional inner)
  | blank : Lexical grammar patterns .blank
  | token {inner : Expression} (lexical : Lexical grammar patterns inner) :
      Lexical grammar patterns (.token inner)
  | precedence {level : Int} {side : Associativity} {inner : Expression}
      (lexical : Lexical grammar patterns inner) :
      Lexical grammar patterns (.precedence level side inner)
  | reference {name : String} {body : Expression} (declared : grammar.rule? name = some body)
      (lexical : Lexical grammar patterns body) : Lexical grammar patterns (.reference name)

end Grammar

/-! ### What the notation says -/

namespace PatternLibrary

variable (library : PatternLibrary)

/-- Texts and valid patterns as the stretches that they take. -/
def matched : Leaves Matching where
  literal text := .spelled {text}
  pattern source x := library.isValid source.toList = true ∧ x = library.takes source.toList

/-- Texts and valid patterns as languages.  A pattern that asks for places has none. -/
def words : Leaves (Language Char) where
  literal text := {text}
  pattern source language := library.isValid source.toList = true ∧
    library.takes source.toList = .spelled language

end PatternLibrary

namespace Grammar

variable {grammar : Grammar} {library : PatternLibrary} {patterns : Set String} {rule : String}
  {visiting : List String} {expression : Expression} {source : List Char}

/-- What an expression denotes as a language is what it takes, spelled out. -/
theorem Denotes.spelled {language : Language Char}
    (h : grammar.Denotes library.words expression language) :
    grammar.Denotes library.matched expression (.spelled language) := by
  refine h.map Matching.spelled Matching.spelled_kstar (fun _ => rfl) ?_
  rintro source language ⟨valid, takes⟩
  exact ⟨valid, takes.symm⟩

theorem sourceOf_pattern {written : String}
    (h : grammar.sourceOf library rule visiting (.pattern written) = .ok source) :
    library.isValid written.toList = true ∧ source = Pattern.grouped written.toList := by
  rw [sourceOf] at h
  split at h
  · rename_i valid
    exact ⟨valid, (Except.ok.inj h).symm⟩
  · cases h

/-- The notations of a list say what its expressions denote. -/
private theorem exists_readsEach {expressions : List Expression}
    (each : ∀ expression ∈ expressions, ∀ {rule visiting source},
      grammar.sourceOf library rule visiting expression = .ok source →
      ∃ x, library.Reads patterns .sequence source x ∧
        grammar.Denotes library.matched expression x)
    {sources : List (List Char)}
    (h : grammar.sourcesOf library rule visiting expressions = .ok sources) :
    ∃ xs, List.Forall₂ (library.Reads patterns .sequence) sources xs ∧
      List.Forall₂ (grammar.Denotes library.matched) expressions xs := by
  induction expressions generalizing sources with
  | nil =>
    rw [sourcesOf] at h
    obtain rfl := Except.ok.inj h
    exact ⟨[], .nil, .nil⟩
  | cons first rest ih =>
    rw [sourcesOf] at h
    obtain ⟨source, hsource, h⟩ := bind_eq_ok.mp h
    obtain ⟨others, hothers, h⟩ := bind_eq_ok.mp h
    obtain rfl := Except.ok.inj h
    obtain ⟨x, hreads, hdenotes⟩ := each first List.mem_cons_self hsource
    obtain ⟨xs, hreads', hdenotes'⟩ :=
      ih (fun expression hmem => each expression (List.mem_cons_of_mem first hmem)) hothers
    exact ⟨x :: xs, .cons hreads hreads', .cons hdenotes hdenotes'⟩

/-- **The notation of a lexical expression says what the expression denotes**, and it is a sequence:
nothing has to be put around it. -/
theorem Lexical.exists_reads (lexical : grammar.Lexical patterns expression)
    (produced : grammar.sourceOf library rule visiting expression = .ok source) :
    ∃ x, library.Reads patterns .sequence source x ∧
      grammar.Denotes library.matched expression x := by
  induction lexical generalizing rule visiting source with
  | literal text =>
    rw [sourceOf] at produced
    obtain rfl := Except.ok.inj produced
    exact ⟨_, .escape text.toList, .literal text⟩
  | pattern mem =>
    obtain ⟨valid, rfl⟩ := sourceOf_pattern produced
    exact ⟨_, .single (.pattern mem valid), .pattern ⟨valid, rfl⟩⟩
  | seq _ ih =>
    rw [sourceOf] at produced
    obtain ⟨sources, hsources, produced⟩ := bind_eq_ok.mp produced
    obtain rfl := Except.ok.inj produced
    obtain ⟨xs, hreads, hdenotes⟩ := exists_readsEach ih hsources
    exact ⟨xs.prod, .flatten hreads, .seq hdenotes⟩
  | choice ne _ ih =>
    rw [sourceOf] at produced
    obtain ⟨sources, hsources, produced⟩ := bind_eq_ok.mp produced
    obtain rfl := Except.ok.inj produced
    obtain ⟨xs, hreads, hdenotes⟩ := exists_readsEach ih hsources
    have hne : sources ≠ [] := by
      rintro rfl
      cases hreads
      cases hdenotes
      exact ne rfl
    exact ⟨xs.sum, .single (.group (.intercalate hreads hne)), .choice hdenotes⟩
  | @repetition least _ le _ ih =>
    rw [sourceOf] at produced
    obtain ⟨inner, hinner, produced⟩ := bind_eq_ok.mp produced
    obtain rfl := Except.ok.inj produced
    obtain ⟨x, hreads, hdenotes⟩ := ih hinner
    have hgroup := PatternLibrary.Reads.group (.alternative hreads)
    refine ⟨x ^ least * x∗, ?_, .repetition hdenotes⟩
    obtain rfl | rfl := Nat.le_one_iff_eq_zero_or_eq_one.mp le
    · rw [pow_zero, one_mul]
      exact .star hgroup
    · rw [pow_one]
      exact .plus hgroup
  | optional _ ih =>
    rw [sourceOf] at produced
    obtain ⟨inner, hinner, produced⟩ := bind_eq_ok.mp produced
    obtain rfl := Except.ok.inj produced
    obtain ⟨x, hreads, hdenotes⟩ := ih hinner
    exact ⟨1 + x, .question (.group (.alternative hreads)), .optional hdenotes⟩
  | blank =>
    rw [sourceOf] at produced
    obtain rfl := Except.ok.inj produced
    exact ⟨1, .empty, .blank⟩
  | token _ ih =>
    rw [sourceOf] at produced
    obtain ⟨x, hreads, hdenotes⟩ := ih produced
    exact ⟨x, hreads, .token hdenotes⟩
  | precedence _ ih =>
    rw [sourceOf] at produced
    obtain ⟨x, hreads, hdenotes⟩ := ih produced
    exact ⟨x, hreads, .precedence hdenotes⟩
  | reference declared _ ih =>
    rw [sourceOf] at produced
    obtain ⟨found, hfound, produced⟩ := bind_eq_ok.mp produced
    obtain rfl := Option.some.inj (declared.symm.trans (rule?_of_referenced hfound))
    obtain ⟨x, hreads, hdenotes⟩ := ih produced
    exact ⟨x, hreads, .reference declared hdenotes⟩

/-! ### Languages -/

/-- What the expressions of a list denote. -/
private theorem exists_languageEach {expressions : List Expression}
    (each : ∀ expression ∈ expressions, ∀ {rule visiting source},
      grammar.sourceOf library rule visiting expression = .ok source →
      ∃ language, grammar.Denotes library.words expression language)
    {sources : List (List Char)}
    (h : grammar.sourcesOf library rule visiting expressions = .ok sources) :
    ∃ languages, List.Forall₂ (grammar.Denotes library.words) expressions languages := by
  induction expressions generalizing sources with
  | nil => exact ⟨[], .nil⟩
  | cons first rest ih =>
    rw [sourcesOf] at h
    obtain ⟨source, hsource, h⟩ := bind_eq_ok.mp h
    obtain ⟨others, hothers, -⟩ := bind_eq_ok.mp h
    obtain ⟨language, hfirst⟩ := each first List.mem_cons_self hsource
    obtain ⟨languages, hrest⟩ :=
      ih (fun expression hmem => each expression (List.mem_cons_of_mem first hmem)) hothers
    exact ⟨language :: languages, .cons hfirst hrest⟩

/-- **A lexical expression denotes a language** if its written patterns have languages. -/
theorem Lexical.exists_language (lexical : grammar.Lexical patterns expression)
    (languages : ∀ written ∈ patterns, library.isValid written.toList = true →
      ∃ language, library.takes written.toList = .spelled language)
    (produced : grammar.sourceOf library rule visiting expression = .ok source) :
    ∃ language, grammar.Denotes library.words expression language := by
  induction lexical generalizing rule visiting source with
  | literal text => exact ⟨_, .literal text⟩
  | pattern mem =>
    obtain ⟨valid, -⟩ := sourceOf_pattern produced
    obtain ⟨language, takes⟩ := languages _ mem valid
    exact ⟨language, .pattern ⟨valid, takes⟩⟩
  | seq _ ih =>
    rw [sourceOf] at produced
    obtain ⟨sources, hsources, -⟩ := bind_eq_ok.mp produced
    obtain ⟨each, hdenotes⟩ := exists_languageEach ih hsources
    exact ⟨each.prod, .seq hdenotes⟩
  | choice _ _ ih =>
    rw [sourceOf] at produced
    obtain ⟨sources, hsources, -⟩ := bind_eq_ok.mp produced
    obtain ⟨each, hdenotes⟩ := exists_languageEach ih hsources
    exact ⟨each.sum, .choice hdenotes⟩
  | repetition _ _ ih =>
    rw [sourceOf] at produced
    obtain ⟨inner, hinner, -⟩ := bind_eq_ok.mp produced
    obtain ⟨language, hdenotes⟩ := ih hinner
    exact ⟨_, .repetition hdenotes⟩
  | optional _ ih =>
    rw [sourceOf] at produced
    obtain ⟨inner, hinner, -⟩ := bind_eq_ok.mp produced
    obtain ⟨language, hdenotes⟩ := ih hinner
    exact ⟨_, .optional hdenotes⟩
  | blank => exact ⟨1, .blank⟩
  | token _ ih =>
    rw [sourceOf] at produced
    obtain ⟨language, hdenotes⟩ := ih produced
    exact ⟨language, .token hdenotes⟩
  | precedence _ ih =>
    rw [sourceOf] at produced
    obtain ⟨language, hdenotes⟩ := ih produced
    exact ⟨language, .precedence hdenotes⟩
  | reference declared _ ih =>
    rw [sourceOf] at produced
    obtain ⟨found, hfound, produced⟩ := bind_eq_ok.mp produced
    obtain rfl := Option.some.inj (declared.symm.trans (rule?_of_referenced hfound))
    obtain ⟨language, hdenotes⟩ := ih produced
    exact ⟨language, .reference declared hdenotes⟩

/-! ### Realising an expression -/

/-- **The matcher of a token realises an expression**: it takes what the expression denotes, and its
longest match is the longest stretch at the start of a text that the expression denotes there.  If
the expression denotes a language, this is the language of the matcher, and the longest match is the
longest prefix in it; and it denotes one if its written patterns have languages. -/
structure Realises (grammar : Grammar) (patterns : Set String) (expression : Expression)
    (token : library.TokenPattern) : Prop where
  denotes_iff (x : Matching) : grammar.Denotes library.matched expression x ↔ x = token.takes
  longest (text : List Char) {x : Matching} : grammar.Denotes library.matched expression x →
    IsLongest {length | ∃ there : Cursor text, x text (.start text) there ∧ there.taken = length}
      (token.longest? text)
  exists_language : (∀ written ∈ patterns, library.isValid written.toList = true →
      ∃ language, library.takes written.toList = .spelled language) →
    ∃ language, grammar.Denotes library.words expression language
  language_iff {language : Language Char} : grammar.Denotes library.words expression language →
    ∀ other, token.takes = .spelled other ↔ other = language
  longestPrefix (text : List Char) {language : Language Char} :
    grammar.Denotes library.words expression language →
    IsLongest {length | length ≤ text.length ∧ text.take length ∈ language} (token.longest? text)

/-- **Translating a token expression is faithful**, with every documented library: a notation that
is produced and built realises the expression. -/
theorem sourceOf_realises (documented : library.Documented patterns)
    (lexical : grammar.Lexical patterns expression)
    (produced : grammar.sourceOf library rule visiting expression = .ok source)
    {token : library.TokenPattern} (built : library.tokenPattern? source = some token) :
    grammar.Realises patterns expression token := by
  obtain ⟨taken, hreads, hdenotes⟩ := lexical.exists_reads produced
  have hsource := PatternLibrary.source_of_tokenPattern? built
  have htakes : token.takes = taken := by
    rw [PatternLibrary.TokenPattern.takes, hsource]
    exact documented.takes_eq (hsource ▸ token.builds) (.alternative hreads)
  have hunique {x : Matching} (h : grammar.Denotes library.matched expression x) : x = taken :=
    h.unique hdenotes fun _ _ _ means means' => means.2.trans means'.2.symm
  have hlongest (text : List Char) := documented.isLongest text token.builds
  exact {
    denotes_iff := fun x => by
      rw [htakes]
      exact ⟨hunique, fun h => h ▸ hdenotes⟩
    longest := fun text x h => by
      obtain rfl := hunique h
      exact htakes ▸ hlongest text
    exists_language := fun languages => lexical.exists_language languages produced
    language_iff := fun h other => by
      rw [htakes, ← hunique h.spelled, Matching.spelled_injective.eq_iff, eq_comm]
    longestPrefix := fun text language h => by
      have hspelled : library.takes token.source = .spelled language :=
        htakes.trans (hunique h.spelled).symm
      have hprefix := hlongest text
      rw [hspelled] at hprefix
      simp only [Matching.spelled_apply, Stretches.exists_spelled_start_iff] at hprefix
      exact hprefix }

/-! ### Binary fractions -/

/-- A number in binary digits, with a sign or without, and with a fraction or without. -/
def fraction : Expression :=
  .seq [.optional (.literal "-"), .reference "digits",
    .optional (.seq [.literal ".", .reference "digits"])]

/-- A grammar with fractions as its tokens. -/
def fractions : Grammar :=
  { Grammar.empty "fractions" with
    rules := [("fraction", .token fraction), ("digits", .repetition 1 (.pattern "0|1"))] }

theorem sourceOf_realises_fraction :
    Pattern.library.Documented {"0|1"} ∧ fractions.Lexical {"0|1"} fraction ∧
      fractions.sourceOf Pattern.library "fraction" ["fraction"] fraction =
        .ok "(?:\\-)?(?:(?:0|1))+(?:\\.(?:(?:0|1))+)?".toList ∧
      ∃ token, Pattern.library.tokenPattern? "(?:\\-)?(?:(?:0|1))+(?:\\.(?:(?:0|1))+)?".toList =
          some token ∧
        fractions.Realises {"0|1"} fraction token := by
  have hdigits : fractions.Lexical {"0|1"} (.reference "digits") :=
    .reference rfl (.repetition (Nat.le_refl 1) (.pattern rfl))
  have hlexical : fractions.Lexical {"0|1"} fraction := by
    refine .seq ?_
    simp only [List.forall_mem_cons, List.not_mem_nil, IsEmpty.forall_iff, implies_true, and_true]
    refine ⟨.optional (.literal "-"), hdigits, .optional (.seq ?_)⟩
    simp only [List.forall_mem_cons, List.not_mem_nil, IsEmpty.forall_iff, implies_true, and_true]
    exact ⟨.literal ".", hdigits⟩
  have hproduced : fractions.sourceOf Pattern.library "fraction" ["fraction"] fraction =
      .ok "(?:\\-)?(?:(?:0|1))+(?:\\.(?:(?:0|1))+)?".toList := by with_unfolding_all decide
  have hnames : (fractions.patternOf "fraction" ["fraction"] fraction).map (·.groupNames) =
      .ok [] := by with_unfolding_all decide
  have hbuilds : Pattern.library.builds
      (Pattern.grouped "(?:\\-)?(?:(?:0|1))+(?:\\.(?:(?:0|1))+)?".toList) = true := by
    have htracks := fractions.sourceOf_tracks_patternOf "fraction" ["fraction"] fraction
    rw [hproduced] at htracks
    cases hown : fractions.patternOf "fraction" ["fraction"] fraction with
    | error fault =>
      rw [hown] at hnames
      cases hnames
    | ok own =>
      rw [hown] at htracks hnames
      have hnone : own.groupNames = [] := Except.ok.inj hnames
      rw [htracks.same_of_ok.builds_grouped_iff, hnone]
      exact .nil
  have hbuilt : Pattern.library.tokenPattern? "(?:\\-)?(?:(?:0|1))+(?:\\.(?:(?:0|1))+)?".toList =
      some ⟨_, hbuilds⟩ := dif_pos hbuilds
  have hdocumented := Pattern.documented_library {"0|1"}
  exact ⟨hdocumented, hlexical, hproduced, _, hbuilt,
    sourceOf_realises hdocumented hlexical hproduced hbuilt⟩

end Grammar

end Syntagm
