import Mathlib.Data.List.Chain
import Syntagm.Proofs.LongestMatch
import Syntagm.Proofs.Lowering
import Syntagm.Proofs.Tiling

/-!
# What the tokens of a text are

At each place one of three things happens.  An end marker takes the text from there on.  Else the
longest match takes what it matches.  If there is none, the token takes the characters up to the
next place where something starts.  The kind of the token says which it was
(`CompiledGrammar.kind_lexeme_eq_endMarker`, `CompiledGrammar.kind_lexeme_eq_unknown`), as no
terminal has one of the reserved kinds.

So the tokens of a text are what one would want them to be (`CompiledGrammar.Tokenization`): they
lead from its start to its end, an end marker is in the last one alone, and what no terminal matches
is in as few tokens as possible.

**Keywords.**  A keyword is found only where the word terminal matches.  If the pattern of the word
terminal does not persist, there are places where a keyword matches and lexing does not see it
(`CompiledGrammar.exists_keyword_lastWord`).
-/

namespace Syntagm

/-! ### Where something starts -/

namespace CompiledGrammar

variable {compiled : CompiledGrammar} {text : List Char}

theorem startsSomething_eq_false : compiled.startsSomething text = false ↔
    compiled.startsWithEndMarker text = false ∧ compiled.longestMatch? text = none := by
  rw [startsSomething, Bool.or_eq_false_iff, Option.isSome_eq_false_iff, Option.isNone_iff_eq_none]

/-- In front of the next place where something starts, nothing does. -/
theorem startsSomething_of_lt {count : Nat} (h : count < compiled.unknownLength text) :
    compiled.startsSomething (text.drop count) = false := by
  induction text generalizing count with
  | nil => exact absurd h (Nat.not_lt_zero _)
  | cons c rest ih =>
    rw [unknownLength] at h
    split at h
    · exact absurd h (Nat.not_lt_zero _)
    · rename_i hstarts
      cases count with
      | zero => exact Bool.eq_false_iff.mpr hstarts
      | succ count => exact ih (Nat.lt_of_succ_lt_succ h)

/-- At that place something starts, or the text ends. -/
theorem startsSomething_drop (compiled : CompiledGrammar) (text : List Char) :
    text.drop (compiled.unknownLength text) = [] ∨
      compiled.startsSomething (text.drop (compiled.unknownLength text)) = true := by
  induction text with
  | nil => exact .inl rfl
  | cons c rest ih =>
    rw [unknownLength]
    split
    · rename_i hstarts
      exact .inr hstarts
    · exact ih

/-! ### Three kinds of lexemes -/

variable {c : Char} {rest : List Char}

/-- What an end marker starts takes the rest of the text. -/
theorem lexeme_of_endMarker (h : compiled.startsWithEndMarker (c :: rest) = true) :
    compiled.lexeme c rest = ⟨Kind.endMarker, (c :: rest).length, none⟩ := by
  rw [lexeme, if_pos h]
  rfl

theorem lexeme_of_longestMatch? {lexeme : Lexeme}
    (h : compiled.startsWithEndMarker (c :: rest) = false)
    (found : compiled.longestMatch? (c :: rest) = some lexeme) :
    compiled.lexeme c rest = lexeme := by
  rw [CompiledGrammar.lexeme, if_neg (Bool.eq_false_iff.mp h), found]

/-- Where nothing starts, the token takes what is in front of the next place where something
does. -/
theorem lexeme_of_nothing (h : compiled.startsSomething (c :: rest) = false) :
    compiled.lexeme c rest = ⟨Kind.unknown, compiled.unknownLength rest + 1, none⟩ := by
  obtain ⟨hmarker, hnone⟩ := startsSomething_eq_false.mp h
  rw [lexeme, if_neg (Bool.eq_false_iff.mp hmarker), hnone]

theorem startsSomething_of_endMarker (h : compiled.startsWithEndMarker text = true) :
    compiled.startsSomething text = true := by
  rw [startsSomething, h, Bool.true_or]

section Owned
variable (owned : compiled.lexicon.Owned compiled.kinds)
include owned

/-- **What a lexeme can be**: an end marker, a match, which has the kind of a terminal and so none
of the reserved ones, or characters that nothing matches. -/
theorem lexeme_cases (c : Char) (rest : List Char) :
    (compiled.startsWithEndMarker (c :: rest) = true ∧
        (compiled.lexeme c rest).kind = Kind.endMarker) ∨
      (compiled.startsWithEndMarker (c :: rest) = false ∧
        compiled.startsSomething (c :: rest) = true ∧
        (compiled.lexeme c rest).kind.isReserved = false) ∨
      (compiled.startsWithEndMarker (c :: rest) = false ∧
        compiled.startsSomething (c :: rest) = false ∧
        (compiled.lexeme c rest).kind = Kind.unknown) := by
  by_cases hmarker : compiled.startsWithEndMarker (c :: rest) = true
  · exact .inl ⟨hmarker, by rw [lexeme_of_endMarker hmarker]⟩
  · rw [Bool.not_eq_true] at hmarker
    cases hfound : compiled.longestMatch? (c :: rest) with
    | some lexeme =>
      refine .inr (.inl ⟨hmarker, by simp [startsSomething, hfound], ?_⟩)
      rw [lexeme_of_longestMatch? hmarker hfound]
      exact (kind_longestMatch? owned hfound).not_reserved
    | none =>
      have hnothing := startsSomething_eq_false.mpr ⟨hmarker, hfound⟩
      exact .inr (.inr ⟨hmarker, hnothing, by rw [lexeme_of_nothing hnothing]⟩)

theorem kind_lexeme_eq_endMarker : (compiled.lexeme c rest).kind = Kind.endMarker ↔
    compiled.startsWithEndMarker (c :: rest) = true := by
  rcases lexeme_cases owned c rest with ⟨hmarker, hkind⟩ | ⟨hmarker, -, hreserved⟩ |
    ⟨hmarker, -, hkind⟩
  · exact iff_of_true hkind hmarker
  · refine iff_of_false (fun hkind => ?_) (Bool.eq_false_iff.mp hmarker)
    rw [hkind] at hreserved
    cases hreserved
  · exact iff_of_false (by rw [hkind]; nofun) (Bool.eq_false_iff.mp hmarker)

theorem kind_lexeme_eq_unknown : (compiled.lexeme c rest).kind = Kind.unknown ↔
    compiled.startsSomething (c :: rest) = false := by
  rcases lexeme_cases owned c rest with ⟨hmarker, hkind⟩ | ⟨-, hstarts, hreserved⟩ |
    ⟨-, hnothing, hkind⟩
  · exact iff_of_false (by rw [hkind]; nofun)
      (Bool.ne_false_iff.mpr (startsSomething_of_endMarker hmarker))
  · refine iff_of_false (fun hkind => ?_) (Bool.ne_false_iff.mpr hstarts)
    rw [hkind] at hreserved
    cases hreserved
  · exact iff_of_true hkind hnothing

end Owned

/-- **Nothing starts inside a token of unknown characters.** -/
theorem startsSomething_inside {count : Nat}
    (h : compiled.startsSomething (c :: rest) = false)
    (inside : count < (compiled.lexeme c rest).length) :
    compiled.startsSomething ((c :: rest).drop count) = false := by
  rw [lexeme_of_nothing h] at inside
  cases count with
  | zero => exact h
  | succ count =>
    rw [List.drop_succ_cons]
    exact startsSomething_of_lt (Nat.lt_of_succ_lt_succ inside)

/-! ### One token after the other -/

theorem Reads.others_eq {offset : Nat} {token : Token} {part others : List Char}
    (h : compiled.Reads offset c rest token part others) :
    others = (c :: rest).drop (compiled.lexeme c rest).length := by
  have htext := h.text
  rw [h.takes] at htext
  exact (List.append_cancel_left ((List.take_append_drop _ _).trans htext)).symm

/-- **What one token leaves to the next one.**  Nothing follows the token of an end marker, and no
two tokens of unknown characters follow each other. -/
theorem isChain_tokensFrom (owned : compiled.lexicon.Owned compiled.kinds) (offset : Nat)
    (position : Text.Position) (text : List Char) :
    (compiled.tokensFrom offset position text).IsChain fun first second =>
      first.kind ≠ Kind.endMarker ∧ (first.kind = Kind.unknown → second.kind ≠ Kind.unknown) := by
  induction offset, position, text using tokensFrom.induct compiled with
  | case1 offset position =>
    rw [tokensFrom]
    exact .nil
  | case2 offset position c rest token part others _ hread ih =>
    have hreads := reads_readToken hread
    have hothers := hreads.others_eq
    rw [tokensFrom, hread]
    dsimp only at hothers ⊢
    cases others with
    | nil =>
      rw [tokensFrom]
      exact .singleton token
    | cons c' rest' =>
      cases hnext : compiled.readToken token.range.stop (position.advance part) c' rest' with
      | mk next remainder =>
        obtain ⟨part', others'⟩ := remainder
        have hreads' := reads_readToken hnext
        rw [tokensFrom, hnext] at ih ⊢
        refine .cons_cons ⟨fun hkind => ?_, fun hkind hkind' => ?_⟩ ih
        · -- an end marker leaves nothing
          rw [hreads.kind, kind_lexeme_eq_endMarker owned] at hkind
          rw [lexeme_of_endMarker hkind, List.drop_length] at hothers
          cases hothers
        · rw [hreads.kind, kind_lexeme_eq_unknown owned] at hkind
          rw [hreads'.kind, kind_lexeme_eq_unknown owned] at hkind'
          rw [lexeme_of_nothing hkind, List.drop_succ_cons] at hothers
          rcases compiled.startsSomething_drop rest with hnil | hstarts
          · rw [← hothers] at hnil
            cases hnil
          · rw [← hothers, hkind'] at hstarts
            cases hstarts

end CompiledGrammar

/-- Where tokens that tile a text start and stop. -/
theorem Tokens.Tiles.stops {offset : Nat} {text : List Char} {tokens : List Token}
    {parts : List (List Char)} (h : Tiles offset text tokens parts) :
    offset :: tokens.map (·.range.stop) =
      tokens.map (·.range.start) ++ [offset + Text.byteLength text] := by
  induction h with
  | nil => rfl
  | @cons offset token part rest tokens parts range _ ih =>
    rw [List.map_cons, List.map_cons, List.cons_append, Text.byteLength_append, ← Nat.add_assoc,
      ← ih, range]
    rfl

/-! ### Terminals and the longest match -/

namespace CompiledGrammar

variable {compiled : CompiledGrammar} {text : List Char} {terminal : Terminal}

/-- A terminal matches at the start of a text. -/
def Matches (text : List Char) (terminal : Terminal) : Prop :=
  (terminal.matcher.scan? text).isSome = true

theorem longestMatch?_eq_none : compiled.longestMatch? text = none ↔
    ∀ terminal ∈ compiled.lexicon.terminals, compiled.candidate? text terminal = none := by
  rw [← List.filterMap_eq_nil_iff]
  simp only [longestMatch?]
  split
  · rename_i hnil
    exact iff_of_true rfl hnil
  · rename_i hcons
    refine iff_of_false (Option.some_ne_none _) fun hnil => ?_
    rw [hnil] at hcons
    cases hcons

/-- A terminal that is no keyword is seen wherever it matches. -/
theorem not_matches_of_plain (plain : terminal.isKeyword = false)
    (hmem : terminal ∈ compiled.lexicon.terminals) (h : compiled.longestMatch? text = none) :
    ¬ Matches text terminal := by
  intro hmatches
  obtain ⟨scan, hscan⟩ := Option.isSome_iff_exists.mp hmatches
  have hnone := longestMatch?_eq_none.mp h terminal hmem
  rw [candidate?, if_neg (by simp [plain]), hscan] at hnone
  cases hnone

/-- **A keyword is seen wherever it matches**, under the word terminal, if the pattern of the word
terminal persists. -/
theorem not_matches_of_isKeyword (keywords : compiled.lexicon.HasKeywords)
    (persists : compiled.lexicon.WordPersists) (isKeyword : terminal.isKeyword = true)
    (hmem : terminal ∈ compiled.lexicon.terminals) (h : compiled.longestMatch? text = none) :
    ¬ Matches text terminal := by
  intro hmatches
  obtain ⟨scan, hscan⟩ := Option.isSome_iff_exists.mp hmatches
  obtain ⟨word, hword, -, hplain, -, length, -, hscan'⟩ :=
    exists_word_of_isKeyword keywords persists hmem isKeyword hscan
  exact not_matches_of_plain hplain hword h (by rw [Matches, hscan']; rfl)

/-! ### The tokens of a text -/

/-- **What the tokens of a text are.** -/
structure Tokenization (compiled : CompiledGrammar) (text : List Char) (tokens : List Token) :
    Prop where
  /-- They lead from the start of the text to its end without gap. -/
  contiguous : 0 :: tokens.map (·.range.stop) =
    tokens.map (·.range.start) ++ [Text.byteLength text]
  nonempty : ∀ token ∈ tokens, token.range.start < token.range.stop
  boundaries : ∀ token ∈ tokens, Text.isBoundary text token.range.start = true ∧
    Text.isBoundary text token.range.stop = true
  /-- No two tokens of unknown characters follow each other. -/
  separated : tokens.IsChain fun first second =>
    ¬ (first.kind = Kind.unknown ∧ second.kind = Kind.unknown)
  /-- Nothing follows the token of an end marker. -/
  ends : ∀ front token back, tokens = front ++ token :: back → token.kind = Kind.endMarker →
    back = []
  /-- The token of an end marker is the one that starts with one. -/
  marked : ∀ token ∈ tokens, ∃ part, Text.slice? text token.range = some part ∧
    (token.kind = Kind.endMarker ↔ compiled.startsWithEndMarker part = true)
  /-- Nothing that lexing can see starts in a token of unknown characters. -/
  unknown : ∀ token ∈ tokens, token.kind = Kind.unknown → ∀ front back, text = front ++ back →
    token.range.start ≤ Text.byteLength front → Text.byteLength front < token.range.stop →
      compiled.startsWithEndMarker back = false ∧
        ∀ terminal ∈ compiled.lexicon.terminals,
          (terminal.isKeyword = true → compiled.lexicon.WordPersists) → ¬ Matches back terminal

section ReadAt
variable {token : Token} {front rest : List Char} {c : Char}

/-- The text of a token. -/
theorem ReadAt.slice? (h : compiled.ReadAt 0 text token front c rest) :
    Text.slice? text token.range = some ((c :: rest).take (compiled.lexeme c rest).length) := by
  rw [Text.slice?_eq_some]
  refine ⟨front, (c :: rest).drop (compiled.lexeme c rest).length, ?_, ?_⟩
  · rw [List.take_append_drop]
    exact h.text
  · rw [h.range, Nat.zero_add]

/-- A place inside a token, as a number of characters. -/
theorem ReadAt.exists_drop (h : compiled.ReadAt 0 text token front c rest)
    {before behind : List Char} (cut : text = before ++ behind)
    (starts : token.range.start ≤ Text.byteLength before)
    (stops : Text.byteLength before < token.range.stop) :
    ∃ count < (compiled.lexeme c rest).length, behind = (c :: rest).drop count := by
  rw [h.range] at starts stops
  simp only [Text.Range.ofLength, Nat.zero_add] at starts stops
  obtain ⟨middle, rfl, hrest⟩ := Text.exists_of_append_eq (h.text.symm.trans cut) starts
  refine ⟨middle.length, ?_, by rw [hrest, List.drop_left]⟩
  by_contra hge
  -- the token would be in front of the place
  rw [hrest, List.take_append_of_le_length (Nat.not_lt.mp hge), Text.byteLength_append] at stops
  have hmiddle := congrArg Text.byteLength
    (List.take_append_drop (compiled.lexeme c rest).length middle)
  rw [Text.byteLength_append] at hmiddle
  omega

end ReadAt

/-- **The tokens of a text are what they should be**: they tile the text, and they are as long as
end markers and terminals make them. -/
theorem tokenization_tokenize {grammar : Grammar} (done : grammar.compile = .ok compiled)
    (text : List Char) : compiled.Tokenization text (compiled.tokenize text).list := by
  have owned := (Grammar.realizes_compile done).owned
  have keywords := (Grammar.distinct_compile done).2
  have hchain := compiled.isChain_tokensFrom owned 0 .origin text
  have hread := compiled.readAt_of_mem 0 .origin text
  obtain ⟨parts, htiles⟩ := compiled.tiles_tokensFrom 0 .origin text
  show compiled.Tokenization text (compiled.tokensFrom 0 .origin text)
  constructor
  case contiguous => simpa using htiles.stops
  case nonempty => exact compiled.start_lt_stop 0 .origin text
  case boundaries =>
    intro token hmem
    obtain ⟨front, c, rest, hreadAt⟩ := hread token hmem
    obtain ⟨before, behind, htext, hrange⟩ := Text.slice?_eq_some.mp hreadAt.slice?
    rw [hrange, htext]
    refine ⟨Text.isBoundary_append _ _, ?_⟩
    rw [← List.append_assoc, Text.Range.ofLength, ← Text.byteLength_append]
    exact Text.isBoundary_append _ _
  case separated =>
    exact hchain.imp fun first second hnext hboth => hnext.2 hboth.1 hboth.2
  case ends =>
    rintro front token back heq hkind
    cases back with
    | nil => rfl
    | cons next back =>
      rw [heq] at hchain
      exact absurd hkind (List.isChain_append_cons_cons.mp hchain).2.1.1
  case marked =>
    intro token hmem
    obtain ⟨front, c, rest, hreadAt⟩ := hread token hmem
    refine ⟨_, hreadAt.slice?, ?_⟩
    obtain ⟨length, hlength⟩ : ∃ length, (compiled.lexeme c rest).length = length + 1 :=
      Nat.exists_eq_add_one.mpr (compiled.takes_lexeme c rest).positive
    rw [hreadAt.kind, kind_lexeme_eq_endMarker owned, hlength, List.take_succ_cons]
    rfl
  case unknown =>
    intro token hmem hkind before behind hcut hstarts hstops
    obtain ⟨front, c, rest, hreadAt⟩ := hread token hmem
    obtain ⟨count, hcount, rfl⟩ := hreadAt.exists_drop hcut hstarts hstops
    rw [hreadAt.kind, kind_lexeme_eq_unknown owned] at hkind
    obtain ⟨hmarker, hnone⟩ := startsSomething_eq_false.mp (startsSomething_inside hkind hcount)
    refine ⟨hmarker, fun terminal hterminal hpersists => ?_⟩
    cases hkeyword : terminal.isKeyword with
    | false => exact not_matches_of_plain hkeyword hterminal hnone
    | true => exact not_matches_of_isKeyword keywords (hpersists hkeyword) hkeyword hterminal hnone

/-- Tokens of unknown characters around a keyword, and an end marker. -/
theorem tokenization_words :
    words.Tokenization ['?', '?', 'x', 'x', 'é', '\x00', 'x']
        (words.tokenize ['?', '?', 'x', 'x', 'é', '\x00', 'x']).list ∧
      (words.tokenize ['?', '?', 'x', 'x', 'é', '\x00', 'x']).list.map
          (fun token => (token.kind, token.range)) =
        [(Kind.unknown, ⟨0, 2⟩), (⟨6⟩, ⟨2, 4⟩), (Kind.unknown, ⟨4, 6⟩), (Kind.endMarker, ⟨6, 8⟩)] :=
  ⟨tokenization_tokenize Grammar.compile_words _, by with_unfolding_all decide⟩

end CompiledGrammar

/-! ### A keyword that is not seen -/

/-- A grammar whose words stand at the end of the text; `x` is a keyword. -/
def Grammar.lastWord : Grammar :=
  { Grammar.empty "lastWord" with
    rules := [
      ("s", .choice [.literal "x", .reference "w"]),
      ("w", .pattern "x$")]
    start := some "s"
    word := some "w" }

/-- What it is compiled to. -/
def CompiledGrammar.lastWord : CompiledGrammar := Grammar.lastWord.compile.toOption.getD default

theorem Grammar.compile_lastWord : Grammar.lastWord.compile = .ok CompiledGrammar.lastWord :=
  Grammar.compile_eq_getD (by with_unfolding_all decide)

namespace CompiledGrammar

/-- **A keyword inside a token of unknown characters.**  The keyword matches in the middle of the
text `?x?`, but a word would have to stand at the end, so the whole text is one token. -/
theorem exists_keyword_lastWord : Grammar.lastWord.compile = .ok lastWord ∧
    ∃ token ∈ (lastWord.tokenize ['?', 'x', '?']).list, token.kind = Kind.unknown ∧
      ∃ front back, ['?', 'x', '?'] = front ++ back ∧
        token.range.start < Text.byteLength front ∧ Text.byteLength front < token.range.stop ∧
          ∃ terminal ∈ lastWord.lexicon.terminals, Matches back terminal := by
  have htokens : (lastWord.tokenize ['?', 'x', '?']).list =
      [⟨Kind.unknown, ⟨0, 3⟩, .origin, false, none⟩] := by with_unfolding_all decide
  have hkeyword : lastWord.lexicon.terminals.any
      (fun terminal => (terminal.matcher.scan? ['x', '?']).isSome) = true := by
    with_unfolding_all decide
  rw [htokens]
  refine ⟨Grammar.compile_lastWord, _, List.mem_singleton_self _, rfl, ['?'], ['x', '?'], rfl,
    by decide, by decide, ?_⟩
  obtain ⟨terminal, hmem, hmatches⟩ := List.any_eq_true.mp hkeyword
  exact ⟨terminal, hmem, hmatches⟩

end CompiledGrammar

end Syntagm
