import Syntagm.Proofs.Agreement
import Syntagm.Proofs.CheckedParsing
import Syntagm.Proofs.EditConsistency
import Syntagm.Proofs.Edits
import Syntagm.Proofs.Lossless

/-!
# Parsing again gives what parsing gives

What a parse exports is right for the places of its text.  An entry that looked at nothing but
places in front of an edit is right for the new text as it is, and one from a place on that lies
behind the edit is right there once it has moved (`Parse.valid_carryOver`).  So a parse that
begins with these entries begins with right ones, and what it exports is right again.  This goes
on over any number of edits (`Parser.Made.sound`).

A parse that begins with right entries gives the same tree and the same diagnostics as one that
begins with nothing, as long as no run is cut (`RecoveryScope.recover_agree`).  Hence parsing again
after an edit is the same as parsing the new text.
-/

namespace Syntagm

/-! ### Entries that move -/

section Moving
variable {compiled : CompiledGrammar} {tokens others : Array StreamToken}

theorem MemoEntry.moved_eq_carried {origin target position : Nat} (le : origin ≤ position) :
    moved ((target : Int) - (origin : Int)) position = carried origin target position := by
  rw [moved, carried]
  omega

/-- **An entry that has moved** is right where the tokens that it looked at have moved. -/
theorem MemoEntry.evaluates_shifted {origin target : Nat} {key : MemoKey} {entry : MemoEntry}
    (right : Evaluates compiled tokens (.call key.rule key.bound) key.position entry.result
      entry.seen)
    (back : ∀ count, SameStretch tokens others origin target count)
    (le : origin ≤ key.position) (looked : 0 < entry.lookahead) :
    Evaluates compiled others (.call key.rule key.bound)
      (moved ((target : Int) - (origin : Int)) key.position)
      (entry.shifted ((target : Int) - (origin : Int))).result
      (entry.shifted ((target : Int) - (origin : Int))).seen := by
  have hconfined := right.confined
  have hlook : key.position < entry.lookahead :=
    hconfined.within.lookahead.resolve_left (Nat.ne_of_gt looked)
  refine MemoEntry.evaluates_carried right (back entry.lookahead) le (Nat.le_add_left ..)
    (moved_eq_carried le) (Option.map_congr fun found hfound => ?_)
    (Option.map_congr fun failure hfailure => ?_) ?_
  · have hstop := hconfined.le_stop found hfound
    rw [moved_eq_carried (Nat.le_trans le hstop)]
    rfl
  · have hposition := (hconfined.within.failure failure hfailure).1
    rw [moved_eq_carried (Nat.le_trans le hposition)]
    rfl
  · rw [carriedEnd, if_neg (Nat.ne_of_gt looked), shifted, moved_eq_carried (by omega)]

/-- **What is carried over is right** for the new stream, if the entries were right for the old
one, and the streams are the same in front and behind. -/
theorem Parse.valid_carryOver {entries : List (MemoKey × MemoEntry)} {before behind target : Nat}
    (right : ∀ exported ∈ entries, Evaluates compiled tokens
      (.call exported.1.rule exported.1.bound) exported.1.position exported.2.result
      exported.2.seen)
    (front : SameStretch tokens others 0 0 before)
    (back : ∀ count, SameStretch tokens others behind target count) :
    Memo.Valid compiled others
      (carryOver entries before behind ((target : Int) - (behind : Int))) := by
  refine List.foldlRecOn entries _ Memo.valid_empty fun memo hmemo ⟨key, entry⟩ hmem => ?_
  have hright := right (key, entry) hmem
  simp only
  split
  · rename_i hfits
    exact hmemo.insert (hright.stay front hfits)
  · rename_i hlooked
    split
    -- it looked beyond the front, so it looked at something
    · rename_i hbehind
      exact hmemo.insert (MemoEntry.evaluates_shifted hright back hbehind
        (Nat.lt_of_le_of_lt (Nat.zero_le _) (Nat.not_le.mp hlooked)))
    · exact hmemo

end Moving

/-! ### What a parse exports -/

/-- **A parse can be gone on from**: its tokens are those of the text, and what it exports is
right for the stream of the text. -/
structure Parse.Sound (compiled : CompiledGrammar) (text : List Char) (parse : Parse) : Prop where
  tokens : parse.tokens = compiled.tokenize text
  reuse : ∀ exported ∈ parse.reuse, Evaluates compiled
    ((Source.ofTokens text (compiled.tokenize text)).stream [])
    (.call exported.1.rule exported.1.bound) exported.1.position exported.2.result exported.2.seen

/-- What a session exports is right if it started with right entries. -/
theorem RecoveryScope.evaluates_reuse {scope : RecoveryScope} {grammar : Grammar}
    (realizes : scope.compiled.Realizes grammar) {seed : Memo}
    (right : seed.Valid scope.compiled (scope.source.stream [])) :
    ∀ exported ∈ (scope.recover seed).reuse,
      Evaluates scope.compiled (scope.source.stream []) (.call exported.1.rule exported.1.bound)
        exported.1.position exported.2.result exported.2.seen := by
  have hsettled := settled_recover realizes right
  generalize scope.recover seed = recovered at hsettled ⊢
  cases hsettled with
  | success _ sound =>
    obtain ⟨repairs, hconsistent⟩ := sound
    exact hconsistent.evaluates_reuseTable realizes
  | abandoned => exact fun exported hmem => (nomatch hmem)

theorem Look.placesOf_le (front back : List Look) :
    placesOf front back ≤ significant (front ++ back) + 1 := by
  rw [placesOf, significant_append]
  split <;> omega

theorem CompiledGrammar.placesBehind_le (compiled : CompiledGrammar) (text : List Char)
    (count : Nat) :
    Tokens.placesBehind (compiled.tokenize text).list count ≤
      Tokens.significantBefore (compiled.tokenize text).list
        (compiled.tokenize text).list.length + 1 := by
  rw [← placesOf_looks, ← significant_looks]
  refine Nat.le_trans (Look.placesOf_le _ _) ?_
  rw [List.take_append_drop]

namespace Parser

variable {parser : Parser} {grammar : Grammar} {oldText newText : List Char} {old : Parse}
  {edit : Edit}

/-- **What is unchanged is right** for the new text if the edit keeps the text of what agrees. -/
theorem valid_unchanged (owned : parser.compiled.lexicon.Owned parser.compiled.kinds)
    (sound : old.Sound parser.compiled oldText) (keeps : edit.Keeps oldText newText) :
    (old.unchanged edit (parser.compiled.tokenize newText)).Valid parser.compiled
      ((Source.ofTokens newText (parser.compiled.tokenize newText)).stream []) := by
  rw [Parse.unchanged, sound.tokens]
  simp only
  split
  · exact Memo.valid_empty
  · generalize hbefore : edit.unchangedBefore (parser.compiled.tokenize oldText).list
      (parser.compiled.tokenize newText).list = before
    generalize hbehind : edit.unchangedBehind (parser.compiled.tokenize oldText).list
      (parser.compiled.tokenize newText).list before = behind
    generalize hplaces : min
      (Tokens.placesBehind (parser.compiled.tokenize oldText).list
        ((parser.compiled.tokenize oldText).list.length - behind))
      (Tokens.placesBehind (parser.compiled.tokenize newText).list
        ((parser.compiled.tokenize newText).list.length - behind)) = places
    have hle := parser.compiled.placesBehind_le oldText
      ((parser.compiled.tokenize oldText).list.length - behind)
    have hle' := parser.compiled.placesBehind_le newText
      ((parser.compiled.tokenize newText).list.length - behind)
    have hvalid := Parse.valid_carryOver sound.reuse
      (Edit.sameStretch_before owned keeps hbefore.symm)
      (Edit.sameStretch_behind owned keeps before hbehind.symm hplaces.symm)
    -- both texts have these places at their ends, so entries move by the difference in size
    have hshift : ∀ oldSize newSize : Nat, places ≤ oldSize + 1 → places ≤ newSize + 1 →
        ((newSize + 1 - places : Nat) : Int) - ((oldSize + 1 - places : Nat) : Int) =
          (newSize : Int) - (oldSize : Int) := by
      intro oldSize newSize hold hnew
      omega
    rwa [hshift _ _ (by omega) (by omega)] at hvalid

/-- A parse after an edit starts with right entries if the edit keeps the text of what agrees. -/
theorem valid_seed_of_keeps (owned : parser.compiled.lexicon.Owned parser.compiled.kinds)
    (sound : old.Sound parser.compiled oldText) (keeps : edit.Keeps oldText newText) :
    (parser.seed old edit newText (parser.compiled.tokenize newText)).Valid parser.compiled
      ((Source.ofTokens newText (parser.compiled.tokenize newText)).stream []) := by
  unfold seed Parse.reusable
  split
  · split
    · exact valid_unchanged owned sound keeps
    · exact Memo.valid_empty
  · exact Memo.valid_empty

/-- A parse after an edit starts with right entries, or with none. -/
theorem valid_seed_replacing (owned : parser.compiled.lexicon.Owned parser.compiled.kinds)
    (sound : old.Sound parser.compiled oldText) (range : Text.Range) (replacement : List Char)
    (apart : (Edit.replacing oldText range replacement).IsInside oldText → replacement = []) :
    let edit := Edit.replacing oldText range replacement
    let newText := edit.apply oldText replacement
    (parser.seed old edit newText (parser.compiled.tokenize newText)).Valid parser.compiled
      ((Source.ofTokens newText (parser.compiled.tokenize newText)).stream []) := by
  intro edit newText
  by_cases fits : edit.fits (Text.byteLength oldText) (Text.byteLength newText) = true
  · exact valid_seed_of_keeps owned sound (Edit.keeps_of_fits fits apart)
  · have hnone : parser.seed old edit newText (parser.compiled.tokenize newText) = ∅ := by
      rw [seed, Parse.reusable, sound.tokens, CompiledGrammar.tokenize, if_neg fits, ite_self]
    rw [hnone]
    exact Memo.valid_empty

/-- A parse that starts with right entries can be gone on from. -/
theorem sound_parseWith (realizes : parser.compiled.Realizes grammar) (text : List Char)
    {seed : Memo} (right : seed.Valid parser.compiled
      ((Source.ofTokens text (parser.compiled.tokenize text)).stream [])) :
    (parser.parseWith text (parser.compiled.tokenize text) seed).Sound parser.compiled text where
  tokens := rfl
  reuse := @RecoveryScope.evaluates_reuse (parser.scope text (parser.compiled.tokenize text))
    grammar realizes seed right

end Parser

/-- A range of a text and what it is replaced by. -/
structure Replacement where
  text : List Char
  range : Text.Range
  content : List Char

namespace Replacement

/-- The edit that a replacement is. -/
def edit (taken : Replacement) : Edit := Edit.replacing taken.text taken.range taken.content

/-- The text that it makes. -/
def result (taken : Replacement) : List Char := taken.edit.apply taken.text taken.content

/-- It puts nothing inside a character. -/
def KeepsCharacters (taken : Replacement) : Prop :=
  taken.edit.IsInside taken.text → taken.content = []

instance (taken : Replacement) : Decidable taken.KeepsCharacters :=
  inferInstanceAs (Decidable (_ → _))

end Replacement

namespace Parser

variable {parser : Parser} {grammar : Grammar} {oldText : List Char} {old : Parse}

/-- **How a parse of a text may be made** with a grammar: from the text alone, or from a parse
of another text by replacing any range, each time with any options.  What was replaced is listed,
the last replacement first. -/
inductive Made (compiled : CompiledGrammar) : List Replacement → List Char → Parse → Prop where
  | parse (options : ParserOptions) (text : List Char) :
    Made compiled [] text (Parser.parse ⟨compiled, options⟩ text)
  | reparse (options : ParserOptions) {chain : List Replacement} {old : Parse}
      (taken : Replacement) (made : Made compiled chain taken.text old) :
    Made compiled (taken :: chain) taken.result
      (Parser.reparse ⟨compiled, options⟩ old taken.edit taken.result)

/-- **Every parse can be gone on from**, after any number of edits, if none of them put something
inside a character. -/
theorem Made.sound {compiled : CompiledGrammar} (realizes : compiled.Realizes grammar)
    {chain : List Replacement} {text : List Char} {parse : Parse}
    (made : Made compiled chain text parse) (whole : ∀ taken ∈ chain, taken.KeepsCharacters) :
    parse.Sound compiled text := by
  induction made with
  | parse options text =>
    exact @sound_parseWith ⟨compiled, options⟩ grammar realizes text _ Memo.valid_empty
  | reparse options taken _ ih =>
    obtain ⟨hwhole, hbefore⟩ := List.forall_mem_cons.mp whole
    exact @sound_parseWith ⟨compiled, options⟩ grammar realizes _ _
      (@valid_seed_replacing ⟨compiled, options⟩ _ _ realizes.owned (ih hbefore) taken.range
        taken.content hwhole)

/-- What the runs of the engine give while a text is parsed, the last one first. -/
def outcomes (parser : Parser) (text : List Char) (seed : Memo) : List Outcome :=
  ((parser.scope text (parser.compiled.tokenize text)).recover seed).outcomes

/-- **Parsing again is parsing.**  A parse of a text was made with the grammar of a parser, by
any chain of edits of which none put something inside a character.  A range of the text is replaced
whose ends are boundaries.  If no run of the engine goes beyond the limit on depth, neither with
what is used again nor without, then parsing again gives the tree and the diagnostics that parsing
the new text gives, and in either arithmetic one of them stops if and only if the other does. -/
theorem reparse_eq_parse (done : grammar.compile = .ok parser.compiled)
    {chain : List Replacement} (made : Made parser.compiled chain oldText old)
    (whole : ∀ taken ∈ chain, taken.KeepsCharacters) (range : Text.Range)
    (replacement : List Char) (starts : Text.isBoundary oldText range.start = true)
    (stops : Text.isBoundary oldText range.stop = true) :
    let edit := Edit.replacing oldText range replacement
    let newText := edit.apply oldText replacement
    (∀ outcome ∈ parser.outcomes newText
      (parser.seed old edit newText (parser.compiled.tokenize newText)),
        outcome.overflow = none) →
    (∀ outcome ∈ parser.outcomes newText ∅, outcome.overflow = none) →
      (parser.reparse old edit newText).tree = (parser.parse newText).tree ∧
        (parser.reparse old edit newText).diagnostics = (parser.parse newText).diagnostics ∧
        (range.start ≤ range.stop → ∀ arithmetic,
          (parser.reparse? arithmetic old edit newText).isSome =
            (parser.parse? arithmetic newText).isSome) := by
  intro edit newText uncut uncut'
  have realizes := Grammar.realizes_compile done
  have hvalid := valid_seed_of_keeps realizes.owned (made.sound realizes whole)
    (Edit.makes_replacing starts stops replacement).keeps
  obtain ⟨htree, herrors, hstrayed⟩ :=
    @RecoveryScope.recover_agree (parser.scope newText (parser.compiled.tokenize newText)) grammar
      realizes _ _ hvalid Memo.valid_empty (not_cut.mpr uncut) (not_cut.mpr uncut')
  refine ⟨htree, ?_, fun ordered arithmetic => ?_⟩
  · simp only [reparse, reparseWith, parse, parseWith, conclude]
    rw [herrors]
  · have hordered := Edit.not_isReversed_replacing ordered oldText replacement
    rw [reparse?_eq, if_neg fun h => hordered h.2.2]
    exact isSome_parseWith?_eq hstrayed

/-- A text that is edited twice: an `a` is put in front of it, and then something unknown behind
that. -/
theorem reparse_eq_parse_pair :
    let parser := Parser.ofCompiled .pair
    let first := Edit.replacing ['b'] ⟨0, 0⟩ ['a']
    let second := Edit.replacing ['a', 'b'] ⟨1, 1⟩ ['?']
    let old := parser.reparse (parser.parse ['b']) first ['a', 'b']
    (∀ outcome ∈ parser.outcomes ['a', '?', 'b']
      (parser.seed old second ['a', '?', 'b'] (CompiledGrammar.pair.tokenize ['a', '?', 'b'])),
        outcome.overflow = none) ∧
      (∀ outcome ∈ parser.outcomes ['a', '?', 'b'] ∅, outcome.overflow = none) ∧
      (parser.reparse old second ['a', '?', 'b']).tree = (parser.parse ['a', '?', 'b']).tree ∧
      (parser.reparse old second ['a', '?', 'b']).diagnostics =
        (parser.parse ['a', '?', 'b']).diagnostics ∧
      (parser.reparse? .checked old second ['a', '?', 'b']).isSome =
        (parser.parse? .checked ['a', '?', 'b']).isSome := by
  intro parser first second old
  have huncut : ∀ outcome ∈ (Parser.ofCompiled .pair).outcomes ['a', '?', 'b']
      ((Parser.ofCompiled .pair).seed ((Parser.ofCompiled .pair).reparse
        ((Parser.ofCompiled .pair).parse ['b']) (Edit.replacing ['b'] ⟨0, 0⟩ ['a']) ['a', 'b'])
        (Edit.replacing ['a', 'b'] ⟨1, 1⟩ ['?']) ['a', '?', 'b']
        (CompiledGrammar.pair.tokenize ['a', '?', 'b'])), outcome.overflow = none := by
    with_unfolding_all decide
  have huncut' : ∀ outcome ∈ (Parser.ofCompiled .pair).outcomes ['a', '?', 'b'] ∅,
      outcome.overflow = none := by
    with_unfolding_all decide
  have hmade : Made .pair [⟨['b'], ⟨0, 0⟩, ['a']⟩] ['a', 'b'] old :=
    .reparse .standard ⟨['b'], ⟨0, 0⟩, ['a']⟩ (.parse .standard ['b'])
  have hwhole : ∀ taken ∈ [(⟨['b'], ⟨0, 0⟩, ['a']⟩ : Replacement)], taken.KeepsCharacters := by
    decide
  obtain ⟨htree, hdiagnostics, hstops⟩ := @reparse_eq_parse (Parser.ofCompiled .pair) .pair
    ['a', 'b'] old Grammar.compile_pair _ hmade hwhole ⟨1, 1⟩ ['?'] (by decide) (by decide) huncut
    huncut'
  exact ⟨huncut, huncut', htree, hdiagnostics, hstops (Nat.le_refl _) .checked⟩

end Parser

end Syntagm
