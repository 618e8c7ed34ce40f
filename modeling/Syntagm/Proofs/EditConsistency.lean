import Syntagm.Parse.Reparse
import Syntagm.Proofs.CheckedParsing
import Syntagm.Proofs.Lowering

/-!
# Edits that do not fit the texts

An edit is consistent with two texts if it starts in front of both of its ends, if it ends inside of
the old text, and if the lengths add up (`Edit.Consistent`).  That is what `Edit.fits` decides, and
an edit that is not consistent is as good as none: the new text is parsed from the beginning.

The lengths of what is taken out and of what is put in are formed in front of all comparisons
(`Edit.fits?`), so an edit that ends in front of its start takes them below zero.  No difference
that has wrapped around is ever used; but where differences are checked, the program stops in front
of the test that would have refused the edit.
-/

namespace Syntagm

namespace Edit

/-- **Consistency** of an edit with texts of these lengths. -/
structure Consistent (edit : Edit) (oldLength newLength : Nat) : Prop where
  start_le_oldEnd : edit.start ≤ edit.oldEnd
  start_le_newEnd : edit.start ≤ edit.newEnd
  oldEnd_le : edit.oldEnd ≤ oldLength
  /-- What is behind the edit stays. -/
  lengths : oldLength + edit.newEnd = newLength + edit.oldEnd

/-- Whether the edit ends in front of its start, in the old text or in the new one. -/
def IsReversed (edit : Edit) : Prop := edit.oldEnd < edit.start ∨ edit.newEnd < edit.start

instance (edit : Edit) : Decidable edit.IsReversed := inferInstanceAs (Decidable (_ ∨ _))

end Edit

/-! ### The test, step by step -/

namespace Edit

variable {edit : Edit} {oldLength newLength : Nat}

theorem fits_iff_consistent :
    edit.fits oldLength newLength = true ↔ edit.Consistent oldLength newLength := by
  simp only [fits, Bool.and_eq_true, decide_eq_true_eq, beq_iff_eq]
  constructor
  · rintro ⟨⟨⟨hold, hnew⟩, hin⟩, hsum⟩
    exact ⟨hold, hnew, hin, by omega⟩
  · rintro ⟨hold, hnew, hin, hsum⟩
    exact ⟨⟨⟨hold, hnew⟩, hin⟩, by omega⟩

theorem fits_of_isReversed (reversed : edit.IsReversed) :
    edit.fits oldLength newLength = false := by
  rw [Bool.eq_false_iff, ne_eq, fits_iff_consistent]
  rintro ⟨hold, hnew, -, -⟩
  exact reversed.elim (Nat.not_lt.mpr hold) (Nat.not_lt.mpr hnew)

/-- The edit that replaces a range does not. -/
theorem not_isReversed_replacing {range : Text.Range} (ordered : range.start ≤ range.stop)
    (text replacement : List Char) : ¬ (replacing text range replacement).IsReversed := by
  simp only [IsReversed, replacing]
  omega

/-- An edit whose ends are behind its start is tested without a difference below zero. -/
theorem fits?_of_not_isReversed (arithmetic : Arithmetic) (ordered : ¬ edit.IsReversed) :
    edit.fits? arithmetic oldLength newLength = some (edit.fits oldLength newLength) := by
  obtain ⟨hold, hnew⟩ := not_or.mp ordered
  have hold := Nat.not_lt.mp hold
  have hnew := Nat.not_lt.mp hnew
  simp only [fits?, arithmetic.difference?_of_le hold, arithmetic.difference?_of_le hnew,
    Option.bind_eq_bind, Option.bind_some, fits]
  by_cases hin : edit.oldEnd ≤ oldLength
  · have hkept : edit.oldEnd - edit.start ≤ oldLength := Nat.le_trans (Nat.sub_le ..) hin
    rw [if_neg (by omega), arithmetic.difference?_of_le hkept]
    simp [hold, hnew, hin]
  · rw [if_pos (by omega)]
    simp [hin]

/-- An edit that ends in front of its start is refused where differences wrap around; where they are
checked, the program stops. -/
theorem fits?_of_isReversed (arithmetic : Arithmetic) (reversed : edit.IsReversed) :
    edit.fits? arithmetic oldLength newLength =
      if arithmetic = .checked then none else some false := by
  cases arithmetic with
  | checked =>
    rw [if_pos rfl, fits?]
    rcases reversed with hold | hnew
    · rw [Arithmetic.difference?_checked_eq_none hold]
      rfl
    · rw [Arithmetic.difference?_checked_eq_none hnew]
      exact Option.bind_fun_none _
  | wrapping =>
    obtain ⟨removed, hremoved⟩ :=
      Arithmetic.exists_difference?_wrapping UInt32.size edit.oldEnd edit.start
    obtain ⟨inserted, hinserted⟩ :=
      Arithmetic.exists_difference?_wrapping UInt32.size edit.newEnd edit.start
    have hrefused : edit.start > edit.oldEnd ∨ edit.start > edit.newEnd ∨ edit.oldEnd > oldLength :=
      reversed.imp_right .inl
    simp only [fits?, hremoved, hinserted, Option.bind_eq_bind, Option.bind_some, if_pos hrefused,
      reduceCtorEq, if_false]
    rfl

/-- **The test of an edit** gives what `fits` says, unless the edit ends in front of its start and
differences are checked. -/
theorem fits?_eq (arithmetic : Arithmetic) :
    edit.fits? arithmetic oldLength newLength =
      if arithmetic = .checked ∧ edit.IsReversed then none
      else some (edit.fits oldLength newLength) := by
  by_cases reversed : edit.IsReversed
  · rw [fits?_of_isReversed arithmetic reversed, fits_of_isReversed reversed]
    simp only [reversed, and_true]
  · rw [fits?_of_not_isReversed arithmetic reversed, if_neg fun h => reversed h.2]

end Edit

/-! ### Parsing again -/

theorem CompiledGrammar.sameGrammar_refl (compiled : CompiledGrammar) :
    compiled.sameGrammar compiled = true := by
  simp [sameGrammar, isCompiledFrom, fingerprint]

/-- **What may be used again, step by step,** is what may be used again, unless the edit ends in
front of its start and differences are checked. -/
theorem Parse.reusable?_eq (old : Parse) (arithmetic : Arithmetic) (edit : Edit)
    (newText : List Char) (newTokens : Tokens) :
    old.reusable? arithmetic edit newText newTokens =
      if arithmetic = .checked ∧ edit.IsReversed then none
      else some (old.reusable edit newText newTokens) := by
  rw [reusable?, Edit.fits?_eq, reusable]
  split
  · rfl
  · rfl

namespace Parser

variable {parser : Parser} {arithmetic : Arithmetic} {old : Parse} {edit : Edit}
  {newText : List Char}

/-- **Parsing again, step by step,** is parsing with what may be used again, unless the edit ends in
front of its start, differences are checked, and the old parse is one of the same grammar. -/
theorem reparse?_eq (parser : Parser) (arithmetic : Arithmetic) (old : Parse) (edit : Edit)
    (newText : List Char) :
    parser.reparse? arithmetic old edit newText =
      if parser.compiled.sameGrammar old.compiled = true ∧ arithmetic = .checked ∧ edit.IsReversed
      then none
      else parser.parseWith? arithmetic newText (parser.compiled.tokenize newText)
        (parser.seed old edit newText (parser.compiled.tokenize newText)) := by
  rw [reparse?, reparseWith?, seed?, seed]
  by_cases same : parser.compiled.sameGrammar old.compiled = true
  · simp only [same, if_true, true_and, Parse.reusable?_eq]
    split
    · rfl
    · rfl
  · rw [if_neg same, if_neg same, if_neg fun h => same h.1]
    rfl

/-- An edit that is not consistent with the texts is as good as none. -/
theorem seed_of_not_consistent (tokens : Tokens)
    (inconsistent : ¬ edit.Consistent old.tokens.textLength (Text.byteLength newText)) :
    parser.seed old edit newText tokens = ∅ := by
  have hfits := mt Edit.fits_iff_consistent.mp inconsistent
  rw [seed, Parse.reusable, if_neg hfits, ite_self]

/-- **Edits that do not fit.**  A parse, an edit and a new text are given, whatever the offsets of
the edit are, such that the edit is not consistent with the texts.  Then parsing again is parsing
the new text, and nothing is used again.  The program gets there in either arithmetic, except where
differences are checked, the old parse is one of the same grammar, and the edit ends in front of its
start: there it stops. -/
theorem reparse_inconsistent
    (inconsistent : ¬ edit.Consistent old.tokens.textLength (Text.byteLength newText)) :
    parser.reparse old edit newText = parser.parse newText ∧
      (parser.reparse old edit newText).reused = 0 ∧
      ∀ arithmetic, parser.reparse? arithmetic old edit newText =
        if parser.compiled.sameGrammar old.compiled = true ∧ arithmetic = .checked ∧
          edit.IsReversed then none else parser.parse? arithmetic newText := by
  have hseed := @seed_of_not_consistent parser old edit newText
    (parser.compiled.tokenize newText) inconsistent
  have hparse : parser.reparse old edit newText = parser.parse newText := by
    rw [reparse, reparseWith, hseed, parse]
  refine ⟨hparse, ?_, fun arithmetic => ?_⟩
  · rw [hparse]
    rfl
  · rw [reparse?_eq, hseed]
    rfl

/-- An edit that ends behind the old text, and one whose lengths do not add up: neither stops the
program. -/
theorem reparse_inconsistent_pair :
    let parser := Parser.ofCompiled .pair
    let old := parser.parse ['a', 'b']
    (¬ (Edit.ofOffsets 1 3 3).Consistent old.tokens.textLength 2 ∧
        parser.reparse? .checked old (.ofOffsets 1 3 3) ['a', 'b'] =
          some (parser.parse ['a', 'b'])) ∧
      ¬ (Edit.ofOffsets 0 1 2).Consistent old.tokens.textLength 2 ∧
        parser.reparse? .checked old (.ofOffsets 0 1 2) ['a', 'b'] =
          some (parser.parse ['a', 'b']) := by
  intro parser old
  have hbehind : ¬ (Edit.ofOffsets 1 3 3).Consistent old.tokens.textLength 2 := fun h =>
    absurd h.oldEnd_le (by decide)
  have hsum : ¬ (Edit.ofOffsets 0 1 2).Consistent old.tokens.textLength 2 := fun h =>
    absurd h.lengths (by decide)
  have room : parser.HasRoom .checked (parser.compiled.tokenize ['a', 'b']) := fun _ _ => by
    with_unfolding_all decide
  refine ⟨⟨hbehind, ?_⟩, hsum, ?_⟩
  · rw [(@reparse_inconsistent parser old _ ['a', 'b'] hbehind).2.2, if_neg, parse?_eq_parse room]
    exact fun h => absurd h.2.2 (by decide)
  · rw [(@reparse_inconsistent parser old _ ['a', 'b'] hsum).2.2, if_neg, parse?_eq_parse room]
    exact fun h => absurd h.2.2 (by decide)

/-- An edit that ends in front of its start in the old text stops a program whose differences are
checked, although the text itself is parsed. -/
theorem reparse?_reversed :
    let parser := Parser.ofCompiled .pair
    let old := parser.parse ['a', 'b']
    ¬ (Edit.ofOffsets 1 0 1).Consistent old.tokens.textLength 2 ∧
      parser.reparse? .checked old (.ofOffsets 1 0 1) ['a', 'b'] = none ∧
      parser.parse? .checked ['a', 'b'] = some (parser.parse ['a', 'b']) := by
  intro parser old
  have hsame : parser.compiled.sameGrammar old.compiled = true :=
    CompiledGrammar.pair.sameGrammar_refl
  refine ⟨fun h => absurd h.start_le_oldEnd (by decide), ?_, parse?_eq_parse fun _ _ => ?_⟩
  · rw [reparse?_eq, if_pos ⟨hsame, rfl, by decide⟩]
  · with_unfolding_all decide

end Parser

end Syntagm
