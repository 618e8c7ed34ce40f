import Mathlib.Data.List.Infix
import Mathlib.Data.List.TakeWhile
import Syntagm.Proofs.Tiling

/-!
# Delimited strings

The first character of a delimited string says how the string ends.  A bracket is closed by its
partner, and brackets of its kind may stand inside.  A name begins a string of lines, which ends
where a line starts with the name again.  Any other character closes itself.  In each case the
closing delimiter follows.  `DelimitedBody` says this of a whole string; it does not look at what
comes behind the string.

Each scanner finds the end of such a string, whatever follows, and where it finds an end there is
such a string (`DelimitedBody.delimitedLength?`, `exists_body_of_delimitedLength?`).  So a scan
misses an end only where none of the beginnings of the text is a string of the kind that the first
character asks for.
-/

namespace Syntagm

namespace Scan

/-! ### Strings and their ends -/

section Brackets
variable (opening closing : Char)

/-- **A content in which brackets of one kind are balanced.** -/
inductive Balanced : (content : List Char) → Prop where
  | nil : Balanced []
  | other {c rest} (opens : c ≠ opening) (closes : c ≠ closing) (others : Balanced rest) :
      Balanced (c :: rest)
  | group {inner rest} (inside : Balanced inner) (others : Balanced rest) :
      Balanced (opening :: (inner ++ closing :: rest))

/-- **What stands between the outer brackets of a string**: the brackets inside are balanced, but
for closing brackets that the closing delimiter `ending` does not follow. -/
inductive BracketContent (ending : List Char) : (content : List Char) → Prop where
  | nil : BracketContent ending []
  | other {c rest} (opens : c ≠ opening) (closes : c ≠ closing)
      (others : BracketContent ending rest) : BracketContent ending (c :: rest)
  | group {inner rest} (inside : Balanced opening closing inner)
      (others : BracketContent ending rest) :
      BracketContent ending (opening :: (inner ++ closing :: rest))
  | stray {rest} (more : ¬ ending <+: rest ++ closing :: ending)
      (others : BracketContent ending rest) : BracketContent ending (closing :: rest)

end Brackets

section Lines
variable (ending : List Char)

/-- With `ending` behind the content, `ending` occurs first at the end. -/
def FirstAtEnd (content : List Char) : Prop :=
  ∀ front back, content ++ ending = front ++ (ending ++ back) → back = []

/-- **Lines with their breaks**, none of which starts with `ending`, where `ending` follows. -/
inductive LinesBefore : (content : List Char) → Prop where
  | nil : LinesBefore []
  | line {line newline rest} (plain : ∀ c ∈ line, Text.isLineBreak c = false)
      (breaks : Text.lineBreak? (newline ++ (rest ++ ending)) = some newline.length)
      (more : ¬ ending <+: line ++ (newline ++ (rest ++ ending))) (others : LinesBefore rest) :
      LinesBefore (line ++ (newline ++ rest))

end Lines

/-- **A delimited string** behind its opening delimiter, up to and with the closing one. -/
inductive DelimitedBody (closing : List Char) : (body : List Char) → Prop where
  | bracketed {bracket partner content} (pair : closingBracket? bracket = some partner)
      (inside : BracketContent bracket partner closing content) :
      DelimitedBody closing (bracket :: (content ++ partner :: closing))
  | selfClosing {delimiter content} (noBracket : closingBracket? delimiter = none)
      (noUnderscore : delimiter ≠ '_') (noLetter : Unicode.isIdentifierStart delimiter = false)
      (first : FirstAtEnd (delimiter :: closing) content) :
      DelimitedBody closing (delimiter :: (content ++ delimiter :: closing))
  | lines {name newline content} (named : Unicode.isIdentifier name = true)
      (breaks : Text.lineBreak? (newline ++ (content ++ (name ++ closing))) = some newline.length)
      (lines : LinesBefore (name ++ closing) content) :
      DelimitedBody closing (name ++ (newline ++ (content ++ (name ++ closing))))

/-! ### Brackets -/

section Brackets
variable {opening closing : Char} {ending : List Char}

theorem Balanced.bracketContent {content : List Char} (h : Balanced opening closing content) :
    BracketContent opening closing ending content := by
  induction h with
  | nil => exact .nil
  | other opens closes _ ih => exact .other opens closes ih
  | group inside _ _ ih => exact .group inside ih

section Steps
variable {depth : Nat} {c : Char} {rest : List Char}

theorem bracketedLength?_opening (apart : opening ≠ closing) :
    bracketedLength? opening closing ending depth (opening :: rest) =
      (bracketedLength? opening closing ending (depth + 1) rest).map (· + 1) := by
  rw [bracketedLength?.eq_def]
  simp only [if_neg apart, if_true]

theorem bracketedLength?_closing :
    bracketedLength? opening closing ending (depth + 1) (closing :: rest) =
      (bracketedLength? opening closing ending depth rest).map (· + 1) := by
  rw [bracketedLength?.eq_def]
  simp only [if_true]

theorem bracketedLength?_other (opens : c ≠ opening) (closes : c ≠ closing) :
    bracketedLength? opening closing ending depth (c :: rest) =
      (bracketedLength? opening closing ending depth rest).map (· + 1) := by
  rw [bracketedLength?.eq_def]
  simp only [if_neg opens, if_neg closes]

theorem bracketedLength?_last (ends : ending <+: rest) :
    bracketedLength? opening closing ending 0 (closing :: rest) = some (ending.length + 1) := by
  rw [bracketedLength?.eq_def]
  simp only [if_true, if_pos (startsWith_iff.mpr ends)]

theorem bracketedLength?_stray (more : ¬ ending <+: rest) :
    bracketedLength? opening closing ending 0 (closing :: rest) =
      (bracketedLength? opening closing ending 0 rest).map (· + 1) := by
  rw [bracketedLength?.eq_def]
  simp only [if_true, if_neg fun h => more (startsWith_iff.mp h)]

end Steps

/-- **A balanced content** leaves the number of open brackets as it is. -/
theorem Balanced.bracketedLength? (apart : opening ≠ closing) {content : List Char}
    (h : Balanced opening closing content) (depth : Nat) (text : List Char) :
    bracketedLength? opening closing ending depth (content ++ text) =
      (bracketedLength? opening closing ending depth text).map (· + content.length) := by
  induction h generalizing depth text with
  | nil => simp
  | other opens closes _ ih =>
    rw [List.cons_append, bracketedLength?_other opens closes, ih, Option.map_map]
    rfl
  | @group inner rest _ _ ihInside ih =>
    rw [List.cons_append, bracketedLength?_opening apart, List.append_assoc, List.cons_append,
      ihInside, bracketedLength?_closing, ih, Option.map_map, Option.map_map, Option.map_map]
    refine congrArg (Option.map · _) (funext fun length => ?_)
    simp only [Function.comp_apply, List.length_cons, List.length_append]
    omega

/-- **The scanner finds the outer closing bracket.** -/
theorem BracketContent.bracketedLength? (apart : opening ≠ closing) {content : List Char}
    (h : BracketContent opening closing ending content) (following : List Char) :
    bracketedLength? opening closing ending 0 (content ++ closing :: (ending ++ following)) =
      some (content.length + (ending.length + 1)) := by
  induction h with
  | nil =>
    rw [List.nil_append, bracketedLength?_last (List.prefix_append _ _)]
    simp
  | other opens closes _ ih =>
    rw [List.cons_append, bracketedLength?_other opens closes, ih, Option.map_some,
      List.length_cons, Nat.add_right_comm]
  | @group inner rest inside _ ih =>
    rw [List.cons_append, bracketedLength?_opening apart, List.append_assoc, List.cons_append,
      inside.bracketedLength? apart, bracketedLength?_closing, ih]
    simp only [Option.map_some, List.length_cons, List.length_append]
    refine congrArg some ?_
    omega
  | @stray rest more _ ih =>
    have hmore : ¬ ending <+: rest ++ closing :: (ending ++ following) := fun hends => by
      have hlong : ending <+: (rest ++ closing :: ending) ++ following := by simpa using hends
      exact more ((List.isPrefix_append_of_length (by simp; omega)).mp hlong)
    rw [List.cons_append, bracketedLength?_stray hmore, ih, Option.map_some, List.length_cons,
      Nat.add_right_comm]

/-- A content behind `depth + 1` open brackets, which closes all of them but the outer one. -/
def Pending (opening closing : Char) (ending : List Char) :
    (depth : Nat) → (content : List Char) → Prop
  | 0, content => BracketContent opening closing ending content
  | depth + 1, content => ∃ inner rest, content = inner ++ closing :: rest ∧
      Balanced opening closing inner ∧ Pending opening closing ending depth rest

namespace Pending
variable {depth : Nat} {rest : List Char}

theorem other {c : Char} (opens : c ≠ opening) (closes : c ≠ closing)
    (h : Pending opening closing ending depth rest) :
    Pending opening closing ending depth (c :: rest) := by
  cases depth with
  | zero => exact BracketContent.other opens closes h
  | succ depth =>
    obtain ⟨inner, others, rfl, hinner, hothers⟩ := h
    exact ⟨c :: inner, others, rfl, .other opens closes hinner, hothers⟩

theorem opened (h : Pending opening closing ending (depth + 1) rest) :
    Pending opening closing ending depth (opening :: rest) := by
  obtain ⟨inner, others, rfl, hinner, hothers⟩ := h
  cases depth with
  | zero => exact BracketContent.group hinner hothers
  | succ depth =>
    -- the group that is closed first is part of the one around it
    obtain ⟨inner', others, rfl, hinner', hothers⟩ := hothers
    refine ⟨opening :: (inner ++ closing :: inner'), others, ?_, .group hinner hinner', hothers⟩
    simp only [List.cons_append, List.append_assoc]

end Pending

/-- **Where the scanner finds an end**, the content in front of it closes all brackets. -/
theorem exists_pending_of_bracketedLength? {depth length : Nat} {text : List Char}
    (h : bracketedLength? opening closing ending depth text = some length) :
    ∃ content back, text = content ++ closing :: (ending ++ back) ∧
      Pending opening closing ending depth content := by
  induction depth, text using bracketedLength?.induct opening closing ending
      generalizing length with
  | case1 => simp [Scan.bracketedLength?] at h
  | case2 rest ends =>
    obtain ⟨back, rfl⟩ := startsWith_iff.mp ends
    exact ⟨[], back, rfl, .nil⟩
  | case3 rest more ih =>
    have hmore : ¬ ending <+: rest := fun hends => more (startsWith_iff.mpr hends)
    rw [bracketedLength?_stray hmore] at h
    obtain ⟨length, hrest, -⟩ := Option.map_eq_some_iff.mp h
    obtain ⟨content, back, rfl, hcontent⟩ := ih hrest
    refine ⟨closing :: content, back, rfl, BracketContent.stray (fun hends => hmore ?_) hcontent⟩
    exact hends.trans ⟨back, by simp⟩
  | case4 rest depth ih =>
    rw [bracketedLength?_closing] at h
    obtain ⟨length, hrest, -⟩ := Option.map_eq_some_iff.mp h
    obtain ⟨content, back, rfl, hcontent⟩ := ih hrest
    exact ⟨closing :: content, back, rfl, [], content, rfl, .nil, hcontent⟩
  | case5 depth rest apart ih =>
    rw [bracketedLength?_opening apart] at h
    obtain ⟨length, hrest, -⟩ := Option.map_eq_some_iff.mp h
    obtain ⟨content, back, rfl, hcontent⟩ := ih hrest
    exact ⟨opening :: content, back, rfl, hcontent.opened⟩
  | case6 depth c rest closes opens ih =>
    rw [bracketedLength?_other opens closes] at h
    obtain ⟨length, hrest, -⟩ := Option.map_eq_some_iff.mp h
    obtain ⟨content, back, rfl, hcontent⟩ := ih hrest
    exact ⟨c :: content, back, rfl, hcontent.other opens closes⟩

end Brackets

/-! ### A character that closes itself -/

section FirstAtEnd
variable {ending content : List Char}

theorem FirstAtEnd.of_cons {c : Char} (h : FirstAtEnd ending (c :: content)) :
    FirstAtEnd ending content := fun front back heq =>
  h (c :: front) back (by rw [List.cons_append, heq, List.cons_append])

theorem FirstAtEnd.cons {c : Char} (h : FirstAtEnd ending content)
    (more : ¬ ending <+: c :: (content ++ ending)) : FirstAtEnd ending (c :: content) := by
  rintro (_ | ⟨c', front⟩) back heq
  · exact absurd ⟨back, heq.symm⟩ more
  · exact h front back (List.cons.inj heq).2

theorem FirstAtEnd.not_prefix {c : Char} (h : FirstAtEnd ending (c :: content)) :
    ¬ ending <+: c :: (content ++ ending) := by
  rintro ⟨back, heq⟩
  obtain rfl := h [] back heq.symm
  have hlength := congrArg List.length heq
  simp only [List.append_nil, List.length_cons, List.length_append] at hlength
  omega

/-- **The scanner finds the first end.** -/
theorem FirstAtEnd.lengthThrough? (filled : ending ≠ []) (h : FirstAtEnd ending content)
    (following : List Char) :
    lengthThrough? ending (content ++ (ending ++ following)) =
      some (content.length + ending.length) := by
  induction content with
  | nil =>
    obtain ⟨c, rest, rfl⟩ := List.exists_cons_of_ne_nil filled
    have hends : startsWith (c :: (rest ++ following)) (c :: rest) = true :=
      startsWith_append _ _
    rw [List.nil_append, List.cons_append, Scan.lengthThrough?, if_pos hends, List.length_nil,
      Nat.zero_add]
  | cons c content ih =>
    have hmore : ¬ startsWith (c :: (content ++ (ending ++ following))) ending = true := by
      rw [startsWith_iff, ← List.append_assoc, ← List.cons_append]
      rw [List.isPrefix_append_of_length (by simp; omega)]
      exact h.not_prefix
    rw [List.cons_append, Scan.lengthThrough?, if_neg hmore, ih h.of_cons, Option.map_some,
      List.length_cons, Nat.add_right_comm]

/-- **Where the scanner finds an end**, it is the first one. -/
theorem exists_firstAtEnd_of_lengthThrough? {text : List Char} {length : Nat}
    (h : lengthThrough? ending text = some length) :
    ∃ content back, text = content ++ (ending ++ back) ∧ FirstAtEnd ending content := by
  induction text generalizing length with
  | nil => cases h
  | cons c rest ih =>
    rw [Scan.lengthThrough?] at h
    split at h
    · rename_i hends
      obtain ⟨back, heq⟩ := startsWith_iff.mp hends
      refine ⟨[], back, heq.symm, fun front back' hoccurs => ?_⟩
      have hlength := congrArg List.length hoccurs
      simp only [List.nil_append, List.length_append] at hlength
      exact List.eq_nil_of_length_eq_zero (by omega)
    · rename_i hmore
      obtain ⟨length, hrest, -⟩ := Option.map_eq_some_iff.mp h
      obtain ⟨content, back, rfl, hfirst⟩ := ih hrest
      refine ⟨c :: content, back, rfl, hfirst.cons fun hends => hmore (startsWith_iff.mpr ?_)⟩
      exact hends.trans ⟨back, by simp⟩

end FirstAtEnd

/-! ### Strings of lines -/

section LineBreaks
variable {text : List Char} {length : Nat}

theorem lineBreak?_pos (h : Text.lineBreak? text = some length) : 0 < length := by
  unfold Text.lineBreak? at h
  split at h
  · obtain rfl := Option.some.inj h
    exact Nat.two_pos
  · split at h
    · obtain rfl := Option.some.inj h
      exact Nat.one_pos
    · cases h
  · cases h

/-- Two characters decide on a line break. -/
theorem lineBreak?_append (two : 2 ≤ text.length) (following : List Char) :
    Text.lineBreak? (text ++ following) = Text.lineBreak? text := by
  obtain ⟨first, second, rest, rfl⟩ : ∃ first second rest, text = first :: second :: rest := by
    match text, two with
    | first :: second :: rest, _ => exact ⟨first, second, rest, rfl⟩
  by_cases hpair : first = '\r' ∧ second = '\n'
  · obtain ⟨rfl, rfl⟩ := hpair
    rfl
  · have hsingle (tail : List Char) : Text.lineBreak? (first :: second :: tail) =
        if Text.isLineBreak first then some 1 else none := by
      rw [Text.lineBreak?]
      rintro _ rfl heq
      exact hpair ⟨rfl, (List.cons.inj heq).1⟩
    rw [List.cons_append, List.cons_append, hsingle, hsingle]

theorem lineBreak?_eq_none_iff {c : Char} {rest : List Char} :
    Text.lineBreak? (c :: rest) = none ↔ Text.isLineBreak c = false := by
  by_cases hpair : c = '\r' ∧ ∃ rest', rest = '\n' :: rest'
  · obtain ⟨rfl, rest', rfl⟩ := hpair
    exact ⟨fun h => (nomatch h), fun h => absurd h (by decide)⟩
  · rw [Text.lineBreak?, ite_eq_right_iff, Bool.eq_false_iff]
    · exact ⟨fun h hbreak => (nomatch h hbreak), fun h hbreak => absurd hbreak h⟩
    · rintro rest' rfl rfl
      exact hpair ⟨rfl, rest', rfl⟩

end LineBreaks

section Lines
variable {ending : List Char}

section Steps
variable {atLineStart : Bool} {c : Char} {text : List Char}

/-- The scanner goes on behind a line break. -/
theorem lengthThroughLine?_newline {newline : List Char}
    (breaks : Text.lineBreak? (newline ++ text) = some newline.length)
    (more : atLineStart = true → ¬ ending <+: newline ++ text) :
    lengthThroughLine? ending atLineStart (newline ++ text) =
      (lengthThroughLine? ending true text).map (newline.length + ·) := by
  obtain ⟨c, newline, rfl⟩ := List.exists_cons_of_ne_nil
    (List.ne_nil_of_length_pos (lineBreak?_pos breaks))
  have hmore : ¬ (atLineStart && startsWith (c :: (newline ++ text)) ending) = true := fun h =>
    more (Bool.and_eq_true_iff.mp h).1 (startsWith_iff.mp (Bool.and_eq_true_iff.mp h).2)
  rw [List.cons_append] at breaks ⊢
  rw [lengthThroughLine?, if_neg hmore, breaks]
  simp only [List.length_cons, Nat.add_sub_cancel, List.drop_left]
  refine congrArg (Option.map · _) (funext fun length => ?_)
  omega

/-- The scanner skips a character that breaks no line. -/
theorem lengthThroughLine?_plain (plain : Text.isLineBreak c = false)
    (more : atLineStart = true → ¬ ending <+: c :: text) :
    lengthThroughLine? ending atLineStart (c :: text) =
      (lengthThroughLine? ending false text).map (1 + ·) := by
  have hmore : ¬ (atLineStart && startsWith (c :: text) ending) = true := fun h =>
    more (Bool.and_eq_true_iff.mp h).1 (startsWith_iff.mp (Bool.and_eq_true_iff.mp h).2)
  rw [lengthThroughLine?, if_neg hmore, lineBreak?_eq_none_iff.mpr plain]
  exact congrArg (Option.map · _) (funext fun length => Nat.add_comm _ _)

/-- **The scanner skips a line** with its break. -/
theorem lengthThroughLine?_line {line newline : List Char}
    (plain : ∀ c ∈ line, Text.isLineBreak c = false)
    (breaks : Text.lineBreak? (newline ++ text) = some newline.length)
    (more : atLineStart = true → ¬ ending <+: line ++ (newline ++ text)) :
    lengthThroughLine? ending atLineStart (line ++ (newline ++ text)) =
      (lengthThroughLine? ending true text).map ((line ++ newline).length + ·) := by
  induction line generalizing atLineStart with
  | nil => exact lengthThroughLine?_newline breaks more
  | cons c line ih =>
    rw [List.cons_append] at more ⊢
    have hrest := @ih false (fun c' hmem => plain c' (List.mem_cons_of_mem c hmem)) (nomatch ·)
    rw [lengthThroughLine?_plain (plain c List.mem_cons_self) more, hrest, Option.map_map]
    refine congrArg (Option.map · _) (funext fun length => ?_)
    simp only [Function.comp_apply, List.cons_append, List.length_cons]
    omega

end Steps

/-- The line break behind a line does not depend on what follows the ending. -/
theorem lineBreak?_following (filled : ending ≠ []) {newline rest : List Char}
    (breaks : Text.lineBreak? (newline ++ (rest ++ ending)) = some newline.length)
    (following : List Char) :
    Text.lineBreak? (newline ++ (rest ++ (ending ++ following))) =
      some newline.length := by
  have hnewline := lineBreak?_pos breaks
  have hending := List.length_pos_iff.mpr filled
  have hlength : 2 ≤ (newline ++ (rest ++ ending)).length := by
    simp only [List.length_append]
    omega
  rw [← breaks, ← lineBreak?_append hlength following]
  simp only [List.append_assoc]

/-- The line break in front of lines that end with `ending`. -/
theorem exists_newline (filled : ending ≠ []) {text content back : List Char} {width : Nat}
    (breaks : Text.lineBreak? text = some width)
    (behind : text.drop width = content ++ (ending ++ back)) :
    ∃ newline, text = newline ++ (content ++ (ending ++ back)) ∧
      Text.lineBreak? (newline ++ (content ++ ending)) = some newline.length := by
  have hwidth := lineBreak?_pos breaks
  have hending := List.length_pos_iff.mpr filled
  have hnewline : (text.take width).length = width := List.length_take_of_le (lineBreak?_le breaks)
  have htext : text = text.take width ++ (content ++ (ending ++ back)) := by
    rw [← behind, List.take_append_drop]
  have hlength : 2 ≤ (text.take width ++ (content ++ ending)).length := by
    simp only [List.length_append, hnewline]
    omega
  refine ⟨text.take width, htext, ?_⟩
  rw [hnewline, ← lineBreak?_append hlength back, List.append_assoc, List.append_assoc, ← htext,
    breaks]

/-- **The scanner finds the line with the ending.** -/
theorem LinesBefore.lengthThroughLine? (filled : ending ≠ []) {content : List Char}
    (h : LinesBefore ending content) (following : List Char) :
    lengthThroughLine? ending true (content ++ (ending ++ following)) =
      some (content.length + ending.length) := by
  induction h with
  | nil =>
    obtain ⟨c, rest, rfl⟩ := List.exists_cons_of_ne_nil filled
    have hends : startsWith (c :: (rest ++ following)) (c :: rest) = true :=
      startsWith_append _ _
    rw [List.nil_append, List.cons_append, Scan.lengthThroughLine?, if_pos (by rw [hends]; rfl),
      List.length_nil, Nat.zero_add]
  | @line line newline rest plain breaks more _ ih =>
    have hmore : ¬ ending <+: line ++ (newline ++ (rest ++ (ending ++ following))) :=
      fun hends => by
      have hlong : ending <+: (line ++ (newline ++ (rest ++ ending))) ++ following := by
        simpa using hends
      exact more ((List.isPrefix_append_of_length (by simp only [List.length_append]; omega)).mp
        hlong)
    have hbreaks := lineBreak?_following filled breaks following
    rw [List.append_assoc, List.append_assoc,
      lengthThroughLine?_line plain hbreaks fun _ => hmore, ih, Option.map_some]
    simp only [List.length_append, Nat.add_assoc]

/-- A text in which lines end with `ending`, seen from inside a line: the end of this line, and
the lines behind it. -/
structure RestOfLine (ending text line newline content back : List Char) : Prop where
  text : text = line ++ (newline ++ (content ++ (ending ++ back)))
  plain : ∀ c ∈ line, Text.isLineBreak c = false
  breaks : Text.lineBreak? (newline ++ (content ++ ending)) = some newline.length
  lines : LinesBefore ending content

/-- At the start of a line either the ending stands there, or the line is the first one. -/
theorem exists_linesBefore {text : List Char}
    (h : ending <+: text ∨ ∃ line newline content back,
      RestOfLine ending text line newline content back) :
    ∃ content back, text = content ++ (ending ++ back) ∧ LinesBefore ending content := by
  by_cases hends : ending <+: text
  · obtain ⟨back, rfl⟩ := hends
    exact ⟨[], back, rfl, .nil⟩
  · obtain ⟨line, newline, content, back, rfl, hplain, hbreaks, hlines⟩ := h.resolve_left hends
    refine ⟨line ++ (newline ++ content), back, by simp only [List.append_assoc], ?_⟩
    refine .line hplain hbreaks (fun h => hends (h.trans ⟨back, ?_⟩)) hlines
    simp only [List.append_assoc]

/-- **Where the scanner finds an end**, lines stand in front of it. -/
theorem restOfLine_of_lengthThroughLine? (filled : ending ≠ []) {atLineStart : Bool}
    {text : List Char} {length : Nat}
    (h : lengthThroughLine? ending atLineStart text = some length) :
    (atLineStart = true ∧ ending <+: text) ∨ ∃ line newline content back,
      RestOfLine ending text line newline content back := by
  induction atLineStart, text using lengthThroughLine?.induct ending generalizing length with
  | case1 => simp [Scan.lengthThroughLine?] at h
  | case2 atLineStart c rest ends =>
    obtain ⟨hstart, hends⟩ := Bool.and_eq_true_iff.mp ends
    exact .inl ⟨hstart, startsWith_iff.mp hends⟩
  | case3 atLineStart c rest more width hbreak ih =>
    rw [Scan.lengthThroughLine?, if_neg more] at h
    simp only [hbreak] at h
    obtain ⟨length, hrest, -⟩ := Option.map_eq_some_iff.mp h
    obtain ⟨content, back, hdrop, hlines⟩ := exists_linesBefore ((ih hrest).imp_left And.right)
    rw [← @List.drop_succ_cons _ c, Nat.sub_add_cancel (lineBreak?_pos hbreak)] at hdrop
    obtain ⟨newline, htext, hbreaks⟩ := exists_newline filled hbreak hdrop
    exact .inr ⟨[], newline, content, back, htext, List.forall_mem_nil _, hbreaks, hlines⟩
  | case4 atLineStart c rest more hbreak ih =>
    rw [Scan.lengthThroughLine?, if_neg more] at h
    simp only [hbreak] at h
    obtain ⟨length, hrest, -⟩ := Option.map_eq_some_iff.mp h
    obtain ⟨hstart, -⟩ | ⟨line, newline, content, back, rfl, hplain, hbreaks, hlines⟩ := ih hrest
    · cases hstart
    have hc : Text.isLineBreak c = false := lineBreak?_eq_none_iff.mp hbreak
    exact .inr ⟨c :: line, newline, content, back, rfl, List.forall_mem_cons.mpr ⟨hc, hplain⟩,
      hbreaks, hlines⟩

end Lines

section Names
variable {name : List Char}

theorem isNameCharacter_eq (c : Char) : isNameCharacter c = Unicode.isIdentifierContinue c := by
  rw [isNameCharacter, Bool.or_eq_right_iff_imp, beq_iff_eq]
  rintro rfl
  rfl

/-- A character that breaks a line is in no name. -/
theorem isNameCharacter_of_isLineBreak {c : Char} (h : Text.isLineBreak c = true) :
    isNameCharacter c = false := by
  simp only [Text.isLineBreak, Bool.or_eq_true, beq_iff_eq] at h
  have white : ∀ c, ¬ c.toNat < 128 → Unicode.isPatternWhiteSpace c = true →
      isNameCharacter c = false := by
    intro c hwide hwhite
    simp only [isNameCharacter_eq, Unicode.isIdentifierContinue, Unicode.isIdentifierStart,
      if_neg hwide, hwhite, Bool.not_true, Bool.and_false, Bool.false_and, Bool.or_false]
  rcases h with ((rfl | rfl) | rfl) | rfl
  · rfl
  · rfl
  · exact white _ (by decide) (by decide)
  · exact white _ (by decide) (by decide)

theorem isNameCharacter_of_isIdentifier (named : Unicode.isIdentifier name = true) :
    ∀ c ∈ name, isNameCharacter c = true := by
  cases name with
  | nil => exact fun _ hmem => (nomatch hmem)
  | cons first rest =>
    obtain ⟨hfirst, hrest⟩ := Bool.and_eq_true_iff.mp named
    refine List.forall_mem_cons.mpr ⟨?_, fun c hmem => ?_⟩
    · rcases Bool.or_eq_true_iff.mp hfirst with h | h
      · rw [isNameCharacter, h, Bool.true_or]
      · rw [isNameCharacter_eq, Unicode.isIdentifierContinue_of_isIdentifierStart h]
    · rw [isNameCharacter_eq, List.all_eq_true.mp hrest c hmem]

theorem filled_of_isIdentifier (named : Unicode.isIdentifier name = true) {closing : List Char} :
    name ++ closing ≠ [] := by
  cases name with
  | nil => cases named
  | cons first rest => exact List.cons_ne_nil _ _

/-- The characters of a name up to the first other one are an identifier. -/
theorem isIdentifier_takeWhile {c : Char}
    (begins : c = '_' ∨ Unicode.isIdentifierStart c = true) (rest : List Char) :
    Unicode.isIdentifier ((c :: rest).takeWhile isNameCharacter) = true := by
  have hc : isNameCharacter c = true := by
    rcases begins with rfl | h
    · rfl
    · rw [isNameCharacter_eq, Unicode.isIdentifierContinue_of_isIdentifierStart h]
  have hfirst : (c == '_' || Unicode.isIdentifierStart c) = true := by
    rwa [Bool.or_eq_true, beq_iff_eq]
  rw [List.takeWhile_cons, if_pos hc, Unicode.isIdentifier, hfirst, Bool.true_and]
  refine List.all_eq_true.mpr fun c' hmem => ?_
  rw [← isNameCharacter_eq, List.mem_takeWhile_imp hmem]

/-- A name ends where its line does. -/
theorem takeWhile_isNameCharacter (named : ∀ c ∈ name, isNameCharacter c = true)
    {rest : List Char} {length : Nat} (breaks : Text.lineBreak? rest = some length) :
    (name ++ rest).takeWhile isNameCharacter = name := by
  obtain ⟨c, rest, rfl⟩ : ∃ c tail, rest = c :: tail := by
    cases rest with
    | nil => cases breaks
    | cons c tail => exact ⟨c, tail, rfl⟩
  have hbreak : Text.isLineBreak c = true := by
    rw [← Bool.not_eq_false, ← lineBreak?_eq_none_iff, breaks]
    exact Option.some_ne_none _
  rw [List.takeWhile_append_of_pos named, List.takeWhile_cons,
    isNameCharacter_of_isLineBreak hbreak]
  simp

/-- **The scanner of a string of lines** finds its end. -/
theorem linesLength?_of_lines {closing newline content : List Char}
    (named : Unicode.isIdentifier name = true)
    (breaks : Text.lineBreak? (newline ++ (content ++ (name ++ closing))) = some newline.length)
    (lines : LinesBefore (name ++ closing) content) (following : List Char) :
    linesLength? closing (name ++ (newline ++ (content ++ ((name ++ closing) ++ following)))) =
      some (name ++ (newline ++ (content ++ (name ++ closing)))).length := by
  have hfilled : name ++ closing ≠ [] := filled_of_isIdentifier named
  have hbreaks := lineBreak?_following hfilled breaks following
  have hnamed := isNameCharacter_of_isIdentifier named
  simp only [linesLength?, takeWhile_isNameCharacter hnamed hbreaks,
    List.drop_left, hbreaks, Option.bind_eq_bind, Option.bind_some,
    lines.lengthThroughLine? hfilled following]
  refine congrArg some ?_
  simp only [List.length_append]
  omega

/-- **Where the scanner of a string of lines finds an end**, there is such a string. -/
theorem exists_body_of_linesLength? {closing : List Char} {c : Char} {rest : List Char}
    {length : Nat} (begins : c = '_' ∨ Unicode.isIdentifierStart c = true)
    (h : linesLength? closing (c :: rest) = some length) :
    ∃ body back, c :: rest = body ++ back ∧ DelimitedBody closing body := by
  simp only [linesLength?, Option.bind_eq_bind, Option.bind_eq_some_iff] at h
  obtain ⟨width, hbreak, inner, hinner, -⟩ := h
  obtain ⟨name, hname⟩ : ∃ name, name = (c :: rest).takeWhile isNameCharacter := ⟨_, rfl⟩
  rw [← hname] at hbreak hinner
  have hnamed := isIdentifier_takeWhile begins rest
  rw [← hname] at hnamed
  obtain ⟨tail, htail⟩ : name <+: c :: rest := hname ▸ List.takeWhile_prefix _
  rw [← htail, List.drop_left] at hbreak hinner
  have hlines := restOfLine_of_lengthThroughLine? (filled_of_isIdentifier hnamed) hinner
  obtain ⟨content, back, hdrop, hcontent⟩ := exists_linesBefore (hlines.imp_left And.right)
  obtain ⟨newline, rfl, hbreaks⟩ := exists_newline (filled_of_isIdentifier hnamed) hbreak hdrop
  refine ⟨_, back, ?_, .lines hnamed hbreaks hcontent⟩
  rw [← htail]
  simp only [List.append_assoc]

end Names

/-! ### Delimited strings -/

theorem closingBracket?_eq_none {c : Char}
    (begins : c = '_' ∨ Unicode.isIdentifierStart c = true) : closingBracket? c = none := by
  cases h : closingBracket? c with
  | none => rfl
  | some partner =>
    have hbrackets : c ≠ '_' ∧ Unicode.isIdentifierStart c = false := by
      unfold closingBracket? at h
      split at h <;> first | decide | cases h
    rcases begins with rfl | hletter
    · exact absurd rfl hbrackets.1
    · exact absurd hletter (Bool.eq_false_iff.mp hbrackets.2)

theorem ne_of_closingBracket? {c partner : Char} (h : closingBracket? c = some partner) :
    c ≠ partner := by
  unfold closingBracket? at h
  split at h
  all_goals first | (obtain rfl := Option.some.inj h; decide) | cases h

/-- **The scanner finds the end of a delimited string**, whatever follows. -/
theorem DelimitedBody.delimitedLength? {closing body : List Char} (h : DelimitedBody closing body)
    (following : List Char) :
    delimitedLength? closing (body ++ following) = some body.length := by
  cases h with
  | @bracketed bracket partner content pair inside =>
    rw [List.cons_append, List.append_assoc, List.cons_append, Scan.delimitedLength?]
    simp only [pair, inside.bracketedLength? (ne_of_closingBracket? pair), Option.map_some,
      List.length_cons, List.length_append, Nat.add_assoc]
  | @selfClosing delimiter content noBracket noUnderscore noLetter first =>
    have hends := first.lengthThrough? (List.cons_ne_nil _ _) following
    have hno : ¬ (delimiter = '_' ∨ Unicode.isIdentifierStart delimiter = true) := by
      rw [noLetter]
      exact fun h => h.elim noUnderscore Bool.false_ne_true
    rw [List.cons_append, List.append_assoc, Scan.delimitedLength?]
    simp only [noBracket, if_neg hno, hends, Option.map_some, List.length_cons, List.length_append]
  | @lines name newline content named breaks lines =>
    have hlines := linesLength?_of_lines named breaks lines following
    obtain ⟨first, rest, rfl⟩ : ∃ first rest, name = first :: rest := by
      cases name with
      | nil => cases named
      | cons first rest => exact ⟨first, rest, rfl⟩
    have hbegins : first = '_' ∨ Unicode.isIdentifierStart first = true := by
      have hfirst := (Bool.and_eq_true_iff.mp named).1
      rwa [Bool.or_eq_true, beq_iff_eq] at hfirst
    simp only [List.cons_append, List.append_assoc] at hlines ⊢
    rw [Scan.delimitedLength?]
    simp only [closingBracket?_eq_none hbegins, if_pos hbegins, hlines]

/-- **Where the scanner finds an end**, the text begins with a delimited string. -/
theorem exists_body_of_delimitedLength? {closing text : List Char} {length : Nat}
    (h : delimitedLength? closing text = some length) :
    ∃ body back, text = body ++ back ∧ DelimitedBody closing body := by
  cases text with
  | nil => cases h
  | cons c rest =>
    rw [Scan.delimitedLength?] at h
    split at h
    · rename_i partner hpair
      obtain ⟨length, hlength, -⟩ := Option.map_eq_some_iff.mp h
      obtain ⟨content, back, rfl, hcontent⟩ := exists_pending_of_bracketedLength? hlength
      refine ⟨_, back, ?_, .bracketed hpair hcontent⟩
      simp only [List.cons_append, List.append_assoc]
    · rename_i hbracket
      split at h
      · rename_i hbegins
        exact exists_body_of_linesLength? hbegins h
      · rename_i hbegins
        obtain ⟨hunderscore, hletter⟩ := not_or.mp hbegins
        obtain ⟨length, hlength, -⟩ := Option.map_eq_some_iff.mp h
        obtain ⟨content, back, rfl, hfirst⟩ := exists_firstAtEnd_of_lengthThrough? hlength
        have hno := Bool.eq_false_iff.mpr hletter
        refine ⟨_, back, ?_, .selfClosing hbracket hunderscore hno hfirst⟩
        simp only [List.cons_append, List.append_assoc]

end Scan

namespace Matcher

open Scan

/-- **The scan of a delimited string** takes exactly the string, whatever follows, and between two
brackets every balanced content is allowed.  Where the text begins with no delimited string, the
scan takes the whole text and misses an end.  What a scan takes ends between two characters. -/
theorem scan?_delimited {opening : String} (opens : opening ≠ "") (closing : String) :
    let matcher := Matcher.delimited opening closing
    (∀ bracket partner content, closingBracket? bracket = some partner →
      Balanced bracket partner content →
        DelimitedBody closing.toList (bracket :: (content ++ partner :: closing.toList))) ∧
    (∀ body following, DelimitedBody closing.toList body →
      matcher.scan? (opening.toList ++ (body ++ following)) =
        some ⟨(opening.toList ++ body).length, none⟩) ∧
    (∀ text, (∀ body following, text = body ++ following → ¬ DelimitedBody closing.toList body) →
      matcher.scan? (opening.toList ++ text) =
        some ⟨(opening.toList ++ text).length, some ⟨.delimitedString, opening, closing⟩⟩) ∧
    (∀ text scan, matcher.scan? text = some scan → scan.length ≤ text.length ∧
      Text.isBoundary text (Text.byteLength (text.take scan.length)) = true) := by
  intro matcher
  refine ⟨fun bracket partner content pair balanced => .bracketed pair balanced.bracketContent,
    fun body following hbody => ?_, fun text hnone => ?_, fun text scan hscan => ?_⟩
  · rw [scan?, ofConstruct?_of_some opens (hbody.delimitedLength? following), List.length_append]
  · have hlength : delimitedLength? closing.toList text = none := by
      cases hfound : delimitedLength? closing.toList text with
      | none => rfl
      | some length =>
        obtain ⟨body, back, htext, hbody⟩ := exists_body_of_delimitedLength? hfound
        exact absurd hbody (hnone body back htext)
    rw [scan?, ofConstruct?_of_none opens hlength]
  · have hcut := Text.isBoundary_append (text.take scan.length) (text.drop scan.length)
    rw [List.take_append_drop] at hcut
    exact ⟨(takes_scan? text matcher hscan).le_length, hcut⟩

/-- A string of one line that is named `E`, whose closing delimiter also stands in front of the
end, and a bracket that nothing closes. -/
theorem scan?_delimited_quote :
    "q\"" ≠ "" ∧
      (Matcher.delimited "q\"" "\"").scan?
          ['q', '"', 'E', '\r', '\n', 'é', 'E', '"', '\u2028', 'E', '"', 'E', '"'] =
        some ⟨11, none⟩ ∧
      (Matcher.delimited "q\"" "\"").scan? ['q', '"', '('] =
        some ⟨3, some ⟨.delimitedString, "q\"", "\""⟩⟩ := by
  have hopens : "q\"" ≠ "" := by decide
  refine ⟨hopens, ?_, ?_⟩
  · have hline : LinesBefore ['E', '"'] ['é', 'E', '"', '\u2028'] :=
      @LinesBefore.line _ ['é', 'E', '"'] ['\u2028'] [] (by simp [Text.isLineBreak]) (by decide)
        (by decide) .nil
    have hbody : DelimitedBody "\"".toList
        ['E', '\r', '\n', 'é', 'E', '"', '\u2028', 'E', '"'] :=
      @DelimitedBody.lines _ ['E'] ['\r', '\n'] _ (by decide) (by decide) hline
    exact (scan?_delimited hopens "\"").2.1 _ ['E', '"'] hbody
  · refine (scan?_delimited hopens "\"").2.2.1 ['('] fun body following heq hbody => ?_
    cases hbody with
    | bracketed pair inside =>
      obtain ⟨-, hrest⟩ := List.cons.inj heq
      simp at hrest
    | selfClosing noBracket =>
      obtain ⟨rfl, -⟩ := List.cons.inj heq
      cases noBracket
    | @lines name newline content named =>
      cases name with
      | nil => cases named
      | cons first rest =>
        obtain ⟨rfl, -⟩ := List.cons.inj heq
        exact absurd named (by simp [Unicode.isIdentifier, Unicode.isIdentifierStart])

end Matcher

end Syntagm
