import Mathlib.Data.List.Basic
import Syntagm.Token.Lexer

/-!
# What scanners take

Each matcher has its own way through the text: it counts blocks, looks for a delimiter, skips
what a backslash disarms, or goes from line to line.  None of them goes beyond the end of the
text, and what is not closed is opened where the text starts (`Scan.Takes`).  The same holds of
the token that is read there, so the lengths of tokens are those that the matchers give
(`CompiledGrammar.takes_lexeme`).
-/

namespace Syntagm

namespace Scan

/-! ### Looking for an end -/

theorem startsWith_iff {text start : List Char} : startsWith text start = true ↔ start <+: text :=
  List.isPrefixOf_iff_prefix

theorem startsWith_append (start rest : List Char) : startsWith (start ++ rest) start = true :=
  startsWith_iff.mpr (List.prefix_append _ _)

theorem length_le_of_startsWith {text start : List Char} (h : startsWith text start = true) :
    start.length ≤ text.length :=
  (startsWith_iff.mp h).length_le

section Behind
variable {c : Char} {rest : List Char} {found : Option Nat} {length : Nat}

/-- What is found behind a character, with this character. -/
theorem map_succ_le (h : found.map (· + 1) = some length)
    (fits : ∀ {inner}, found = some inner → inner ≤ rest.length) : length ≤ (c :: rest).length := by
  obtain ⟨inner, hinner, rfl⟩ := Option.map_eq_some_iff.mp h
  exact Nat.succ_le_succ (fits hinner)

/-- What is found behind the start of a text, with this start. -/
theorem map_skip_le {start : Nat} (h : found.map (· + (start - 1) + 1) = some length)
    (starts : start ≤ (c :: rest).length)
    (fits : ∀ {inner}, found = some inner → inner ≤ (rest.drop (start - 1)).length) :
    length ≤ (c :: rest).length := by
  obtain ⟨inner, hinner, rfl⟩ := Option.map_eq_some_iff.mp h
  have hfits := fits hinner
  rw [List.length_drop] at hfits
  rw [List.length_cons] at starts ⊢
  omega

end Behind

theorem nestedLength?_le {opening closing : List Char} {depth : Nat} {text : List Char}
    {length : Nat} (h : nestedLength? opening closing depth text = some length) :
    length ≤ text.length := by
  induction depth, text using nestedLength?.induct opening closing generalizing length with
  | case1 text =>
    rw [nestedLength?] at h
    obtain rfl := Option.some.inj h
    exact Nat.zero_le _
  | case2 => simp [nestedLength?] at h
  | case3 depth c rest closes ih =>
    rw [nestedLength?, if_pos closes] at h
    exact map_skip_le h (length_le_of_startsWith closes) ih
  | case4 depth c rest closes opens ih =>
    rw [nestedLength?, if_neg closes, if_pos opens] at h
    exact map_skip_le h (length_le_of_startsWith opens) ih
  | case5 depth c rest closes opens ih =>
    rw [nestedLength?, if_neg closes, if_neg opens] at h
    exact map_succ_le h ih

theorem quotedLength?_le {closing text : List Char} {length : Nat}
    (h : quotedLength? closing text = some length) : length ≤ text.length := by
  induction text using quotedLength?.induct closing generalizing length with
  | case1 => cases h
  | case2 c rest closes =>
    rw [quotedLength?.eq_def] at h
    simp only [if_pos closes] at h
    obtain rfl := Option.some.inj h
    exact length_le_of_startsWith closes
  | case3 closes =>
    rw [quotedLength?.eq_def] at h
    simp only [if_neg closes, if_pos] at h
    cases h
  | case4 escaped rest closes ih =>
    rw [quotedLength?.eq_def] at h
    simp only [if_neg closes, if_pos] at h
    obtain ⟨inner, hinner, rfl⟩ := Option.map_eq_some_iff.mp h
    exact Nat.succ_le_succ (Nat.succ_le_succ (ih hinner))
  | case5 c rest closes plain ih =>
    rw [quotedLength?.eq_def] at h
    simp only [if_neg closes, if_neg plain] at h
    exact map_succ_le h ih

theorem lengthThrough?_le {ending text : List Char} {length : Nat}
    (h : lengthThrough? ending text = some length) : length ≤ text.length := by
  induction text generalizing length with
  | nil => cases h
  | cons c rest ih =>
    rw [lengthThrough?] at h
    split at h
    · rename_i ends
      obtain rfl := Option.some.inj h
      exact length_le_of_startsWith ends
    · exact map_succ_le h ih

theorem bracketedLength?_le {opening closing : Char} {ending : List Char} {depth : Nat}
    {text : List Char} {length : Nat}
    (h : bracketedLength? opening closing ending depth text = some length) :
    length ≤ text.length := by
  induction depth, text using bracketedLength?.induct opening closing ending
      generalizing length with
  | case1 => simp [bracketedLength?] at h
  | case2 rest ends =>
    rw [bracketedLength?.eq_def] at h
    simp only [if_pos, if_pos ends] at h
    obtain rfl := Option.some.inj h
    exact Nat.succ_le_succ (length_le_of_startsWith ends)
  | case3 rest ends ih =>
    rw [bracketedLength?.eq_def] at h
    simp only [if_pos, if_neg ends] at h
    exact map_succ_le h ih
  | case4 rest depth ih =>
    rw [bracketedLength?.eq_def] at h
    simp only [if_pos] at h
    exact map_succ_le h ih
  | case5 depth rest closes ih =>
    rw [bracketedLength?.eq_def] at h
    simp only [if_neg closes, if_pos] at h
    exact map_succ_le h ih
  | case6 depth c rest closes opens ih =>
    rw [bracketedLength?.eq_def] at h
    simp only [if_neg closes, if_neg opens] at h
    exact map_succ_le h ih

theorem lineBreak?_le {text : List Char} {length : Nat} (h : Text.lineBreak? text = some length) :
    length ≤ text.length := by
  unfold Text.lineBreak? at h
  split at h
  · obtain rfl := Option.some.inj h
    simp
  · split at h
    · obtain rfl := Option.some.inj h
      simp
    · cases h
  · cases h

theorem lengthThroughLine?_le {ending : List Char} {atLineStart : Bool} {text : List Char}
    {length : Nat} (h : lengthThroughLine? ending atLineStart text = some length) :
    length ≤ text.length := by
  induction atLineStart, text using lengthThroughLine?.induct ending generalizing length with
  | case1 => simp [lengthThroughLine?] at h
  | case2 atLineStart c rest ends =>
    rw [lengthThroughLine?, if_pos ends] at h
    obtain rfl := Option.some.inj h
    exact length_le_of_startsWith (Bool.and_eq_true_iff.mp ends).2
  | case3 atLineStart c rest ends lineBreak hbreak ih =>
    rw [lengthThroughLine?, if_neg ends] at h
    simp only [hbreak] at h
    exact map_skip_le h (lineBreak?_le hbreak) ih
  | case4 atLineStart c rest ends hbreak ih =>
    rw [lengthThroughLine?, if_neg ends] at h
    simp only [hbreak] at h
    exact map_succ_le h ih

theorem linesLength?_le {closing text : List Char} {length : Nat}
    (h : linesLength? closing text = some length) : length ≤ text.length := by
  simp only [linesLength?, Option.bind_eq_bind, Option.bind_eq_some_iff] at h
  obtain ⟨lineBreak, hbreak, inner, hinner, heq⟩ := h
  obtain rfl := Option.some.inj heq
  have hname := (List.takeWhile_prefix (p := isNameCharacter) (l := text)).length_le
  have hfits := lineBreak?_le hbreak
  have hlines := lengthThroughLine?_le hinner
  rw [List.length_drop] at hfits hlines
  rw [List.length_drop] at hlines
  omega

theorem delimitedLength?_le {closing text : List Char} {length : Nat}
    (h : delimitedLength? closing text = some length) : length ≤ text.length := by
  unfold delimitedLength? at h
  split at h
  · cases h
  · split at h
    · exact map_succ_le h bracketedLength?_le
    · split at h
      · exact linesLength?_le h
      · exact map_succ_le h lengthThrough?_le

/-! ### Scans -/

/-- **What a scan takes of a text**: something, not more than there is, and if an end is missing,
then what is not closed is opened at the start. -/
structure Takes (text : List Char) (scan : Scan) : Prop where
  positive : 0 < scan.length
  le_length : scan.length ≤ text.length
  opened : ∀ fault, scan.error = some fault → fault.opening.toList <+: text

variable {text : List Char} {scan : Scan}

theorem takes_of_unlessEmpty {found : Option Scan} (h : unlessEmpty found = some scan)
    (fits : found = some scan → scan.length ≤ text.length ∧
      ∀ fault, scan.error = some fault → fault.opening.toList <+: text) : scan.Takes text := by
  obtain ⟨hfound, hpositive⟩ := Option.filter_eq_some_iff.mp h
  obtain ⟨hlength, hopened⟩ := fits hfound
  exact ⟨of_decide_eq_true hpositive, hlength, hopened⟩

theorem takes_of_longer {first second : Option Scan} (h : longer first second = some scan)
    (hfirst : first = some scan → scan.Takes text)
    (hsecond : second = some scan → scan.Takes text) : scan.Takes text := by
  unfold longer at h
  split at h
  · exact hsecond h
  · exact hfirst h
  · split at h
    · exact hsecond h
    · exact hfirst h

/-- A construct takes what its length says, or the whole text. -/
theorem of_ofConstruct? {construct : Construct} {opening closing : String}
    {length? : List Char → Option Nat}
    (fits : ∀ text length, length? text = some length → length ≤ text.length)
    (h : ofConstruct? construct opening closing length? text = some scan) :
    scan.length ≤ text.length ∧
      ∀ fault, scan.error = some fault → fault.opening.toList <+: text := by
  simp only [ofConstruct?] at h
  split at h
  · rename_i hopens
    split at h
    · rename_i length hlength
      obtain rfl := Option.some.inj h
      have hfits := fits _ _ hlength
      have hopening := length_le_of_startsWith hopens
      rw [List.length_drop] at hfits
      refine ⟨?_, fun _ herror => absurd herror.symm (Option.some_ne_none _)⟩
      show opening.toList.length + length ≤ _
      omega
    · obtain rfl := Option.some.inj h
      refine ⟨Nat.le_refl _, fun fault herror => ?_⟩
      obtain rfl := Option.some.inj herror
      exact startsWith_iff.mp hopens
  · cases h

section Opened
variable {construct : Construct} {opening closing : String} {length? : List Char → Option Nat}
  (opens : opening ≠ "")
include opens

theorem length_pos_of_ne_empty : 0 < opening.toList.length :=
  List.length_pos_iff.mpr (mt String.toList_eq_nil_iff.mp opens)

/-- A construct that is opened and has an end. -/
theorem ofConstruct?_of_some {length : Nat} (found : length? text = some length) :
    unlessEmpty (ofConstruct? construct opening closing length? (opening.toList ++ text)) =
      some ⟨opening.toList.length + length, none⟩ := by
  have hpositive := length_pos_of_ne_empty opens
  rw [ofConstruct?, if_pos (startsWith_append _ _), List.drop_left, found]
  exact Option.filter_eq_some_iff.mpr ⟨rfl, decide_eq_true (Nat.add_pos_left hpositive _)⟩

/-- A construct that is opened and has no end. -/
theorem ofConstruct?_of_none (missed : length? text = none) :
    unlessEmpty (ofConstruct? construct opening closing length? (opening.toList ++ text)) =
      some ⟨(opening.toList ++ text).length, some ⟨construct, opening, closing⟩⟩ := by
  have hpositive := length_pos_of_ne_empty opens
  rw [ofConstruct?, if_pos (startsWith_append _ _), List.drop_left, missed]
  refine Option.filter_eq_some_iff.mpr ⟨rfl, decide_eq_true ?_⟩
  rw [List.length_append]
  exact Nat.add_pos_left hpositive _

end Opened

end Scan

theorem Pattern.longest?_le {isWord : Char → Bool} {pattern : Pattern} {text : List Char}
    {length : Nat} (h : pattern.longest? isWord text = some length) : length ≤ text.length := by
  obtain ⟨cursor, -, rfl⟩ := Option.map_eq_some_iff.mp h
  exact cursor.taken_le

namespace Matcher

open Scan

mutual

/-- **What a matcher takes** is inside the text. -/
theorem takes_scan? (text : List Char) (matcher : Matcher) {scan : Scan}
    (h : matcher.scan? text = some scan) : scan.Takes text := by
  cases matcher with
  | literal content =>
    refine takes_of_unlessEmpty h fun hfound => ?_
    split at hfound
    · rename_i hstarts
      obtain rfl := Option.some.inj hfound
      exact ⟨length_le_of_startsWith hstarts, fun _ herror => (nomatch herror)⟩
    · cases hfound
  | pattern inner =>
    refine takes_of_unlessEmpty h fun hfound => ?_
    obtain ⟨length, hlength, rfl⟩ := Option.map_eq_some_iff.mp hfound
    exact ⟨Pattern.longest?_le hlength, fun _ herror => (nomatch herror)⟩
  | nested opening closing =>
    exact takes_of_unlessEmpty h (of_ofConstruct? fun _ _ => nestedLength?_le)
  | delimited opening closing =>
    exact takes_of_unlessEmpty h (of_ofConstruct? fun _ _ => delimitedLength?_le)
  | quoted opening closing =>
    exact takes_of_unlessEmpty h (of_ofConstruct? fun _ _ => quotedLength?_le)
  | any alternatives => exact takes_scanLongest? text alternatives h

theorem takes_scanLongest? (text : List Char) (alternatives : List Matcher) {scan : Scan}
    (h : scanLongest? text alternatives = some scan) : scan.Takes text := by
  cases alternatives with
  | nil => cases h
  | cons first rest =>
    exact takes_of_longer h (takes_scan? text first) (takes_scanLongest? text rest)

end

end Matcher

/-! ### Lexemes -/

namespace CompiledGrammar

variable {compiled : CompiledGrammar} {text : List Char}

/-- The scan behind a candidate. -/
theorem of_candidate? {terminal : Terminal} {lexeme : Lexeme} {literal : Bool}
    (h : compiled.candidate? text terminal = some (lexeme, literal)) :
    terminal.isKeyword = false ∧
      terminal.matcher.scan? text = some ⟨lexeme.length, lexeme.error⟩ := by
  unfold candidate? at h
  split at h
  · cases h
  · rename_i hkeyword
    obtain ⟨scan, hscan, heq⟩ := Option.map_eq_some_iff.mp h
    refine ⟨Bool.eq_false_iff.mpr hkeyword, ?_⟩
    simp only at heq
    split at heq <;> obtain ⟨rfl, -⟩ := Prod.mk.inj heq <;> exact hscan

theorem better_eq (first second : Lexeme × Bool) :
    better first second = first ∨ better first second = second := by
  unfold better
  split
  · exact .inr rfl
  · exact .inl rfl

/-- **The longest match is a candidate.** -/
theorem exists_of_longestMatch? {lexeme : Lexeme} (h : compiled.longestMatch? text = some lexeme) :
    ∃ terminal ∈ compiled.lexicon.terminals, ∃ literal,
      compiled.candidate? text terminal = some (lexeme, literal) := by
  simp only [longestMatch?] at h
  split at h
  · cases h
  · rename_i first rest hcandidates
    obtain rfl := Option.some.inj h
    have hmem : rest.foldl better first ∈
        compiled.lexicon.terminals.filterMap (compiled.candidate? text) := by
      rw [hcandidates]
      -- the best candidate so far is one of the candidates
      refine List.foldlRecOn (motive := (· ∈ first :: rest)) rest better List.mem_cons_self
        fun best hbest candidate hmem => ?_
      rcases better_eq best candidate with heq | heq <;> rw [heq]
      · exact hbest
      · exact List.mem_cons_of_mem _ hmem
    obtain ⟨terminal, hterminal, hcandidate⟩ := List.mem_filterMap.mp hmem
    exact ⟨terminal, hterminal, _, hcandidate⟩

/-- The scan behind a longest match. -/
theorem takes_longestMatch? {lexeme : Lexeme} (h : compiled.longestMatch? text = some lexeme) :
    Scan.Takes text ⟨lexeme.length, lexeme.error⟩ := by
  obtain ⟨terminal, -, literal, hcandidate⟩ := exists_of_longestMatch? h
  exact terminal.matcher.takes_scan? text (of_candidate? hcandidate).2

theorem unknownLength_le (compiled : CompiledGrammar) (text : List Char) :
    compiled.unknownLength text ≤ text.length := by
  induction text with
  | nil => exact Nat.zero_le _
  | cons c rest ih =>
    rw [unknownLength]
    split
    · exact Nat.zero_le _
    · exact Nat.succ_le_succ ih

/-- **What a token takes** is inside the text. -/
theorem takes_lexeme (compiled : CompiledGrammar) (c : Char) (rest : List Char) :
    Scan.Takes (c :: rest) ⟨(compiled.lexeme c rest).length, (compiled.lexeme c rest).error⟩ := by
  unfold lexeme
  split
  · exact ⟨Nat.succ_pos _, Nat.le_refl _, fun _ herror => (nomatch herror)⟩
  · split
    · rename_i found
      exact takes_longestMatch? found
    · exact ⟨Nat.succ_pos _, Nat.succ_le_succ (compiled.unknownLength_le rest),
        fun _ herror => (nomatch herror)⟩

end CompiledGrammar

end Syntagm
