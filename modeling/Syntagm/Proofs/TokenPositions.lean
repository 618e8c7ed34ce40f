import Syntagm.Proofs.Lowering
import Syntagm.Proofs.Positions

/-!
# Where tokens start

Three ways lead to the line and column of a token.  The lexer reads the text of each token from the
position that it has reached; lexing that starts in the middle reads all the text in front; and a
line index can be asked.

The ways differ if a token ends between a carriage return and a line feed.  The lexer then has two
line breaks where the text has one, and all tokens behind are a line too low, one for each pair that
is cut so (`CompiledGrammar.placed_of_mem`).  The token that starts with the line feed is also not
where the index has it.  For every other token the three ways agree
(`CompiledGrammar.nextToken?_of_mem_tokenize`).
-/

namespace Syntagm

namespace CompiledGrammar

open Text

variable {compiled : CompiledGrammar}

/-- Tokens start at or behind the place where the text starts. -/
theorem le_start (offset : Nat) (position : Position) (text : List Char) :
    ∀ token ∈ compiled.tokensFrom offset position text, offset ≤ token.range.start := by
  intro token hmem
  obtain ⟨front, c, rest, hread⟩ := compiled.readAt_of_mem offset position text token hmem
  rw [hread.range]
  exact Nat.le_add_right _ _

/-- **Where a token has been read**: at the character `c` behind `front`, at the position of the
text in front, but `lines` further down.  This is no further than `above` if none of the tokens in
front of it begins inside a pair. -/
structure Placed (compiled : CompiledGrammar) (text : List Char) (above : Nat) (tokens : List Token)
    (token : Token) (front : List Char) (c : Char) (rest : List Char) (lines : Nat) : Prop where
  whole : text = front ++ c :: rest
  read : token =
    (compiled.readToken (byteLength front) ((Position.origin.advance front).down lines) c rest).1
  lines_eq_zero : lines = 0 ↔ above = 0 ∧
    ∀ other ∈ tokens, other.range.start < token.range.start → ¬ InsidePair text other.range.start

/-- **Each token has been read where it stands**, at a position that is too low by one line for each
pair that is cut in front of it. -/
theorem placed_of_mem (offset : Nat) (position : Position) (text : List Char) :
    ∀ done above, offset = byteLength done → position = (Position.origin.advance done).down above →
      ∀ token ∈ compiled.tokensFrom offset position text, ∃ front c rest lines,
        compiled.Placed (done ++ text) above (compiled.tokensFrom offset position text) token
          front c rest lines := by
  induction offset, position, text using tokensFrom.induct compiled with
  | case1 offset position =>
    intro done above _ _
    rw [tokensFrom]
    exact List.forall_mem_nil _
  | case2 offset position c rest first part others _ hread ih =>
    rintro done above rfl rfl
    have hreads := reads_readToken hread
    have hfirst : first = (compiled.readToken (byteLength done)
        ((Position.origin.advance done).down above) c rest).1 := by rw [hread]
    have hstart : first.range.start = byteLength done := by rw [hreads.range]; rfl
    have hstop : first.range.stop = byteLength (done ++ part) := by
      rw [hreads.range, byteLength_append]
      rfl
    have hsize : byteLength done < byteLength (done ++ part) := by
      have hlt := compiled.start_lt_stop _ _ (c :: rest) first (by
        rw [tokensFrom, hread]
        exact List.mem_cons_self)
      rwa [hstart, hstop] at hlt
    have hbehind := compiled.le_start first.range.stop
      (((Position.origin.advance done).down above).advance part) others
    rw [tokensFrom, hread]
    refine List.forall_mem_cons.mpr ⟨⟨done, c, rest, above, rfl, hfirst, ?_⟩, fun token hmem => ?_⟩
    -- nothing is in front of the first token
    · refine ⟨fun h => ⟨h, fun other hmem hfront => ?_⟩, And.left⟩
      rcases List.mem_cons.mp hmem with rfl | hmem
      · exact absurd hfront (Nat.lt_irrefl _)
      · have := hbehind other hmem
        omega
    · have hcut : InsidePair (done ++ (c :: rest)) (byteLength done) ↔ CutsPair done part := by
        cases part with
        | nil => rw [List.append_nil] at hsize; exact absurd hsize (Nat.lt_irrefl _)
        | cons c' tail =>
          obtain ⟨rfl, -⟩ := List.cons.inj hreads.text
          rw [insidePair_iff, cutsPair_cons, cutsPair_cons]
      obtain ⟨lines, hlines, hposition⟩ : ∃ lines,
          (lines = 0 ↔ above = 0 ∧ ¬ CutsPair done part) ∧
            ((Position.origin.advance done).down above).advance part =
              (Position.origin.advance (done ++ part)).down lines := by
        rw [Position.advance_down]
        by_cases hpair : CutsPair done part
        · rw [Position.advance_cut hpair, Position.down_down]
          exact ⟨1 + above, by simp [hpair], rfl⟩
        · rw [Position.advance_append hpair]
          exact ⟨above, (and_iff_left hpair).symm, rfl⟩
      obtain ⟨front, c', rest', lines', hwhole, hread', hzero⟩ :=
        ih (done ++ part) lines hstop hposition token hmem
      rw [List.append_assoc, ← hreads.text] at hwhole
      refine ⟨front, c', rest', lines', hwhole, hread', ?_⟩
      have hle := hbehind token hmem
      rw [List.append_assoc, ← hreads.text] at hzero
      rw [hzero, hlines, ← hcut, and_assoc, List.forall_mem_cons, hstart]
      exact and_congr_right fun _ => and_congr_left fun _ =>
        ⟨fun h _ => h, fun h => h (by omega)⟩

namespace Placed

variable {text : List Char} {tokens : List Token} {token : Token} {front : List Char} {c : Char}
  {rest : List Char} {lines : Nat}

theorem start_range (h : compiled.Placed text 0 tokens token front c rest lines) :
    token.range.start = byteLength front := by
  rw [h.read]
  rfl

theorem start (h : compiled.Placed text 0 tokens token front c rest lines) :
    token.start = (Position.origin.advance front).down lines := by
  rw [h.read]
  rfl

/-- **Lexing from a token on** finds this token, but for its position. -/
theorem nextToken? (h : compiled.Placed text 0 tokens token front c rest lines) :
    compiled.nextToken? text token.range.start =
      some { token with start := Position.origin.advance front } := by
  rw [h.start_range, h.whole, CompiledGrammar.nextToken?, splitBytes?_append, h.read]
  rfl

/-- The position of a token is that of the text in front if no pair has been cut. -/
theorem start_eq_iff (h : compiled.Placed text 0 tokens token front c rest lines) :
    token.start = Position.origin.advance front ↔ lines = 0 := by
  rw [h.start, Position.down_eq_self_iff]

/-- The index does not have a token that starts inside a pair where the lexer has it. -/
theorem start_ne_position (h : compiled.Placed text 0 tokens token front c rest lines)
    (cut : CutsPair front (c :: rest)) :
    token.start ≠ (LineIndex.ofText text).position token.range.start := by
  obtain ⟨⟨head, hfront⟩, tail, hrest⟩ := cut
  have hoffset : byteLength front = byteLength head + 1 := by
    rw [hfront, byteLength_append]
    rfl
  have htext : text = head ++ '\r' :: '\n' :: tail := by
    rw [h.whole, hfront, hrest, List.append_assoc]
    rfl
  rw [h.start, h.start_range, hoffset, htext, LineIndex.position_insidePair, hfront,
    Position.advance_return]
  intro heq
  have hline := congrArg Position.line heq
  simp only [Position.down, Position.nextLine] at hline
  omega

end Placed

/-- **Lexing from the middle and the line index** agree with lexing all of a text as long as no
token starts inside a pair.  Kind, range and fault of a token are always found again.  Its position
is found again exactly if no token in front of it starts inside a pair.  The index has it at this
position exactly if neither the token itself nor one in front of it does. -/
theorem nextToken?_of_mem_tokenize {text : List Char} {token : Token}
    (h : token ∈ (compiled.tokenize text).list) :
    (∃ start, compiled.nextToken? text token.range.start = some { token with start := start }) ∧
    (compiled.nextToken? text token.range.start = some token ↔
      ∀ other ∈ (compiled.tokenize text).list, other.range.start < token.range.start →
        ¬ InsidePair text other.range.start) ∧
    (token.start = (LineIndex.ofText text).position token.range.start ↔
      ∀ other ∈ (compiled.tokenize text).list, other.range.start ≤ token.range.start →
        ¬ InsidePair text other.range.start) := by
  obtain ⟨front, c, rest, lines, hplaced⟩ : ∃ front c rest lines,
      compiled.Placed text 0 (compiled.tokenize text).list token front c rest lines :=
    compiled.placed_of_mem 0 .origin text [] 0 rfl rfl token h
  have hlines : lines = 0 ↔ ∀ other ∈ (compiled.tokenize text).list,
      other.range.start < token.range.start → ¬ InsidePair text other.range.start :=
    hplaced.lines_eq_zero.trans (and_iff_right rfl)
  have hfound := hplaced.nextToken?
  refine ⟨⟨_, hfound⟩, ?_, ?_⟩
  · rw [hfound, ← hlines, ← hplaced.start_eq_iff, Option.some.injEq]
    exact ⟨fun heq => (congrArg Token.start heq).symm, fun heq => by rw [← heq]⟩
  · have hinside : InsidePair text token.range.start ↔ CutsPair front (c :: rest) := by
      rw [hplaced.start_range, hplaced.whole]
      exact insidePair_iff
    by_cases hcut : CutsPair front (c :: rest)
    · exact iff_of_false (hplaced.start_ne_position hcut) fun hall =>
        hall token h (Nat.le_refl _) (hinside.mpr hcut)
    · have hposition : (LineIndex.ofText text).position token.range.start =
          Position.origin.advance front := by
        rw [hplaced.start_range, hplaced.whole]
        exact LineIndex.position_byteLength hcut
      rw [hposition, hplaced.start_eq_iff, hlines]
      refine ⟨fun hall other hmem hle => ?_, fun hall other hmem hlt => hall other hmem hlt.le⟩
      rcases Nat.lt_or_eq_of_le hle with hlt | heq
      · exact hall other hmem hlt
      · rw [heq, hinside]
        exact hcut

end CompiledGrammar

/-! ### A pair in two tokens -/

/-- A grammar with line ends between its words, of which each character is a token. -/
def Grammar.blanks : Grammar :=
  { Grammar.empty "blanks" with
    rules := [
      ("s", .repetition 1 (.literal "x")),
      ("blank", .token (.choice [.literal "\r", .literal "\n"]))]
    start := some "s"
    extras := ["blank"] }

/-- What it is compiled to. -/
def CompiledGrammar.blanks : CompiledGrammar := Grammar.blanks.compile.toOption.getD default

theorem Grammar.compile_blanks : Grammar.blanks.compile = .ok CompiledGrammar.blanks :=
  Grammar.compile_eq_getD (by with_unfolding_all decide)

namespace CompiledGrammar

open Text

/-- The tokens of a text with a pair. -/
theorem tokenize_blanks : (blanks.tokenize ['x', '\r', '\n', 'x']).list =
    [⟨⟨6⟩, ⟨0, 1⟩, ⟨0, 0⟩, false, none⟩, ⟨⟨5⟩, ⟨1, 2⟩, ⟨0, 1⟩, true, none⟩,
      ⟨⟨5⟩, ⟨2, 3⟩, ⟨1, 0⟩, true, none⟩, ⟨⟨6⟩, ⟨3, 4⟩, ⟨2, 0⟩, false, none⟩] := by
  with_unfolding_all decide

/-- The carriage return of the pair is found again, and is where the index has it. -/
theorem nextToken?_blanks :
    ∃ token ∈ (blanks.tokenize ['x', '\r', '\n', 'x']).list, token.range.start = 1 ∧
      blanks.nextToken? ['x', '\r', '\n', 'x'] token.range.start = some token ∧
      token.start = (LineIndex.ofText ['x', '\r', '\n', 'x']).position token.range.start := by
  have hfront : ¬ InsidePair ['x', '\r', '\n', 'x'] 0 := fun h => by
    obtain ⟨⟨head, hhead⟩, -⟩ := (@insidePair_iff [] ['x', '\r', '\n', 'x']).mp h
    simp at hhead
  have hreturn : ¬ InsidePair ['x', '\r', '\n', 'x'] 1 := fun h =>
    absurd (cutsPair_singleton.mp ((@insidePair_iff ['x'] ['\r', '\n', 'x']).mp h)).1 (by decide)
  have huncut : ∀ other ∈ (blanks.tokenize ['x', '\r', '\n', 'x']).list,
      other.range.start ≤ 1 → ¬ InsidePair ['x', '\r', '\n', 'x'] other.range.start := by
    rw [tokenize_blanks]
    simp only [List.forall_mem_cons]
    exact ⟨fun _ => hfront, fun _ => hreturn, nofun, nofun, List.forall_mem_nil _⟩
  have hmem : (⟨⟨5⟩, ⟨1, 2⟩, ⟨0, 1⟩, true, none⟩ : Token) ∈
      (blanks.tokenize ['x', '\r', '\n', 'x']).list := by
    rw [tokenize_blanks]
    exact .tail _ (.head _)
  have hfound := nextToken?_of_mem_tokenize hmem
  exact ⟨_, hmem, rfl, hfound.2.1.mpr fun other h hlt => huncut other h (Nat.le_of_lt hlt),
    hfound.2.2.mpr huncut⟩

/-- **A pair is counted twice.**  Behind the pair, lexing from the middle and the index are on line
1, and lexing all of the text is on line 2. -/
theorem start_ne_position_blanks : Grammar.blanks.compile = .ok blanks ∧
    ∃ token ∈ (blanks.tokenize ['x', '\r', '\n', 'x']).list, token.start = ⟨2, 0⟩ ∧
      (blanks.nextToken? ['x', '\r', '\n', 'x'] token.range.start).map (·.start) = some ⟨1, 0⟩ ∧
      (LineIndex.ofText ['x', '\r', '\n', 'x']).position token.range.start = ⟨1, 0⟩ := by
  rw [tokenize_blanks]
  exact ⟨Grammar.compile_blanks, _, .tail _ (.tail _ (.tail _ (.head _))), rfl,
    by with_unfolding_all decide, by decide⟩

end CompiledGrammar

end Syntagm
