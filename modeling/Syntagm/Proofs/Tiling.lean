import Syntagm.Proofs.Lexicon
import Syntagm.Proofs.Scanning

/-!
# Tokens tile their text

The tokens of a text follow each other from its start to its end, and their texts put together
are the text (`Tokens.Tiles`).  This is what `Tokens.covers` checks, so it also holds of tokens
that were made for another text and are accepted for this one.

The kind of a token of a text is that of a terminal, or one of the two reserved kinds that
tokens can have (`CompiledGrammar.kind_lexeme`).
-/

namespace Syntagm

/-! ### Cutting texts -/

namespace Text

theorem splitBytes?_append (front back : List Char) :
    splitBytes? (front ++ back) (byteLength front) = some (front, back) := by
  induction front with
  | nil => cases back <;> rfl
  | cons c front ih =>
    have hpos := Char.utf8Size_pos c
    rw [List.cons_append, byteLength_cons]
    obtain ⟨offset, hoffset⟩ : ∃ offset, c.utf8Size + byteLength front = offset + 1 :=
      ⟨c.utf8Size + byteLength front - 1, by omega⟩
    rw [hoffset, splitBytes?, if_pos (by omega), ← hoffset, Nat.add_sub_cancel_left, ih]
    · rfl
    · exact nofun

theorem isBoundary_append (front back : List Char) :
    isBoundary (front ++ back) (byteLength front) = true := by
  rw [isBoundary, splitBytes?_append]
  rfl

/-- What a text is cut into is the text, and is cut at the offset. -/
theorem of_splitBytes? {text front back : List Char} {offset : Nat}
    (h : splitBytes? text offset = some (front, back)) :
    text = front ++ back ∧ byteLength front = offset := by
  induction text, offset using splitBytes?.induct generalizing front with
  | case1 text =>
    rw [splitBytes?] at h
    obtain ⟨rfl, rfl⟩ := Prod.mk.inj (Option.some.inj h)
    exact ⟨rfl, rfl⟩
  | case2 => cases h
  | case3 c rest offset hpositive hfits ih =>
    rw [splitBytes?, if_pos hfits] at h
    · obtain ⟨⟨front', back'⟩, hrest, heq⟩ := Option.map_eq_some_iff.mp h
      obtain ⟨rfl, rfl⟩ := Prod.mk.inj heq
      obtain ⟨hrest, hlength⟩ := ih hrest
      refine ⟨by rw [hrest, List.cons_append], ?_⟩
      rw [byteLength_cons, hlength]
      omega
    · exact hpositive
  | case4 c rest offset hpositive hinside =>
    rw [splitBytes?, if_neg hinside] at h
    · cases h
    · exact hpositive

/-- The part of a text between two others. -/
theorem slice?_append (front part back : List Char) :
    slice? (front ++ (part ++ back)) (Range.ofLength (byteLength front) (byteLength part)) =
      some part := by
  simp only [slice?, Range.ofLength, splitBytes?_append, Option.bind_eq_bind, Option.bind_some,
    Nat.le_add_right, if_true, Nat.add_sub_cancel_left]
  rfl

theorem eq_nil_of_byteLength {text : List Char} (h : byteLength text = 0) : text = [] := by
  cases text with
  | nil => rfl
  | cons c rest =>
    have hpos := Char.utf8Size_pos c
    rw [byteLength_cons] at h
    omega

/-- **What a part of a text is.** -/
theorem slice?_eq_some {text part : List Char} {range : Range} :
    slice? text range = some part ↔ ∃ front back, text = front ++ (part ++ back) ∧
      range = Range.ofLength (byteLength front) (byteLength part) := by
  constructor
  · intro h
    obtain ⟨⟨front, rest⟩, hfront, h⟩ := Option.bind_eq_some_iff.mp h
    simp only at h
    split at h
    · rename_i hle
      obtain ⟨⟨middle, back⟩, hback, h⟩ := Option.bind_eq_some_iff.mp h
      obtain rfl : middle = part := Option.some.inj h
      obtain ⟨rfl, hstart⟩ := of_splitBytes? hfront
      obtain ⟨rfl, hlength⟩ := of_splitBytes? hback
      refine ⟨front, back, rfl, ?_⟩
      rw [Range.ofLength, hstart, hlength, Nat.add_sub_cancel' hle]
    · cases h
  · rintro ⟨front, back, rfl, rfl⟩
    exact slice?_append front part back

/-- A shorter beginning of a text is a beginning of a longer one. -/
theorem exists_of_append_eq {first second head tail : List Char}
    (h : first ++ second = head ++ tail) (le : byteLength first ≤ byteLength head) :
    ∃ middle, head = first ++ middle ∧ second = middle ++ tail := by
  rcases List.append_eq_append_iff.mp h with ⟨middle, rfl, rfl⟩ | ⟨middle, rfl, rfl⟩
  · exact ⟨middle, rfl, rfl⟩
  -- the two beginnings are the same
  · obtain rfl : middle = [] := eq_nil_of_byteLength (by
      rw [byteLength_append] at le
      omega)
    exact ⟨[], by simp, rfl⟩

end Text

/-! ### Tilings -/

namespace Tokens

/-- **Tokens tile a text** that starts at an offset; `parts` are their texts. -/
inductive Tiles : Nat → List Char → List Token → List (List Char) → Prop where
  | nil {offset} : Tiles offset [] [] []
  | cons {offset token part rest tokens parts}
      (range : token.range = Text.Range.ofLength offset (Text.byteLength part))
      (others : Tiles (offset + Text.byteLength part) rest tokens parts) :
      Tiles offset (part ++ rest) (token :: tokens) (part :: parts)

theorem Tiles.of_tile {offset : Nat} {text : List Char} {tokens : List Token}
    (h : tile offset text tokens = true) : ∃ parts, Tiles offset text tokens parts := by
  induction tokens generalizing offset text with
  | nil =>
    obtain rfl := List.isEmpty_iff.mp h
    exact ⟨[], .nil⟩
  | cons token tokens ih =>
    simp only [tile, Bool.and_eq_true, beq_iff_eq, decide_eq_true_eq] at h
    obtain ⟨⟨hstart, hle⟩, hrest⟩ := h
    split at hrest
    · rename_i part rest hsplit
      obtain ⟨rfl, hlength⟩ := Text.of_splitBytes? hsplit
      obtain ⟨parts, hparts⟩ := ih hrest
      have hstop : token.range.stop = offset + Text.byteLength part := by
        rw [hlength, Text.Range.length]
        omega
      refine ⟨part :: parts, .cons ?_ (hstop ▸ hparts)⟩
      rw [Text.Range.ofLength, ← hstop, ← hstart]
    · cases hrest

namespace Tiles

variable {offset : Nat} {text : List Char} {tokens : List Token} {parts : List (List Char)}

theorem tile (h : Tiles offset text tokens parts) : tile offset text tokens = true := by
  induction h with
  | nil => rfl
  | cons range _ ih =>
    simp only [Tokens.tile, range, Text.Range.ofLength, Text.Range.length, Nat.add_sub_cancel_left,
      Text.splitBytes?_append, ih]
    simp

/-- The texts are what the text is cut into. -/
theorem cut (h : Tiles offset text tokens parts) : cut text tokens = parts := by
  induction h with
  | nil => rfl
  | cons range _ ih =>
    simp only [Tokens.cut, range, Text.Range.ofLength, Text.Range.length, Nat.add_sub_cancel_left,
      Text.splitBytes?_append, ih]

theorem flatten (h : Tiles offset text tokens parts) : parts.flatten = text := by
  induction h with
  | nil => rfl
  | cons _ _ ih => rw [List.flatten_cons, ih]

theorem length_eq (h : Tiles offset text tokens parts) : parts.length = tokens.length := by
  induction h with
  | nil => rfl
  | cons _ _ ih => rw [List.length_cons, List.length_cons, ih]

/-- The text of a token is the part of the whole text in its range. -/
theorem slices (h : Tiles offset text tokens parts) (front : List Char)
    (start : Text.byteLength front = offset) :
    parts.map some = tokens.map fun token => Text.slice? (front ++ text) token.range := by
  induction h generalizing front with
  | nil => rfl
  | @cons offset token part rest tokens parts range _ ih =>
    have hothers := ih (front ++ part) (by rw [Text.byteLength_append, start])
    rw [List.append_assoc] at hothers
    rw [List.map_cons, List.map_cons, hothers, range, ← start, Text.slice?_append]

end Tiles

end Tokens

/-! ### The tokens of a text -/

namespace CompiledGrammar

variable {compiled : CompiledGrammar}

/-- What reading the token that starts with `c` takes from a text. -/
structure Reads (compiled : CompiledGrammar) (offset : Nat) (c : Char) (rest : List Char)
    (token : Token) (part others : List Char) : Prop where
  text : c :: rest = part ++ others
  takes : part = (c :: rest).take (compiled.lexeme c rest).length
  range : token.range = Text.Range.ofLength offset (Text.byteLength part)
  kind : token.kind = (compiled.lexeme c rest).kind
  error : token.error = (compiled.lexeme c rest).error
  isExtra : token.isExtra = compiled.isTrivia token.kind

theorem reads_readToken {offset : Nat} {position : Text.Position} {c : Char}
    {rest : List Char} {token : Token} {part : List Char} {others : Text.NotLonger rest}
    (h : compiled.readToken offset position c rest = (token, part, others)) :
    compiled.Reads offset c rest token part others.1 := by
  obtain ⟨rfl, hpair⟩ := Prod.mk.inj h
  obtain ⟨rfl, rfl⟩ := Prod.mk.inj hpair
  obtain ⟨length, hlength⟩ : ∃ length, (compiled.lexeme c rest).length = length + 1 :=
    Nat.exists_eq_add_one.mpr (compiled.takes_lexeme c rest).positive
  refine ⟨by rw [List.cons_append, List.take_append_drop], ?_, rfl, rfl, rfl, rfl⟩
  rw [hlength, List.take_succ_cons, Nat.add_sub_cancel]

/-- **The tokens of a text tile it.** -/
theorem tiles_tokensFrom (offset : Nat) (position : Text.Position) (text : List Char) :
    ∃ parts, Tokens.Tiles offset text (compiled.tokensFrom offset position text) parts := by
  induction offset, position, text using tokensFrom.induct compiled with
  | case1 offset position =>
    rw [tokensFrom]
    exact ⟨[], .nil⟩
  | case2 offset position c rest token part others _ hread ih =>
    have hreads := reads_readToken hread
    obtain ⟨parts, hparts⟩ := ih
    rw [tokensFrom, hread, hreads.text]
    have hstop : token.range.stop = offset + Text.byteLength part := by rw [hreads.range]; rfl
    exact ⟨part :: parts, .cons hreads.range (hstop ▸ hparts)⟩

/-- Where a token of a text stands: at the character `c`, behind `front`. -/
structure ReadAt (compiled : CompiledGrammar) (offset : Nat) (text : List Char) (token : Token)
    (front : List Char) (c : Char) (rest : List Char) : Prop where
  text : text = front ++ c :: rest
  kind : token.kind = (compiled.lexeme c rest).kind
  error : token.error = (compiled.lexeme c rest).error
  range : token.range = Text.Range.ofLength (offset + Text.byteLength front)
    (Text.byteLength ((c :: rest).take (compiled.lexeme c rest).length))

/-- **Each token of a text is read where it stands.** -/
theorem readAt_of_mem (offset : Nat) (position : Text.Position) (text : List Char) :
    ∀ token ∈ compiled.tokensFrom offset position text,
      ∃ front c rest, compiled.ReadAt offset text token front c rest := by
  induction offset, position, text using tokensFrom.induct compiled with
  | case1 offset position =>
    rw [tokensFrom]
    exact List.forall_mem_nil _
  | case2 offset position c rest token part others _ hread ih =>
    have hreads := reads_readToken hread
    have hstop : token.range.stop = offset + Text.byteLength part := by rw [hreads.range]; rfl
    rw [tokensFrom, hread]
    refine List.forall_mem_cons.mpr ⟨⟨[], c, rest, rfl, hreads.kind, hreads.error, ?_⟩,
      fun other hmem => ?_⟩
    · rw [hreads.range, hreads.takes]
      rfl
    · obtain ⟨front, c', rest', htext, hkind, herror, hrange⟩ := ih other hmem
      refine ⟨part ++ front, c', rest', ?_, hkind, herror, ?_⟩
      · rw [hreads.text, List.append_assoc, ← htext]
      · rw [hrange, hstop, Text.byteLength_append, Nat.add_assoc]

/-- The tokens of a text are not empty. -/
theorem start_lt_stop (offset : Nat)
    (position : Text.Position) (text : List Char) :
    ∀ token ∈ compiled.tokensFrom offset position text, token.range.start < token.range.stop := by
  induction offset, position, text using tokensFrom.induct compiled with
  | case1 offset position =>
    rw [tokensFrom]
    exact List.forall_mem_nil _
  | case2 offset position c rest token part others _ hread ih =>
    rw [tokensFrom, hread]
    refine List.forall_mem_cons.mpr ⟨?_, ih⟩
    obtain ⟨rfl, -⟩ := Prod.mk.inj hread
    have hpositive := Char.utf8Size_pos c
    simp only [Text.Range.ofLength, Text.byteLength_cons]
    omega

theorem covers_tokenize (text : List Char) : (compiled.tokenize text).covers text = true := by
  obtain ⟨parts, hparts⟩ := compiled.tiles_tokensFrom 0 .origin text
  simp [Tokens.covers, tokenize, hparts.tile]

/-! ### The kinds of tokens -/

/-- The kinds that tokens of a text can have. -/
def TokenKind (compiled : CompiledGrammar) (kind : Kind) : Prop :=
  kind = Kind.unknown ∨ kind = Kind.endMarker ∨ compiled.kinds.Owns kind

theorem kind_candidate? (owned : compiled.lexicon.Owned compiled.kinds) {text : List Char}
    {terminal : Terminal} (hmem : terminal ∈ compiled.lexicon.terminals)
    {lexeme : Lexeme} {literal : Bool}
    (found : compiled.candidate? text terminal = some (lexeme, literal)) :
    compiled.kinds.Owns lexeme.kind := by
  unfold candidate? at found
  split at found
  · cases found
  · obtain ⟨scan, -, heq⟩ := Option.map_eq_some_iff.mp found
    simp only at heq
    split at heq <;> obtain ⟨rfl, -⟩ := Prod.mk.inj heq
    · rename_i kind hkeyword
      split at hkeyword
      · exact Lexicon.of_lookup owned.keywords hkeyword
      · cases hkeyword
    · exact owned.terminals terminal hmem

theorem kind_longestMatch? (owned : compiled.lexicon.Owned compiled.kinds) {text : List Char}
    {lexeme : Lexeme} (found : compiled.longestMatch? text = some lexeme) :
    compiled.kinds.Owns lexeme.kind := by
  obtain ⟨terminal, hterminal, literal, hcandidate⟩ := exists_of_longestMatch? found
  exact kind_candidate? owned hterminal hcandidate

theorem kind_lexeme (owned : compiled.lexicon.Owned compiled.kinds) (c : Char)
    (rest : List Char) : compiled.TokenKind (compiled.lexeme c rest).kind := by
  unfold lexeme
  split
  · exact .inr (.inl rfl)
  · split
    · rename_i found
      exact .inr (.inr (kind_longestMatch? owned found))
    · exact .inl rfl

/-- **The kinds of the tokens of a text**, and which of these tokens are trivia. -/
theorem kind_tokensFrom (owned : compiled.lexicon.Owned compiled.kinds) (offset : Nat)
    (position : Text.Position) (text : List Char) :
    ∀ token ∈ compiled.tokensFrom offset position text,
      compiled.TokenKind token.kind ∧ token.isExtra = compiled.isTrivia token.kind := by
  induction offset, position, text using tokensFrom.induct compiled with
  | case1 offset position =>
    rw [tokensFrom]
    exact fun token hmem => (nomatch hmem)
  | case2 offset position c rest token part others _ hread ih =>
    have hreads := reads_readToken hread
    rw [tokensFrom, hread]
    refine List.forall_mem_cons.mpr ⟨⟨?_, hreads.isExtra⟩, ih⟩
    rw [hreads.kind]
    exact kind_lexeme owned c rest

end CompiledGrammar

end Syntagm
