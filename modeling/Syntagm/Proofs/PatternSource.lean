import Syntagm.Proofs.PatternLibrary
import Syntagm.Proofs.PatternReading

/-!
# The reader of patterns as a library

The patterns of tokens are put together by the program itself (`Grammar.patternOf`).  This is one
way to do what is said for any library: the reader of patterns, with the search for longest matches,
is a library (`Pattern.library`), and it keeps to its documentation
(`Pattern.documented_library`).

**Notations.**  No part of a notation begins with an operator, so none changes how the part in front
of it is read, and every bar stands inside a group (`Pattern.ReadsAs`).  What is valid alone is read
inside a group as it is alone, since the reader knows no comments.

**Patterns that were put together.**  The notation of a token is read as a pattern of the same
meaning as the one that was put together, and where the one fails, the other fails for the same
reason (`Grammar.sourceOf_tracks_patternOf`).  So the matcher of a token finds what the library
finds (`Grammar.tokenOf_tracks_matcherOf`).
-/

namespace Syntagm

open Computability

namespace Pattern

/-- The characters that stand for themselves only behind a backslash. -/
def metas : List Char :=
  ['\\', '.', '+', '*', '?', '(', ')', '|', '[', ']', '{', '}', '^', '$', '#', '&', '-', '~']

/-- Whether a character stands for itself only behind a backslash. -/
def isMeta (c : Char) : Bool := metas.contains c

/-- The notation of a text. -/
def escape (text : List Char) : List Char :=
  text.flatMap fun c => if isMeta c then ['\\', c] else [c]

end Pattern

/-! ### Reading items -/

namespace Pattern

/-- The items that a text begins with, what else is said of them, and the text behind them. -/
def itemsOf? (text : List Char) :
    Option (List Pattern × List (List Char) × Settings × List Char) :=
  (readItems .plain text).map fun (items, names, settings, behind) =>
    (items, names, settings, behind.1)

/-- Further items in front of those that were read. -/
def prepended (items : List Pattern) (names : List (List Char))
    (read : List Pattern × List (List Char) × Settings × List Char) :
    List Pattern × List (List Char) × Settings × List Char :=
  (items ++ read.1, names ++ read.2.1, read.2.2)

/-- Whether no operator comes first. -/
def noOperator (text : List Char) : Bool := !text.head?.any isOperator

theorem noOperator_append {source rest : List Char} (h : noOperator source = true)
    (hrest : noOperator rest = true) : noOperator (source ++ rest) = true := by
  cases source with
  | nil => exact hrest
  | cons c source => exact h

/-- **A text is read as items where more follow**: it does not begin with an operator, and what it
is read as comes in front of what is read behind it. -/
structure ReadsAs (source : List Char) (items : List Pattern) (names : List (List Char)) :
    Prop where
  noOperator : noOperator source = true
  itemsOf?_append {rest : List Char} : Pattern.noOperator rest = true →
    itemsOf? (source ++ rest) = (itemsOf? rest).map (prepended items names)

/-- **A text is read as alternatives inside a group.** -/
def Encloses (inner : List Char) (alternatives : List Pattern) (names : List (List Char)) : Prop :=
  ∀ tail, ∃ behind, readAlternatives .plain (inner ++ ')' :: tail) =
    some (alternatives, names, behind) ∧ behind.1 = ')' :: tail

/-- What is well formed alone is read inside a group. -/
theorem encloses_of_ofSource? {source : String} {written : Written}
    (h : ofSource? source = some written) :
    ∃ alternatives, Encloses source.toList alternatives written.groupNames ∧
      written.pattern = altAll alternatives := by
  obtain ⟨⟨alternatives, names, rest⟩, hread, hwhole⟩ := Option.bind_eq_some_iff.mp h
  dsimp only at hwhole
  split at hwhole
  · rename_i hempty
    obtain rfl := Option.some.inj hwhole
    refine ⟨alternatives, fun tail => ?_, rfl⟩
    have hgoesOn : GoesOn tail source.toList (source.toList ++ ')' :: tail) := rfl
    obtain ⟨⟨_, _, behind⟩, hread', rfl, rfl, hbehind⟩ :=
      survives_readAlternatives .plain source.toList hgoesOn _ hread
    have hrest : rest.1 = [] := List.isEmpty_iff.mp (Bool.and_eq_true_iff.mp hempty).1
    have hbehind : behind.1 = rest.1 ++ ')' :: tail := hbehind
    rw [hrest] at hbehind
    exact ⟨behind, hread', hbehind⟩
  · cases hwhole

/-! ### Operators -/

theorem readOperators_of_noOperator (item : Pattern) {rest : List Char}
    (h : noOperator rest = true) : readOperators item rest = some (item, .whole rest) := by
  cases rest with
  | nil => rw [readOperators]
  | cons c rest =>
    rw [readOperators, if_neg]
    simpa [noOperator] using h

theorem skipLazyMark_of_noOperator {rest : List Char} (h : noOperator rest = true) :
    skipLazyMark rest = .whole rest := by
  rw [skipLazyMark]
  rintro back rfl
  cases h

/-- The bounds that an operator of one character gives. -/
def boundsOf? : Char → Option (Nat × Option Nat)
  | '*' => some (0, none)
  | '+' => some (1, none)
  | '?' => some (0, some 1)
  | _ => none

theorem readOperatorBounds_of_boundsOf? {operator : Char} {least : Nat} {most : Option Nat}
    (h : boundsOf? operator = some (least, most)) (rest : List Char) :
    isOperator operator = true ∧
      readOperatorBounds operator rest = some (least, most, .whole rest) := by
  unfold boundsOf? at h
  split at h
  case h_4 => cases h
  all_goals
    cases h
    exact ⟨rfl, rfl⟩

theorem readOperators_cons (item : Pattern) {operator : Char} {least : Nat} {most : Option Nat}
    (hbounds : boundsOf? operator = some (least, most)) {rest : List Char}
    (h : noOperator rest = true) :
    ∃ behind, readOperators item (operator :: rest) = some (.repetition least most item, behind) ∧
      behind.1 = rest := by
  obtain ⟨hoperator, hread⟩ := readOperatorBounds_of_boundsOf? hbounds rest
  have hmark : skipLazyMark (Text.NotLonger.whole rest).1 = .whole rest :=
    skipLazyMark_of_noOperator h
  have hmore := readOperators_of_noOperator (.repetition least most item) h
  rw [readOperators, if_pos hoperator, hread, Option.bind_eq_bind, Option.bind_some]
  dsimp only
  rw [hmark]
  exact ⟨_, Option.bind_eq_some_iff.mpr ⟨_, hmore, rfl⟩, rfl⟩

/-! ### Groups -/

theorem itemsOf?_grouped {inner : List Char} {alternatives : List Pattern}
    {names : List (List Char)} (h : Encloses inner alternatives names) {behindGroup : List Char}
    {item : Pattern} {rest : Text.NotLonger behindGroup}
    (hitem : readOperators (altAll alternatives) behindGroup = some (item, rest)) :
    itemsOf? (grouped inner ++ behindGroup) = (itemsOf? rest.1).map (prepended [item] names) := by
  obtain ⟨⟨_, hle⟩, hread, rfl⟩ := h behindGroup
  have hopening : readGroupOpening .plain ('?' :: ':' :: (inner ++ ')' :: behindGroup)) =
      some (.group none .plain, ((Text.Shorter.tail ':' _).cons (x := '?')).notLonger) := by
    rw [readGroupOpening]
    · rfl
    all_goals simp
  have hsource : grouped inner ++ behindGroup =
      '(' :: '?' :: ':' :: (inner ++ ')' :: behindGroup) := by
    simp [grouped]
  have hclosing : Text.afterFirst? ')' (')' :: behindGroup) = some (.tail ')' behindGroup) := by
    rw [Text.afterFirst?, if_pos rfl]
  rw [hsource, itemsOf?, readItems, hopening, Option.bind_eq_bind, Option.bind_some]
  dsimp only [Text.Shorter.notLonger, Text.Shorter.cons, Text.Shorter.tail]
  rw [hread, Option.bind_eq_bind, Option.bind_some]
  dsimp only
  rw [hclosing, Option.bind_eq_bind, Option.bind_some]
  dsimp only [Text.Shorter.transNotLonger, Text.NotLonger.transShorter, Text.Shorter.tail]
  rw [hitem, Option.bind_eq_bind, Option.bind_some, itemsOf?]
  cases readItems .plain rest.1 <;> rfl

/-! ### Characters -/

theorem escapedLetter?_of_isMeta {c : Char} (h : isMeta c = true) :
    escapedLetter? c = some (.character c) := by
  unfold escapedLetter?
  split
  case h_17 =>
    have hpunctuation : metas.all
        (fun c => c.toNat < 128 && !c.isAlphanum && c != '<' && c != '>') = true := by decide
    exact if_pos (List.all_eq_true.mp hpunctuation c (List.contains_iff_mem.mp h))
  all_goals exact absurd h (by decide)

theorem readSimpleItem_backslash {c : Char} (h : isMeta c = true) (rest : List Char) :
    readSimpleItem .plain '\\' (c :: rest) =
      some (.set (· == c), (Text.Shorter.tail c rest).notLonger) := by
  have hread : readEscape .plain (c :: rest) = some (.character c, .tail c rest) := by
    rw [readEscape, escapedLetter?_of_isMeta h]
    · rfl
    all_goals
      rintro rfl
      exact absurd h (by decide)
  rw [readSimpleItem, hread]
  rfl

theorem readSimpleItem_of_not_isMeta {c : Char} (h : isMeta c = false) (rest : List Char) :
    readSimpleItem .plain c rest = some (.set (· == c), .whole rest) := by
  unfold readSimpleItem
  split
  case h_6 => rfl
  all_goals exact absurd h (by decide)

theorem isOperator_of_not_isMeta {c : Char} (h : isMeta c = false) : isOperator c = false := by
  cases hoperator : isOperator c with
  | false => rfl
  | true =>
    simp only [isOperator, Bool.or_eq_true, beq_iff_eq] at hoperator
    obtain ((rfl | rfl) | rfl) | rfl := hoperator
    all_goals exact absurd h (by decide)

theorem itemsOf?_cons {c : Char} {rest : List Char} {item : Pattern} {behind : Text.NotLonger rest}
    (hgroup : c ≠ '(') (hends : ¬ (c = '|' ∨ c = ')')) (hoperator : isOperator c = false)
    (hread : readSimpleItem .plain c rest = some (item, behind))
    (hmore : noOperator behind.1 = true) :
    itemsOf? (c :: rest) = (itemsOf? behind.1).map (prepended [item] []) := by
  rw [itemsOf?, readItems, if_neg hends, if_neg (by simp [hoperator]), hread, Option.bind_eq_bind,
    Option.bind_some]
  · dsimp only
    rw [readOperators_of_noOperator item hmore, Option.bind_eq_bind, Option.bind_some, itemsOf?]
    dsimp only [Text.NotLonger.whole, Text.NotLonger.trans]
    cases readItems .plain behind.1 <;> rfl
  · exact hgroup

/-! ### What is read as items -/

namespace ReadsAs

variable {source source' inner : List Char} {items items' alternatives : List Pattern}
  {names names' : List (List Char)}

protected theorem nil : ReadsAs [] [] [] where
  noOperator := rfl
  itemsOf?_append _ := Option.map_id.symm ▸ rfl

protected theorem append (h : ReadsAs source items names) (h' : ReadsAs source' items' names') :
    ReadsAs (source ++ source') (items ++ items') (names ++ names') where
  noOperator := noOperator_append h.noOperator h'.noOperator
  itemsOf?_append hrest := by
    rw [List.append_assoc, h.itemsOf?_append (noOperator_append h'.noOperator hrest),
      h'.itemsOf?_append hrest, Option.map_map]
    refine congrArg (Option.map · _) (funext fun read => ?_)
    simp [prepended]

theorem grouped (h : Encloses inner alternatives names) :
    ReadsAs (Pattern.grouped inner) [altAll alternatives] names where
  noOperator := rfl
  itemsOf?_append hrest := itemsOf?_grouped h (readOperators_of_noOperator _ hrest)

theorem repeated (h : Encloses inner alternatives names) {operator : Char} {least : Nat}
    {most : Option Nat} (hbounds : boundsOf? operator = some (least, most)) :
    ReadsAs (Pattern.grouped inner ++ [operator]) [.repetition least most (altAll alternatives)]
      names where
  noOperator := rfl
  itemsOf?_append {rest} hrest := by
    obtain ⟨behind, hread, hbehind⟩ := readOperators_cons (altAll alternatives) hbounds hrest
    rw [List.append_assoc, List.singleton_append, itemsOf?_grouped h hread, hbehind]

/-- A character that stands for itself. -/
theorem single {c : Char} (plain : isMeta c = false) : ReadsAs [c] [.set (· == c)] [] where
  noOperator := by
    simp [Pattern.noOperator, isOperator_of_not_isMeta plain]
  itemsOf?_append {rest} hrest := by
    refine itemsOf?_cons ?_ ?_ (isOperator_of_not_isMeta plain)
      (readSimpleItem_of_not_isMeta plain rest) hrest
    · rintro rfl
      exact absurd plain (by decide)
    · rintro (rfl | rfl)
      all_goals exact absurd plain (by decide)

/-- A character behind a backslash. -/
theorem escaped {c : Char} (special : isMeta c = true) : ReadsAs ['\\', c] [.set (· == c)] [] where
  noOperator := rfl
  itemsOf?_append {rest} hrest :=
    itemsOf?_cons (by decide) (by decide) rfl (readSimpleItem_backslash special rest) hrest

theorem escape (text : List Char) :
    ReadsAs (Pattern.escape text) (text.map fun c => .set (· == c)) [] := by
  induction text with
  | nil => exact .nil
  | cons c rest ih =>
    cases h : isMeta c with
    | true => simpa [Pattern.escape, h] using (escaped h).append ih
    | false => simpa [Pattern.escape, h] using (single h).append ih

end ReadsAs

/-! ### Alternatives -/

section Alternatives

variable {source inner : List Char} {items alternatives : List Pattern}
  {names names' : List (List Char)}

/-- The items end at a bar and at a closing parenthesis. -/
theorem ReadsAs.readItems_eq (h : ReadsAs source items names) {c : Char}
    (ends : c = '|' ∨ c = ')') (rest : List Char) :
    ∃ behind, readItems .plain (source ++ c :: rest) = some (items, names, .plain, behind) ∧
      behind.1 = c :: rest := by
  have hends : itemsOf? (c :: rest) = some ([], [], .plain, c :: rest) := by
    rw [itemsOf?, readItems, if_pos ends]
    · rfl
    · rintro rfl
      exact absurd ends (by decide)
  have hno : Pattern.noOperator (c :: rest) = true := by
    obtain rfl | rfl := ends
    all_goals rfl
  have hitems := h.itemsOf?_append hno
  rw [hends, Option.map_some, prepended, List.append_nil, List.append_nil] at hitems
  obtain ⟨⟨_, _, _, behind⟩, hread, heq⟩ := Option.map_eq_some_iff.mp hitems
  simp only [Prod.mk.injEq] at heq
  obtain ⟨rfl, rfl, rfl, hbehind⟩ := heq
  exact ⟨behind, hread, hbehind⟩

theorem ReadsAs.encloses (h : ReadsAs source items names) :
    Encloses source [seqAll items] names := by
  intro tail
  obtain ⟨behind, hread, hbehind⟩ := h.readItems_eq (.inr rfl) tail
  refine ⟨behind, ?_, hbehind⟩
  have hbar : Text.afterFirst? '|' behind.1 = none := by
    rw [hbehind, Text.afterFirst?, if_neg (by decide)]
  rw [readAlternatives, hread, Option.bind_eq_bind, Option.bind_some]
  dsimp only
  rw [hbar]
  rfl

theorem ReadsAs.encloses_bar (h : ReadsAs source items names)
    (h' : Encloses inner alternatives names') :
    Encloses (source ++ '|' :: inner) (seqAll items :: alternatives) (names ++ names') := by
  intro tail
  obtain ⟨⟨_, hle⟩, hread, rfl⟩ := h.readItems_eq (.inl rfl) (inner ++ ')' :: tail)
  obtain ⟨behind, hinner, hbehind⟩ := h' tail
  have hbar : Text.afterFirst? '|' ('|' :: (inner ++ ')' :: tail)) = some (.tail '|' _) := by
    rw [Text.afterFirst?, if_pos rfl]
  rw [List.append_assoc, List.cons_append, readAlternatives, hread, Option.bind_eq_bind,
    Option.bind_some]
  dsimp only
  rw [hbar]
  dsimp only [Text.NotLonger.transShorter, Text.Shorter.tail]
  rw [hinner, Option.bind_eq_bind, Option.bind_some]
  exact ⟨_, rfl, hbehind⟩

/-- What is read as items to the end is a pattern, if no two groups share a name. -/
theorem ReadsAs.ofSource?_eq {text : String} (h : ReadsAs text.toList items names) :
    ofSource? text = if names.Nodup then some ⟨seqAll items, names⟩ else none := by
  have hnil : itemsOf? [] = some ([], [], .plain, []) := by
    rw [itemsOf?, readItems]
    rfl
  have hitems : itemsOf? (text.toList ++ []) = _ := h.itemsOf?_append rfl
  rw [hnil, Option.map_some, prepended, List.append_nil, List.append_nil, List.append_nil] at hitems
  obtain ⟨⟨_, _, _, ⟨rest, hle⟩⟩, hread, heq⟩ := Option.map_eq_some_iff.mp hitems
  simp only [Prod.mk.injEq] at heq
  obtain ⟨rfl, rfl, rfl, rfl⟩ := heq
  rw [ofSource?, readAlternatives, hread]
  simp [Text.afterFirst?, altAll]

end Alternatives

/-! ### The library -/

/-- **The reader as a library**, with the search for longest matches. -/
def library : PatternLibrary where
  escape := escape
  isValid source := (ofSource? (String.ofList source)).isSome
  builds source := (ofSource? (String.ofList source)).isSome
  takes source text :=
    match ofSource? (String.ofList source) with
    | some written => written.pattern.takes Unicode.isWordCharacter text
    | none => 0
  longest? source text := (ofSource? (String.ofList source)).bind fun written =>
    written.pattern.longest? Unicode.isWordCharacter text

theorem takes_library {source : List Char} {written : Written}
    (h : ofSource? (String.ofList source) = some written) (text : List Char) :
    library.takes source text = written.pattern.takes Unicode.isWordCharacter text := by
  simp only [library, h]

/-- What a notation of each level is read as. -/
def ReadsAt (source : List Char) (x : Matching) : PatternLibrary.Level → Prop
  | .item => ∃ inner alternatives names, source = grouped inner ∧
      Encloses inner alternatives names ∧
      ∀ text, (altAll alternatives).takes Unicode.isWordCharacter text = x text
  | .sequence => ∃ items names, ReadsAs source items names ∧
      ∀ text, (seqAll items).takes Unicode.isWordCharacter text = x text
  | .choice => ∃ alternatives names, Encloses source alternatives names ∧ alternatives ≠ [] ∧
      ∀ text, (altAll alternatives).takes Unicode.isWordCharacter text = x text

/-- An item with an operator behind it. -/
theorem ReadsAt.repeated {item : List Char} {x y : Matching} (h : ReadsAt item x .item)
    {operator : Char} {least : Nat} {most : Option Nat}
    (bounds : boundsOf? operator = some (least, most))
    (takes : ∀ (inner : Pattern) text, inner.takes Unicode.isWordCharacter text = x text →
      (repetition least most inner).takes Unicode.isWordCharacter text = y text) :
    ReadsAt (item ++ [operator]) y .sequence := by
  obtain ⟨inner, alternatives, names, rfl, hencloses, hx⟩ := h
  exact ⟨_, names, .repeated hencloses bounds, fun text => takes _ text (hx text)⟩

/-- **The reader reads what a notation says.** -/
theorem readsAt_of_reads {patterns : Set String} {level : PatternLibrary.Level}
    {source : List Char} {x : Matching} (h : library.Reads patterns level source x) :
    ReadsAt source x level := by
  induction h with
  | escape text =>
    refine ⟨_, _, .escape text, fun there => ?_⟩
    rw [← ofText_eq_seqAll, takes_eq_spelled (isPlain_ofText text), language_ofText]
    rfl
  | @pattern source _ valid =>
    obtain ⟨written, hread⟩ := Option.isSome_iff_exists.mp valid
    obtain ⟨alternatives, hencloses, hpattern⟩ := encloses_of_ofSource? hread
    rw [String.toList_ofList] at hencloses
    refine ⟨source.toList, alternatives, written.groupNames, rfl, hencloses, fun text => ?_⟩
    rw [takes_library hread, hpattern]
  | group _ ih =>
    obtain ⟨alternatives, names, hencloses, -, hx⟩ := ih
    exact ⟨_, alternatives, names, rfl, hencloses, hx⟩
  | @star item x _ ih =>
    refine ReadsAt.repeated ih (y := x∗) rfl fun inner text hinner => ?_
    rw [takes, meaning, pow_zero, one_mul]
    exact congrArg KStar.kstar hinner
  | @plus item x _ ih =>
    refine ReadsAt.repeated ih (y := x * x∗) rfl fun inner text hinner => ?_
    rw [takes, meaning, pow_one]
    exact congrArg₂ (· * ·) hinner (congrArg KStar.kstar hinner)
  | @question item x _ ih =>
    refine ReadsAt.repeated ih (y := 1 + x) rfl fun inner text hinner => ?_
    rw [takes, meaning, pow_zero, one_mul, Nat.sub_zero, pow_one]
    exact congrArg (1 + ·) hinner
  | single _ ih =>
    obtain ⟨inner, alternatives, names, rfl, hencloses, hx⟩ := ih
    exact ⟨_, names, .grouped hencloses, hx⟩
  | empty => exact ⟨[], [], .nil, fun _ => rfl⟩
  | append _ _ ih ih' =>
    obtain ⟨items, names, hfirst, hx⟩ := ih
    obtain ⟨items', names', hsecond, hy⟩ := ih'
    refine ⟨_, _, hfirst.append hsecond, fun text => ?_⟩
    rw [takes, meaning_seqAll, List.map_append, List.prod_append, ← meaning_seqAll,
      ← meaning_seqAll]
    exact congrArg₂ (· * ·) (hx text) (hy text)
  | alternative _ ih =>
    obtain ⟨items, names, hreads, hx⟩ := ih
    exact ⟨_, names, hreads.encloses, List.cons_ne_nil _ _, hx⟩
  | bar _ _ ih ih' =>
    obtain ⟨items, names, hfirst, hx⟩ := ih
    obtain ⟨alternatives, names', hrest, hne, hy⟩ := ih'
    refine ⟨_, _, hfirst.encloses_bar hrest, List.cons_ne_nil _ _, fun text => ?_⟩
    rw [takes, meaning_altAll _ (List.cons_ne_nil _ _), List.map_cons, List.sum_cons,
      ← meaning_altAll _ hne]
    exact congrArg₂ (· + ·) (hx text) (hy text)

/-- **The reader keeps to its documentation**, for all patterns. -/
theorem documented_library (patterns : Set String) : library.Documented patterns where
  takes_eq {inner x} builds reads := by
    obtain ⟨alternatives, names, hencloses, -, hx⟩ := readsAt_of_reads reads
    have hgroup : ReadsAs (String.ofList (grouped inner)).toList [altAll alternatives] names := by
      rw [String.toList_ofList]
      exact .grouped hencloses
    obtain ⟨written, hread⟩ := Option.isSome_iff_exists.mp builds
    funext text
    rw [takes_library hread, ← hx text]
    rw [hgroup.ofSource?_eq] at hread
    obtain ⟨-, hwritten⟩ := Option.ite_none_right_eq_some.mp hread
    obtain rfl := Option.some.inj hwritten
    rfl
  isLongest {source} text builds := by
    obtain ⟨written, hread⟩ := Option.isSome_iff_exists.mp builds
    have hlongest : library.longest? source text =
        written.pattern.longest? Unicode.isWordCharacter text := by
      simp only [library, hread, Option.bind_some]
    rw [takes_library hread, hlongest]
    exact written.pattern.isLongest_longest? Unicode.isWordCharacter text

/-! ### Patterns of one meaning -/

/-- **Patterns that mean the same**, however patterns are understood. -/
def SameMeaning (first second : Pattern) : Prop :=
  ∀ {K : Type} [Semiring K] [KStar K] (interpretation : Interpretation K),
    first.meaning interpretation = second.meaning interpretation

/-- **A text is a notation of a pattern that was put together**: it is read as items that mean the
same, with the same names. -/
def WrittenAs (source : List Char) (written : Written) : Prop :=
  ∃ items, ReadsAs source items written.groupNames ∧ SameMeaning (seqAll items) written.pattern

namespace WrittenAs

variable {source : List Char} {written : Written}

theorem seq {sources : List (List Char)} {parts : List Written}
    (h : List.Forall₂ WrittenAs sources parts) :
    WrittenAs sources.flatten (Grammar.joinSeq parts) := by
  induction h with
  | nil => exact ⟨[], .nil, fun _ => rfl⟩
  | cons first _ ih =>
    obtain ⟨items, hfirst, hmeaning⟩ := first
    obtain ⟨items', hrest, hmeaning'⟩ := ih
    refine ⟨items ++ items', hfirst.append hrest, fun interpretation => ?_⟩
    have hmeaning := hmeaning interpretation
    have hmeaning' := hmeaning' interpretation
    simp only [Grammar.joinSeq, meaning_seqAll, List.map_append, List.prod_append, List.map_cons,
      List.prod_cons] at hmeaning hmeaning' ⊢
    rw [hmeaning, hmeaning']

theorem exists_encloses {sources : List (List Char)} {parts : List Written}
    (h : List.Forall₂ WrittenAs sources parts) :
    ∃ alternatives, Encloses (['|'].intercalate sources) alternatives
      (Grammar.joinAlt parts).groupNames ∧ alternatives ≠ [] ∧
      SameMeaning (altAll alternatives) (Grammar.joinAlt parts).pattern := by
  induction h with
  | nil => exact ⟨[.empty], ReadsAs.nil.encloses, List.cons_ne_nil _ _, fun _ => rfl⟩
  | cons first rest ih =>
    obtain ⟨items, hfirst, hmeaning⟩ := first
    cases rest with
    | nil =>
      refine ⟨[seqAll items], ?_, List.cons_ne_nil _ _, hmeaning⟩
      simpa [Grammar.joinAlt, List.intercalate] using hfirst.encloses
    | cons second rest =>
      obtain ⟨alternatives, hrest, hne, hmeaning'⟩ := ih
      obtain ⟨alternative, others, rfl⟩ := List.exists_cons_of_ne_nil hne
      refine ⟨seqAll items :: alternative :: others, ?_, List.cons_ne_nil _ _,
        fun interpretation =>
          congrArg₂ (· + ·) (hmeaning interpretation) (hmeaning' interpretation)⟩
      have hboth := hfirst.encloses_bar hrest
      simpa [Grammar.joinAlt, List.intercalate] using hboth

theorem choice {sources : List (List Char)} {parts : List Written}
    (h : List.Forall₂ WrittenAs sources parts) :
    WrittenAs (grouped (['|'].intercalate sources)) (Grammar.joinAlt parts) := by
  obtain ⟨alternatives, hencloses, -, hmeaning⟩ := exists_encloses h
  exact ⟨[altAll alternatives], .grouped hencloses, hmeaning⟩

theorem repeated (h : WrittenAs source written) {operator : Char} {least : Nat}
    {most : Option Nat} (hbounds : boundsOf? operator = some (least, most)) :
    WrittenAs (grouped source ++ [operator])
      { written with pattern := .repetition least most written.pattern } := by
  obtain ⟨items, hreads, hmeaning⟩ := h
  refine ⟨[.repetition least most (seqAll items)], .repeated hreads.encloses hbounds,
    fun interpretation => ?_⟩
  cases most with
  | none => simp only [seqAll, meaning, hmeaning interpretation]
  | some most => simp only [seqAll, meaning, hmeaning interpretation]

theorem of_ofSource? {source : String} (h : ofSource? source = some written) :
    WrittenAs (grouped source.toList) written := by
  obtain ⟨alternatives, hencloses, hpattern⟩ := encloses_of_ofSource? h
  exact ⟨[altAll alternatives], .grouped hencloses, fun interpretation => by rw [hpattern]; rfl⟩

theorem literal (text : List Char) : WrittenAs (escape text) ⟨ofText text, []⟩ :=
  ⟨_, .escape text, fun interpretation => by rw [ofText_eq_seqAll]⟩

/-- The notation as a group is read, unless two groups share a name. -/
theorem ofSource?_grouped (h : WrittenAs source written) :
    ∃ pattern, SameMeaning pattern written.pattern ∧
      ofSource? (String.ofList (Pattern.grouped source)) =
        if written.groupNames.Nodup then some ⟨pattern, written.groupNames⟩ else none := by
  obtain ⟨items, hreads, hmeaning⟩ := h
  have hgroup : ReadsAs (String.ofList (Pattern.grouped source)).toList [seqAll items]
      written.groupNames := by
    rw [String.toList_ofList]
    exact .grouped hreads.encloses
  exact ⟨seqAll items, hmeaning, hgroup.ofSource?_eq⟩

theorem builds_grouped_iff (h : WrittenAs source written) :
    library.builds (Pattern.grouped source) = true ↔ written.groupNames.Nodup := by
  obtain ⟨pattern, -, hread⟩ := h.ofSource?_grouped
  simp [library, hread]

end WrittenAs

end Pattern

/-! ### The notation of an expression -/

namespace Grammar

open Pattern (Written WrittenAs)

variable (grammar : Grammar)

mutual

/-- **The notation is that of the pattern**, and where there is none, there is no pattern for the
same reason. -/
theorem sourceOf_tracks_patternOf (rule : String) (visiting : List String)
    (expression : Expression) :
    Tracks WrittenAs (grammar.sourceOf Pattern.library rule visiting expression)
      (grammar.patternOf rule visiting expression) := by
  cases expression with
  | literal text =>
    rw [sourceOf, patternOf]
    exact .ok (.literal text.toList)
  | pattern source =>
    have hvalid : Pattern.library.isValid source.toList = (Pattern.ofSource? source).isSome := by
      simp only [Pattern.library, String.ofList_toList]
    rw [sourceOf, patternOf, hvalid]
    cases h : Pattern.ofSource? source with
    | none => exact .error _
    | some written => exact .ok (.of_ofSource? h)
  | seq items =>
    rw [sourceOf, patternOf]
    exact (sourcesOf_tracks_patternsOf rule visiting items).bind fun same => .ok (.seq same)
  | choice alternatives =>
    rw [sourceOf, patternOf]
    exact (sourcesOf_tracks_patternsOf rule visiting alternatives).bind fun same =>
      .ok (.choice same)
  | repetition least inner =>
    rw [sourceOf, patternOf]
    refine (sourceOf_tracks_patternOf rule visiting inner).bind fun same => .ok ?_
    cases least with
    | zero => exact same.repeated rfl
    | succ least =>
      rw [if_neg (Nat.succ_ne_zero least), Nat.min_eq_right (Nat.succ_le_succ (Nat.zero_le least))]
      exact same.repeated rfl
  | optional inner =>
    rw [sourceOf, patternOf]
    exact (sourceOf_tracks_patternOf rule visiting inner).bind fun same => .ok (same.repeated rfl)
  | blank =>
    rw [sourceOf, patternOf]
    exact .ok ⟨[], .nil, fun _ => rfl⟩
  | token inner =>
    rw [sourceOf, patternOf]
    exact sourceOf_tracks_patternOf rule visiting inner
  | precedence _ _ inner =>
    rw [sourceOf, patternOf]
    exact sourceOf_tracks_patternOf rule visiting inner
  | reference name =>
    rw [sourceOf, patternOf]
    refine Tracks.rfl.bind fun {body _} same => ?_
    subst same
    have hlt := body.2
    exact sourceOf_tracks_patternOf name (name :: visiting) body.1
  | nested | delimited | quoted =>
    rw [sourceOf, patternOf]
    exact .error _
termination_by grammar.effort visiting (sizeOf expression)
decreasing_by
  all_goals first
    | exact effort_body_lt ‹_›
    | exact effort_lt (by simp only [Expression.seq.sizeOf_spec,
        Expression.choice.sizeOf_spec, Expression.repetition.sizeOf_spec,
        Expression.optional.sizeOf_spec, Expression.token.sizeOf_spec,
        Expression.precedence.sizeOf_spec]; omega)

theorem sourcesOf_tracks_patternsOf (rule : String) (visiting : List String)
    (expressions : List Expression) :
    Tracks (List.Forall₂ WrittenAs) (grammar.sourcesOf Pattern.library rule visiting expressions)
      (grammar.patternsOf rule visiting expressions) := by
  cases expressions with
  | nil =>
    rw [sourcesOf, patternsOf]
    exact .ok .nil
  | cons first rest =>
    rw [sourcesOf, patternsOf]
    exact (sourceOf_tracks_patternOf rule visiting first).bind fun same =>
      (sourcesOf_tracks_patternsOf rule visiting rest).bind fun others => .ok (.cons same others)
termination_by grammar.effort visiting (sizeOf expressions)
decreasing_by
  all_goals exact effort_lt (by simp only [List.cons.sizeOf_spec]; omega)

end

/-- The matcher of an expression inside a token, by way of its notation. -/
def tokenOf (rule : String) (visiting : List String)
    (expression : Expression) : Except GrammarError Pattern.library.TokenPattern := do
  let source ← grammar.sourceOf Pattern.library rule visiting expression
  match Pattern.library.tokenPattern? source with
  | some token => .ok token
  | none => .error (.invalidToken rule .repeatedGroup)

/-- **The matcher of a token finds what the library finds** with the notation of the token, and it
fails where that fails. -/
theorem tokenOf_tracks_matcherOf (rule : String) (visiting : List String)
    (expression : Expression) :
    Tracks (fun token matcher => ∃ pattern, matcher = .pattern pattern ∧
        ∀ text, pattern.longest? Unicode.isWordCharacter text = token.longest? text)
      (grammar.tokenOf rule visiting expression)
      (grammar.matcherOf rule visiting (.token expression)) := by
  rw [tokenOf, matcherOf, patternOf]
  refine (grammar.sourceOf_tracks_patternOf rule visiting expression).bind
    fun {source own} same => ?_
  by_cases distinct : own.groupNames.Nodup
  · have hbuilds := same.builds_grouped_iff.mpr distinct
    rw [if_pos distinct, PatternLibrary.tokenPattern?, dif_pos hbuilds]
    refine .ok ⟨own.pattern, rfl, fun text => ?_⟩
    obtain ⟨pattern, hmeaning, hread⟩ := same.ofSource?_grouped
    rw [if_pos distinct] at hread
    have hlongest := (Pattern.documented_library Set.univ).isLongest text hbuilds
    rw [Pattern.takes_library hread text, Pattern.takes, hmeaning] at hlongest
    exact (own.pattern.isLongest_longest? Unicode.isWordCharacter text).unique hlongest
  · have hbuilds := mt same.builds_grouped_iff.mp distinct
    rw [if_neg distinct, PatternLibrary.tokenPattern?, dif_neg hbuilds]
    exact .error _

end Grammar

end Syntagm
