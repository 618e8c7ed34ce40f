import Mathlib.Tactic.Common
import Syntagm.Pattern.Reader

/-!
# Reading a pattern inside a group

A pattern that is well formed alone is read in the same way where a closing parenthesis follows,
and reading stops in front of it (`Pattern.survives_readAlternatives`).

Every reader has this property (`Survives`): whatever it reads of a text, it reads where the text
goes on with a closing parenthesis, and what is left then goes on in the same way.  It does not hold
of failures, which may be mended by what follows; the readers that try something and go on
otherwise also have to fail in the longer text, which they do because nothing that they look for
has a closing parenthesis in it.
-/

namespace Syntagm

open Text (Shorter NotLonger)

/-! ### What survives -/

section
variable {α β γ δ : Type}

/-- **A result survives** if the other computation has a result that belongs to it. -/
def Survives (related : α → β → Prop) (first : Option α) (second : Option β) : Prop :=
  ∀ x, first = some x → ∃ y, second = some y ∧ related x y

/-- Results with the same value whose rests belong together. -/
def WithSame (related : β → γ → Prop) (first : α × β) (second : α × γ) : Prop :=
  first.1 = second.1 ∧ related first.2 second.2

variable {related : α → β → Prop}

theorem survives_none {second : Option β} : Survives related none second :=
  fun _ h => nomatch h

theorem survives_some {x : α} {y : β} (h : related x y) : Survives related (some x) (some y) :=
  fun _ heq => ⟨y, rfl, Option.some.inj heq ▸ h⟩

theorem Survives.bind {results : γ → δ → Prop} {first : Option α} {second : Option β}
    {f : α → Option γ} {g : β → Option δ} (h : Survives related first second)
    (step : ∀ x y, related x y → Survives results (f x) (g y)) :
    Survives results (first >>= f) (second >>= g) := by
  intro z hz
  obtain ⟨x, hx, hf⟩ := Option.bind_eq_some_iff.mp hz
  obtain ⟨y, hy, hrelated⟩ := h x hx
  obtain ⟨w, hw, hresult⟩ := step x y hrelated z hf
  exact ⟨w, Option.bind_eq_some_iff.mpr ⟨y, hy, hw⟩, hresult⟩

theorem Survives.map {results : γ → δ → Prop} {first : Option α} {second : Option β}
    {f : α → γ} {g : β → δ} (h : Survives related first second)
    (step : ∀ x y, related x y → results (f x) (g y)) :
    Survives results (first.map f) (second.map g) := by
  intro z hz
  obtain ⟨x, hx, rfl⟩ := Option.map_eq_some_iff.mp hz
  obtain ⟨y, hy, hrelated⟩ := h x hx
  exact ⟨g y, Option.map_eq_some_iff.mpr ⟨y, hy, rfl⟩, step x y hrelated⟩

/-- The same computation of something that does not depend on the text. -/
theorem Survives.same {results : γ → δ → Prop} {first : Option α} {f : α → Option γ}
    {g : α → Option δ} (step : ∀ x, first = some x → Survives results (f x) (g x)) :
    Survives results (first >>= f) (first >>= g) := by
  cases first with
  | none => exact survives_none
  | some x => exact step x rfl

end

/-! ### Rests -/

/-- **A text goes on with a closing parenthesis** behind the other one, and so does what is left
of it. -/
def GoesOn (tail text longer : List Char) : Prop := longer = text ++ ')' :: tail

/-- What the longer text begins with, the text begins with, unless the parenthesis is in it. -/
theorem GoesOn.exists_append {tail text longer back : List Char}
    (goesOn : GoesOn tail text longer) (front : List Char) (without : ')' ∉ front)
    (heq : longer = front ++ back) : ∃ rest, text = front ++ rest := by
  induction front generalizing text longer with
  | nil => exact ⟨text, rfl⟩
  | cons c front ih =>
    obtain ⟨hc, hfront⟩ := not_or.mp (List.mem_cons.not.mp without)
    subst heq
    cases text with
    | nil => exact absurd (List.cons.inj goesOn).1.symm hc
    | cons d text =>
      obtain ⟨rfl, hrest⟩ := List.cons.inj goesOn
      obtain ⟨rest, rfl⟩ := ih hrest hfront rfl
      exact ⟨rest, rfl⟩

/-- What the text does not begin with, the longer text does not begin with. -/
theorem GoesOn.not_append {tail text longer : List Char} (goesOn : GoesOn tail text longer)
    (front : List Char) (without : ')' ∉ front) (other : ∀ rest, text = front ++ rest → False)
    (back : List Char) (heq : longer = front ++ back) : False := by
  obtain ⟨rest, hrest⟩ := goesOn.exists_append front without heq
  exact other rest hrest

/-- What is left of both texts. -/
def RestGoesOn (tail : List Char) {p q : List Char → Prop} (rest : Subtype p) (rest' : Subtype q) :
    Prop :=
  GoesOn tail rest.1 rest'.1

namespace Text

variable {tail text longer : List Char}

theorem survives_splitThrough? {p : Char → Bool} (goesOn : GoesOn tail text longer) :
    Survives (WithSame (RestGoesOn tail)) (splitThrough? p text) (splitThrough? p longer) := by
  subst goesOn
  induction text with
  | nil => exact survives_none
  | cons c rest ih =>
    rw [List.cons_append, splitThrough?, splitThrough?]
    split
    · exact survives_some ⟨rfl, rfl⟩
    · exact ih.map fun _ _ ⟨hfront, hrest⟩ => ⟨congrArg (c :: ·) hfront, hrest⟩

/-- If nothing was found, the parenthesis is in front of what is found behind it. -/
theorem mem_of_splitThrough? {p : Char → Bool} (stops : p ')' = false)
    (goesOn : GoesOn tail text longer) (none : splitThrough? p text = none) :
    ∀ found, splitThrough? p longer = some found → ')' ∈ found.1 := by
  subst goesOn
  induction text with
  | nil =>
    rw [List.nil_append, splitThrough?, if_neg (by simp [stops])]
    intro found hfound
    obtain ⟨_, _, rfl⟩ := Option.map_eq_some_iff.mp hfound
    exact List.mem_cons_self
  | cons c rest ih =>
    rw [splitThrough?] at none
    split at none
    · cases none
    · rename_i hc
      rw [List.cons_append, splitThrough?, if_neg hc]
      intro found hfound
      obtain ⟨inner, hinner, rfl⟩ := Option.map_eq_some_iff.mp hfound
      exact List.mem_cons_of_mem c (ih (Option.map_eq_none_iff.mp none) inner hinner)

theorem survives_afterFirst? {c : Char} (goesOn : GoesOn tail text longer) :
    Survives (RestGoesOn tail) (afterFirst? c text) (afterFirst? c longer) := by
  subst goesOn
  cases text with
  | nil => exact survives_none
  | cons d rest =>
    rw [List.cons_append, afterFirst?, afterFirst?]
    split
    · exact survives_some rfl
    · exact survives_none

/-- Nothing but a closing parenthesis has come in. -/
theorem afterFirst?_eq_none {c : Char} (goesOn : GoesOn tail text longer) (other : c ≠ ')')
    (none : afterFirst? c text = none) : afterFirst? c longer = .none := by
  subst goesOn
  cases text with
  | nil => exact if_neg (Ne.symm other)
  | cons d rest =>
    rw [afterFirst?] at none
    split at none
    · cases none
    · rename_i hother
      exact if_neg hother

theorem restGoesOn_skipWhile {p : Char → Bool} (stops : p ')' = false)
    (goesOn : GoesOn tail text longer) :
    RestGoesOn tail (skipWhile p text) (skipWhile p longer) := by
  subst goesOn
  rw [RestGoesOn, GoesOn, skipWhile_val, skipWhile_val, List.dropWhile_append]
  split
  · rename_i hempty
    rw [List.isEmpty_iff.mp hempty, List.dropWhile_cons_of_neg (by simp [stops]), List.nil_append]
  · rfl

theorem withSame_spanWhile {p : Char → Bool} (stops : p ')' = false)
    (goesOn : GoesOn tail text longer) :
    WithSame (RestGoesOn tail) (spanWhile p text) (spanWhile p longer) := by
  subst goesOn
  induction text with
  | nil =>
    simp [spanWhile, stops, WithSame, RestGoesOn, GoesOn, NotLonger.whole]
  | cons c rest ih =>
    rw [List.cons_append, spanWhile, spanWhile]
    split
    · exact ⟨congrArg (c :: ·) ih.1, ih.2⟩
    · exact ⟨rfl, rfl⟩

end Text

namespace Pattern

variable {tail text longer : List Char} {settings : Settings}

/-! ### Groups -/

theorem survives_splitFlags? (goesOn : GoesOn tail text longer) :
    Survives (WithSame (WithSame (RestGoesOn tail))) (splitFlags? text) (splitFlags? longer) := by
  subst goesOn
  induction text using splitFlags?.induct with
  | case1 => exact survives_none
  | case2 rest | case3 rest => exact survives_some ⟨rfl, rfl, rfl⟩
  | case4 c rest colon parenthesis ih =>
    rw [List.cons_append, splitFlags?, splitFlags?]
    · exact ih.map fun _ _ ⟨hflags, hcolon, hrest⟩ =>
        ⟨congrArg (c :: ·) hflags, hcolon, hrest⟩
    all_goals assumption

theorem survives_readGroupName (goesOn : GoesOn tail text longer) :
    Survives (WithSame (RestGoesOn tail)) (readGroupName settings text)
      (readGroupName settings longer) := by
  refine (Text.survives_splitThrough? goesOn).bind ?_
  rintro ⟨name, rest⟩ ⟨_, rest'⟩ ⟨rfl, hrest⟩
  dsimp only
  split
  · exact survives_some ⟨rfl, hrest⟩
  · exact survives_none

theorem survives_readGroupOpening (goesOn : GoesOn tail text longer) :
    Survives (WithSame (RestGoesOn tail)) (readGroupOpening settings text)
      (readGroupOpening settings longer) := by
  rw [readGroupOpening.eq_def settings text]
  split
  · subst goesOn
    refine (survives_readGroupName rfl).bind ?_
    rintro ⟨opening, rest⟩ ⟨_, rest'⟩ ⟨rfl, hrest⟩
    exact survives_some ⟨rfl, hrest⟩
  · subst goesOn
    refine (survives_readGroupName rfl).bind ?_
    rintro ⟨opening, rest⟩ ⟨_, rest'⟩ ⟨rfl, hrest⟩
    exact survives_some ⟨rfl, hrest⟩
  · rename_i rest named short
    subst goesOn
    rw [List.cons_append, readGroupOpening]
    · refine (survives_splitFlags? rfl).bind ?_
      rintro ⟨flags, colon, rest⟩ ⟨_, _, rest'⟩ ⟨rfl, rfl, hrest⟩
      refine Survives.same fun changed _ => ?_
      dsimp only
      split
      · exact survives_some ⟨rfl, hrest⟩
      · split
        · exact survives_none
        · exact survives_some ⟨rfl, hrest⟩
    · exact GoesOn.not_append rfl ['P', '<'] (by decide) named
    · exact GoesOn.not_append rfl ['<'] (by decide) short
  · rename_i plain
    rw [readGroupOpening]
    · exact survives_some ⟨rfl, goesOn⟩
    all_goals
      exact fun back heq => goesOn.not_append ['?'] (by decide) plain _ heq

/-! ### Operators -/

theorem survives_readCount (goesOn : GoesOn tail text longer) :
    Survives (WithSame (RestGoesOn tail)) (readCount text) (readCount longer) := by
  have hspace : Unicode.isWhiteSpace ')' = false := by with_unfolding_all decide
  have hbehind := Text.restGoesOn_skipWhile hspace goesOn
  have hdigits : WithSame (RestGoesOn tail)
      (Text.splitDigits (Text.skipWhile Unicode.isWhiteSpace text).1)
      (Text.splitDigits (Text.skipWhile Unicode.isWhiteSpace longer).1) :=
    Text.withSame_spanWhile (by decide) hbehind
  have hrest := Text.restGoesOn_skipWhile hspace hdigits.2
  simp only [readCount, ← hdigits.1]
  split
  · exact survives_none
  · exact survives_some ⟨rfl, hrest⟩

theorem survives_readBounds (goesOn : GoesOn tail text longer) :
    Survives (WithSame (WithSame (RestGoesOn tail))) (readBounds text) (readBounds longer) := by
  refine (survives_readCount goesOn).bind ?_
  rintro ⟨least, behindLeast⟩ ⟨_, behindLeast'⟩ ⟨rfl, hleast⟩
  dsimp only
  cases hcomma : Text.afterFirst? ',' behindLeast.1 with
  | none =>
    rw [Text.afterFirst?_eq_none hleast (by decide) hcomma]
    exact (Text.survives_afterFirst? hleast).bind fun _ _ hrest => survives_some ⟨rfl, rfl, hrest⟩
  | some behindComma =>
    obtain ⟨behindComma', hcomma', hbehind⟩ := Text.survives_afterFirst? hleast _ hcomma
    rw [hcomma']
    dsimp only [NotLonger.transShorter]
    cases hbrace : Text.afterFirst? '}' behindComma.1 with
    | some rest =>
      obtain ⟨rest', hbrace', hrest⟩ := Text.survives_afterFirst? hbehind _ hbrace
      rw [hbrace']
      exact survives_some ⟨rfl, rfl, hrest⟩
    | none =>
      rw [Text.afterFirst?_eq_none hbehind (by decide) hbrace]
      refine (survives_readCount hbehind).bind ?_
      rintro ⟨most, behindMost⟩ ⟨_, behindMost'⟩ ⟨rfl, hmost⟩
      refine (Text.survives_afterFirst? hmost).bind fun rest rest' hrest => ?_
      dsimp only
      split
      · exact survives_some ⟨rfl, rfl, hrest⟩
      · exact survives_none

theorem survives_readOperatorBounds (operator : Char) (goesOn : GoesOn tail text longer) :
    Survives (WithSame (WithSame (RestGoesOn tail))) (readOperatorBounds operator text)
      (readOperatorBounds operator longer) := by
  unfold readOperatorBounds
  split
  · exact survives_some ⟨rfl, rfl, goesOn⟩
  · exact survives_some ⟨rfl, rfl, goesOn⟩
  · exact survives_some ⟨rfl, rfl, goesOn⟩
  · exact survives_readBounds goesOn

theorem restGoesOn_skipLazyMark (goesOn : GoesOn tail text longer) :
    RestGoesOn tail (skipLazyMark text) (skipLazyMark longer) := by
  rw [skipLazyMark.eq_def text]
  split
  · subst goesOn
    rfl
  · rename_i plain
    rw [skipLazyMark]
    · exact goesOn
    · exact goesOn.not_append ['?'] (by decide) plain

theorem survives_readOperators (item : Pattern) (text : List Char) {longer : List Char}
    (goesOn : GoesOn tail text longer) :
    Survives (WithSame (RestGoesOn tail)) (readOperators item text)
      (readOperators item longer) := by
  subst goesOn
  cases text with
  | nil =>
    rw [List.nil_append, readOperators, readOperators, if_neg (by decide)]
    exact survives_some ⟨rfl, rfl⟩
  | cons c rest =>
    rw [List.cons_append, readOperators, readOperators]
    split
    · refine (survives_readOperatorBounds c rfl).bind ?_
      rintro ⟨least, most, behind⟩ ⟨_, _, behind'⟩ ⟨rfl, rfl, hbehind⟩
      have hlt : (skipLazyMark behind.1).1.length < (c :: rest).length :=
        Nat.lt_succ_of_le (Nat.le_trans (skipLazyMark behind.1).2 behind.2)
      refine (survives_readOperators (.repetition least most item) (skipLazyMark behind.1).1
        (restGoesOn_skipLazyMark hbehind)).bind ?_
      rintro ⟨further, rest⟩ ⟨_, rest'⟩ ⟨rfl, hrest⟩
      exact survives_some ⟨rfl, hrest⟩
    · exact survives_some ⟨rfl, rfl⟩
termination_by text.length

/-! ### Characters -/

theorem survives_readCodePoint (count : Nat) (goesOn : GoesOn tail text longer) :
    Survives (WithSame (RestGoesOn tail)) (readCodePoint count text)
      (readCodePoint count longer) := by
  rw [readCodePoint.eq_def count text]
  split
  · subst goesOn
    refine (Text.survives_splitThrough? rfl).bind ?_
    rintro ⟨digits, rest⟩ ⟨_, rest'⟩ ⟨rfl, hrest⟩
    exact Survives.same fun c _ => survives_some ⟨rfl, hrest⟩
  · rename_i plain
    rw [readCodePoint]
    · split
      · rename_i hle
        have hle' : count ≤ longer.length := by
          rw [goesOn, List.length_append]
          exact Nat.le_add_right_of_le hle
        have htake : longer.take count = text.take count := by
          rw [goesOn, List.take_append_of_le_length hle]
        have hdrop : RestGoesOn tail (NotLonger.drop count text) (NotLonger.drop count longer) := by
          show longer.drop count = text.drop count ++ ')' :: tail
          rw [goesOn, List.drop_append_of_le_length hle]
        rw [if_pos hle', htake]
        cases (Text.hexNumber? (text.take count)).bind Text.scalar? with
        | none => exact survives_none
        | some c => exact survives_some ⟨rfl, hdrop⟩
      · exact survives_none
    · exact goesOn.not_append ['{'] (by decide) plain

theorem survives_readCodePointEscape (count : Nat) (goesOn : GoesOn tail text longer) :
    Survives (WithSame (RestGoesOn tail)) (readCodePointEscape count text)
      (readCodePointEscape count longer) :=
  (survives_readCodePoint count goesOn).map fun _ _ ⟨hvalue, hrest⟩ =>
    ⟨congrArg Escape.character hvalue, hrest⟩

theorem survives_readProperty (goesOn : GoesOn tail text longer) :
    Survives (WithSame (RestGoesOn tail)) (readProperty text) (readProperty longer) := by
  subst goesOn
  rw [readProperty.eq_def text]
  split
  · refine (Text.survives_splitThrough? rfl).bind ?_
    rintro ⟨property, rest⟩ ⟨_, rest'⟩ ⟨rfl, hrest⟩
    exact Survives.same fun members _ => survives_some ⟨rfl, hrest⟩
  · rename_i c rest plain
    rw [List.cons_append, readProperty]
    · split
      · exact survives_none
      · cases Unicode.named? [c] with
        | none => exact survives_none
        | some members => exact survives_some ⟨rfl, rfl⟩
    · exact plain
  · exact survives_none

theorem survives_readPropertyEscape (negated : Bool) (goesOn : GoesOn tail text longer) :
    Survives (WithSame (RestGoesOn tail)) (readPropertyEscape settings negated text)
      (readPropertyEscape settings negated longer) :=
  (survives_readProperty goesOn).map fun _ _ ⟨hmembers, hrest⟩ =>
    ⟨congrArg (fun members => Escape.set ((settings.close members).negatedIf negated)) hmembers,
      hrest⟩

theorem survives_readEscape (goesOn : GoesOn tail text longer) :
    Survives (WithSame (RestGoesOn tail)) (readEscape settings text)
      (readEscape settings longer) := by
  subst goesOn
  rw [readEscape.eq_def settings text]
  split
  · exact (survives_readCodePointEscape 2 rfl).map fun _ _ h => h
  · exact (survives_readCodePointEscape 4 rfl).map fun _ _ h => h
  · exact (survives_readCodePointEscape 8 rfl).map fun _ _ h => h
  · exact (survives_readPropertyEscape false rfl).map fun _ _ h => h
  · exact (survives_readPropertyEscape true rfl).map fun _ _ h => h
  · rename_i c rest _ _ _ _ _
    rw [List.cons_append, readEscape]
    · cases escapedLetter? c with
      | none => exact survives_none
      | some escape => exact survives_some ⟨rfl, rfl⟩
    all_goals assumption
  · exact survives_none

/-! ### Bracketed sets -/

theorem survives_readNamedSet? (goesOn : GoesOn tail text longer) :
    Survives (WithSame (RestGoesOn tail)) (readNamedSet? settings text)
      (readNamedSet? settings longer) := by
  subst goesOn
  rw [readNamedSet?.eq_def settings text]
  split
  · refine (Text.survives_splitThrough? rfl).bind ?_
    rintro ⟨name, rest⟩ ⟨_, rest'⟩ ⟨rfl, hrest⟩
    refine Survives.same fun members _ => ?_
    exact (Text.survives_afterFirst? hrest).bind fun _ _ hbehind => survives_some ⟨rfl, hbehind⟩
  · exact survives_none

theorem survives_readElement (goesOn : GoesOn tail text longer) :
    Survives (WithSame (RestGoesOn tail)) (readElement settings text)
      (readElement settings longer) := by
  subst goesOn
  rw [readElement.eq_def settings text]
  split
  · exact (survives_readEscape rfl).map fun _ _ h => h
  · rename_i plain
    rw [List.cons_append, readElement]
    · exact survives_some ⟨rfl, rfl⟩
    · exact plain
  · exact survives_none

/-- No name of a set of characters has a closing parenthesis in it. -/
theorem asciiSet?_eq_none {name : List Char} (h : ')' ∈ name) :
    asciiSet? (String.ofList name) = none := by
  cases hset : asciiSet? (String.ofList name) with
  | none => rfl
  | some members =>
    rw [← String.toList_ofList (l := name)] at h
    generalize String.ofList name = text at h hset
    unfold asciiSet? at hset
    split at hset
    all_goals first
      | exact absurd h (by with_unfolding_all decide)
      | cases hset

theorem readNamedSet?_eq_none (goesOn : GoesOn tail text longer)
    (none : readNamedSet? settings text = none) : readNamedSet? settings longer = .none := by
  subst goesOn
  rw [readNamedSet?.eq_def settings text] at none
  split at none
  · rename_i rest
    have hgoesOn : GoesOn tail rest (rest ++ ')' :: tail) := rfl
    refine Option.bind_eq_none_iff.mpr fun (name, behind) hlonger =>
      Option.bind_eq_none_iff.mpr fun members hmembers => ?_
    cases hfound : Text.splitThrough? (· == ':') rest with
    | none =>
      have hname := Text.mem_of_splitThrough? (by decide) hgoesOn hfound _ hlonger
      rw [asciiSet?_eq_none] at hmembers
      · cases hmembers
      · split
        · exact (List.mem_cons.mp hname).resolve_left (by decide)
        · exact hname
    | some found =>
      obtain ⟨_, hlonger', hname, hbehind⟩ :=
        Text.survives_splitThrough? hgoesOn _ hfound
      obtain rfl := Option.some.inj (hlonger.symm.trans hlonger')
      have hrest := Option.bind_eq_none_iff.mp none _ hfound
      dsimp only at hname hrest
      rw [hname] at hrest
      have hbracket := Option.bind_eq_none_iff.mp hrest _ hmembers
      cases hafter : Text.afterFirst? ']' found.2.1 with
      | none =>
        rw [Text.afterFirst?_eq_none hbehind (by decide) hafter]
        rfl
      | some rest => cases Option.bind_eq_none_iff.mp hbracket _ hafter
  · rename_i plain
    cases text with
    | nil => rfl
    | cons c rest =>
      rw [List.cons_append, readNamedSet?]
      intro back heq
      exact plain rest ((List.cons.inj heq).1 ▸ rfl)

theorem survives_afterRangeMark? (goesOn : GoesOn tail text longer) :
    Survives (RestGoesOn tail) (afterRangeMark? text) (afterRangeMark? longer) := by
  subst goesOn
  rw [afterRangeMark?.eq_def text]
  split
  · exact survives_none
  · exact survives_none
  · rename_i rest bracket hyphen
    rw [List.cons_append, afterRangeMark?]
    · exact survives_some rfl
    · exact GoesOn.not_append rfl [']'] (by decide) bracket
    · exact GoesOn.not_append rfl ['-'] (by decide) hyphen
  · exact survives_none

theorem afterRangeMark?_eq_none (goesOn : GoesOn tail text longer)
    (none : afterRangeMark? text = none) : afterRangeMark? longer = .none := by
  subst goesOn
  rw [afterRangeMark?.eq_def text] at none
  split at none
  · rfl
  · rfl
  · cases none
  · rename_i plain
    cases text with
    | nil => rfl
    | cons c rest =>
      rw [List.cons_append, afterRangeMark?]
      all_goals
        intro back heq
        exact plain rest ((List.cons.inj heq).1 ▸ rfl)

theorem survives_readItem (goesOn : GoesOn tail text longer) :
    Survives (WithSame (RestGoesOn tail)) (readItem settings text)
      (readItem settings longer) := by
  refine (survives_readElement goesOn).bind ?_
  rintro ⟨first, rest⟩ ⟨_, rest'⟩ ⟨rfl, hrest⟩
  dsimp only
  cases hmark : afterRangeMark? rest.1 with
  | none =>
    rw [afterRangeMark?_eq_none hrest hmark]
    cases first with
    | character c => exact survives_some ⟨rfl, hrest⟩
    | set members => exact survives_some ⟨rfl, hrest⟩
    | place kind => exact survives_none
  | some behindMark =>
    obtain ⟨behindMark', hmark', hbehind⟩ := survives_afterRangeMark? hrest _ hmark
    rw [hmark']
    refine (survives_readElement hbehind).bind ?_
    rintro ⟨last, further⟩ ⟨_, further'⟩ ⟨rfl, hfurther⟩
    dsimp only
    split
    · split
      · exact survives_some ⟨rfl, hfurther⟩
      · exact survives_none
    · exact survives_none

theorem withSame_readLeading (goesOn : GoesOn tail text longer) :
    WithSame (RestGoesOn tail) (readLeading settings text) (readLeading settings longer) := by
  rw [readLeading.eq_def settings text]
  split
  · subst goesOn
    exact ⟨rfl, Text.restGoesOn_skipWhile (by decide) rfl⟩
  · subst goesOn
    exact ⟨rfl, rfl⟩
  · rename_i hyphen bracket
    rw [readLeading]
    · exact ⟨rfl, goesOn⟩
    · exact goesOn.not_append ['-'] (by decide) hyphen
    · exact goesOn.not_append [']'] (by decide) bracket

theorem withSame_readOpening (goesOn : GoesOn tail text longer) :
    WithSame (WithSame (RestGoesOn tail)) (readOpening settings text)
      (readOpening settings longer) := by
  rw [readOpening.eq_def settings text]
  split
  · rename_i rest
    subst goesOn
    have hleading : WithSame (RestGoesOn tail) (readLeading settings rest)
      (readLeading settings (rest ++ ')' :: tail)) := withSame_readLeading rfl
    exact ⟨rfl, hleading⟩
  · rename_i plain
    rw [readOpening]
    · exact ⟨rfl, withSame_readLeading goesOn⟩
    · exact goesOn.not_append ['^'] (by decide) plain

theorem survives_readOperator? (goesOn : GoesOn tail text longer) :
    Survives (WithSame (RestGoesOn tail)) (readOperator? text) (readOperator? longer) := by
  subst goesOn
  rw [readOperator?.eq_def text]
  split
  · exact survives_some ⟨rfl, rfl⟩
  · exact survives_some ⟨rfl, rfl⟩
  · exact survives_some ⟨rfl, rfl⟩
  · exact survives_none

theorem readOperator?_eq_none (goesOn : GoesOn tail text longer)
    (none : readOperator? text = none) : readOperator? longer = .none := by
  rw [readOperator?.eq_def text] at none
  split at none
  · cases none
  · cases none
  · cases none
  · rename_i both less either
    rw [readOperator?]
    · exact goesOn.not_append ['&', '&'] (by decide) both
    · exact goesOn.not_append ['-', '-'] (by decide) less
    · exact goesOn.not_append ['~', '~'] (by decide) either

theorem survives_readMembers (combine : CharacterSet → CharacterSet) (members : CharacterSet)
    (text : List Char) {longer : List Char} (goesOn : GoesOn tail text longer) :
    Survives (WithSame (RestGoesOn tail)) (readMembers settings combine members text)
      (readMembers settings combine members longer) := by
  subst goesOn
  cases text with
  | nil =>
    rw [readMembers]
    exact survives_none
  | cons c rest =>
    by_cases hclosing : c = ']'
    · subst hclosing
      rw [List.cons_append, readMembers, readMembers]
      exact survives_some ⟨rfl, rfl⟩
    by_cases hopening : c = '['
    · subst hopening
      have hgoesOn : GoesOn tail rest (rest ++ ')' :: tail) := rfl
      rw [List.cons_append, readMembers, readMembers]
      cases hnamed : readNamedSet? settings rest with
      | some found =>
        obtain ⟨⟨_, behindSet'⟩, hnamed', rfl, hbehind⟩ :=
          survives_readNamedSet? hgoesOn _ hnamed
        obtain ⟨named, behindSet⟩ := found
        rw [hnamed']
        have hlt : behindSet.1.length < ('[' :: rest).length := behindSet.cons.2
        refine (survives_readMembers combine (members.union named) behindSet.1 hbehind).bind ?_
        rintro ⟨all, further⟩ ⟨_, further'⟩ ⟨rfl, hfurther⟩
        exact survives_some ⟨rfl, hfurther⟩
      | none =>
        rw [readNamedSet?_eq_none hgoesOn hnamed]
        have hhead : WithSame (WithSame (RestGoesOn tail)) (readOpening settings rest)
          (readOpening settings (rest ++ ')' :: tail)) := withSame_readOpening hgoesOn
        have hinside : (readOpening settings rest).2.2.1.length < ('[' :: rest).length :=
          Nat.lt_succ_of_le (readOpening settings rest).2.2.2
        dsimp only
        rw [← hhead.1, ← hhead.2.1]
        refine (survives_readMembers id _ _ hhead.2.2).bind ?_
        rintro ⟨inner, behindSet⟩ ⟨_, behindSet'⟩ ⟨rfl, hbehind⟩
        have hlt : behindSet.1.length < ('[' :: rest).length := Nat.lt_trans behindSet.2 hinside
        refine (survives_readMembers combine _ _ hbehind).bind ?_
        rintro ⟨all, further⟩ ⟨_, further'⟩ ⟨rfl, hfurther⟩
        exact survives_some ⟨rfl, hfurther⟩
    · have hwhole : GoesOn tail (c :: rest) (c :: (rest ++ ')' :: tail)) := rfl
      rw [List.cons_append, readMembers, readMembers]
      · cases hoperator : readOperator? (c :: rest) with
        | some found =>
          obtain ⟨⟨_, behindOperator'⟩, hoperator', rfl, hbehind⟩ :=
            survives_readOperator? hwhole _ hoperator
          rw [hoperator']
          have hlt : found.2.1.length < (c :: rest).length := found.2.2
          refine (survives_readMembers (found.1 (combine members)) .nothing _ hbehind).bind ?_
          rintro ⟨all, further⟩ ⟨_, further'⟩ ⟨rfl, hfurther⟩
          exact survives_some ⟨rfl, hfurther⟩
        | none =>
          rw [readOperator?_eq_none hwhole hoperator]
          refine (survives_readItem hwhole).bind ?_
          rintro ⟨item, behindItem⟩ ⟨_, behindItem'⟩ ⟨rfl, hbehind⟩
          have hlt : behindItem.1.length < (c :: rest).length := behindItem.2
          refine (survives_readMembers combine (members.union item) _ hbehind).bind ?_
          rintro ⟨all, further⟩ ⟨_, further'⟩ ⟨rfl, hfurther⟩
          exact survives_some ⟨rfl, hfurther⟩
      all_goals
        rintro rfl
        contradiction
termination_by text.length

theorem survives_readSet (goesOn : GoesOn tail text longer) :
    Survives (WithSame (RestGoesOn tail)) (readSet settings text) (readSet settings longer) := by
  have hhead : WithSame (WithSame (RestGoesOn tail)) (readOpening settings text)
    (readOpening settings longer) := withSame_readOpening goesOn
  rw [readSet, readSet]
  dsimp only
  rw [← hhead.1, ← hhead.2.1]
  refine (survives_readMembers id _ _ hhead.2.2).bind ?_
  rintro ⟨members, further⟩ ⟨_, further'⟩ ⟨rfl, hfurther⟩
  exact survives_some ⟨rfl, hfurther⟩

/-! ### Patterns -/

theorem survives_readSimpleItem (c : Char) (goesOn : GoesOn tail text longer) :
    Survives (WithSame (RestGoesOn tail)) (readSimpleItem settings c text)
      (readSimpleItem settings c longer) := by
  unfold readSimpleItem
  split
  · exact (survives_readSet goesOn).map fun _ _ ⟨hmembers, hrest⟩ =>
      ⟨congrArg Pattern.set hmembers, hrest⟩
  · refine (survives_readEscape goesOn).map ?_
    rintro ⟨escape, rest⟩ ⟨_, rest'⟩ ⟨rfl, hrest⟩
    exact ⟨rfl, hrest⟩
  all_goals exact survives_some ⟨rfl, goesOn⟩

mutual

/-- **A pattern that is read, is read inside a group**, up to the closing parenthesis. -/
theorem survives_readAlternatives (settings : Settings) (text : List Char) {longer : List Char}
    (goesOn : GoesOn tail text longer) :
    Survives (WithSame (WithSame (RestGoesOn tail))) (readAlternatives settings text)
      (readAlternatives settings longer) := by
  rw [readAlternatives, readAlternatives]
  refine (survives_readItems settings text goesOn).bind ?_
  rintro ⟨items, names, settings', rest⟩ ⟨_, _, _, rest'⟩ ⟨rfl, rfl, rfl, hrest⟩
  dsimp only
  cases hbar : Text.afterFirst? '|' rest.1 with
  | none =>
    rw [Text.afterFirst?_eq_none hrest (by decide) hbar]
    exact survives_some ⟨rfl, rfl, hrest⟩
  | some behindBar =>
    obtain ⟨behindBar', hbar', hbehind⟩ := Text.survives_afterFirst? hrest _ hbar
    rw [hbar']
    have hlt : behindBar.1.length < text.length := Nat.lt_of_lt_of_le behindBar.2 rest.2
    refine (survives_readAlternatives settings' behindBar.1 hbehind).bind ?_
    rintro ⟨others, otherNames, further⟩ ⟨_, _, further'⟩ ⟨rfl, rfl, hfurther⟩
    exact survives_some ⟨rfl, rfl, hfurther⟩
termination_by (text.length, 1)

/-- The items of a sequence are read inside a group, up to a bar or the closing parenthesis. -/
theorem survives_readItems (settings : Settings) (text : List Char) {longer : List Char}
    (goesOn : GoesOn tail text longer) :
    Survives (WithSame (WithSame (WithSame (RestGoesOn tail)))) (readItems settings text)
      (readItems settings longer) := by
  subst goesOn
  cases text with
  | nil =>
    rw [List.nil_append, readItems, readItems, if_pos (.inr rfl)]
    · exact survives_some ⟨rfl, rfl, rfl, rfl⟩
    · exact fun h => absurd h (by decide)
  | cons c rest =>
    by_cases hgroup : c = '('
    · subst hgroup
      rw [List.cons_append, readItems, readItems]
      refine Survives.bind (survives_readGroupOpening rfl) ?_
      rintro ⟨opening, behindOpening⟩ ⟨_, behindOpening'⟩ ⟨rfl, hbehind⟩
      have hlt : behindOpening.1.length < ('(' :: rest).length := Nat.lt_succ_of_le behindOpening.2
      cases opening with
      | flags settings =>
        have hhead :
            behindOpening'.1.head?.any isOperator = behindOpening.1.head?.any isOperator := by
          rw [hbehind]
          cases behindOpening.1 <;> rfl
        dsimp only
        rw [hhead]
        split
        · exact survives_none
        · refine (survives_readItems settings behindOpening.1 hbehind).bind ?_
          rintro ⟨items, names, settings, further⟩ ⟨_, _, _, further'⟩ ⟨rfl, rfl, rfl, hfurther⟩
          exact survives_some ⟨rfl, rfl, rfl, hfurther⟩
      | group name inside =>
        refine (survives_readAlternatives inside behindOpening.1 hbehind).bind ?_
        rintro ⟨alternatives, innerNames, behindInner⟩ ⟨_, _, behindInner'⟩ ⟨rfl, rfl, hinner⟩
        refine (Text.survives_afterFirst? hinner).bind fun behindGroup behindGroup' hgroup => ?_
        have hgroupLt : behindGroup.1.length < ('(' :: rest).length :=
          Nat.lt_trans behindGroup.2 (Nat.lt_of_le_of_lt behindInner.2 hlt)
        refine (survives_readOperators (altAll alternatives) behindGroup.1 hgroup).bind ?_
        rintro ⟨item, behindItem⟩ ⟨_, behindItem'⟩ ⟨rfl, hitem⟩
        have hitemLt : behindItem.1.length < ('(' :: rest).length :=
          Nat.lt_of_le_of_lt behindItem.2 hgroupLt
        refine (survives_readItems settings behindItem.1 hitem).bind ?_
        rintro ⟨items, names, settings, further⟩ ⟨_, _, _, further'⟩ ⟨rfl, rfl, rfl, hfurther⟩
        exact survives_some ⟨rfl, rfl, rfl, hfurther⟩
    · rw [List.cons_append, readItems, readItems]
      · split
        · exact survives_some ⟨rfl, rfl, rfl, rfl⟩
        · split
          · exact survives_none
          · refine Survives.bind (survives_readSimpleItem c rfl) ?_
            rintro ⟨item, behindItem⟩ ⟨_, behindItem'⟩ ⟨rfl, hbehind⟩
            refine (survives_readOperators item behindItem.1 hbehind).bind ?_
            rintro ⟨item, behindOperators⟩ ⟨_, behindOperators'⟩ ⟨rfl, hoperators⟩
            have hlt : behindOperators.1.length < (c :: rest).length :=
              Nat.lt_succ_of_le (Nat.le_trans behindOperators.2 behindItem.2)
            refine (survives_readItems settings behindOperators.1 hoperators).bind ?_
            rintro ⟨items, names, settings, further⟩ ⟨_, _, _, further'⟩ ⟨rfl, rfl, rfl, hfurther⟩
            exact survives_some ⟨rfl, rfl, rfl, hfurther⟩
      all_goals exact hgroup
termination_by (text.length, 0)

end

end Pattern

end Syntagm
