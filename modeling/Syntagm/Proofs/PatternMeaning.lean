import Mathlib.Computability.Language
import Mathlib.Logic.Relation
import Syntagm.Proofs.WordPattern

/-!
# What patterns mean

Patterns are made with the operations of languages: products, sums and stars.  So a pattern has a
meaning wherever there are such operations, once it is said what one character and a place mean
(`Pattern.meaning`).

**Stretches.**  Since a pattern can ask what stands around a place, what it matches is a stretch of
a text between two cursors.  Relations between cursors have the operations, and the meaning of a
pattern among them are the stretches that it takes (`Pattern.takes`).

**Languages.**  Words become stretches with all operations (`Stretches.spelled`).  So a pattern that
asks for no places takes the stretches that are in its language, wherever they stand
(`Pattern.takes_eq_spelled`).
-/

namespace Syntagm

open Computability

/-! ### Meanings -/

/-- **A way to understand patterns**: what one character of a set means, and what a place means. -/
structure Pattern.Interpretation (K : Type) where
  set : (Char → Bool) → K
  anchor : Anchor → K

namespace Pattern

variable {K : Type} [Semiring K] [KStar K] (interpretation : Interpretation K)

/-- **The meaning of a pattern.** -/
def meaning : Pattern → K
  | .empty => 1
  | .set member => interpretation.set member
  | .anchor kind => interpretation.anchor kind
  | .seq first second => first.meaning * second.meaning
  | .alt first second => first.meaning + second.meaning
  | .repetition least none inner => inner.meaning ^ least * inner.meaning∗
  | .repetition least (some most) inner =>
    inner.meaning ^ least * (1 + inner.meaning) ^ (most - least)

theorem seqAll_cons_cons (first second : Pattern) (rest : List Pattern) :
    seqAll (first :: second :: rest) = .seq first (seqAll (second :: rest)) := rfl

theorem altAll_cons_cons (first second : Pattern) (rest : List Pattern) :
    altAll (first :: second :: rest) = .alt first (altAll (second :: rest)) := rfl

theorem meaning_seqAll (patterns : List Pattern) :
    (seqAll patterns).meaning interpretation =
      (patterns.map (meaning interpretation)).prod := by
  induction patterns with
  | nil => rfl
  | cons first rest ih =>
    cases rest with
    | nil => simp [seqAll]
    | cons second rest => rw [seqAll_cons_cons, meaning, ih, ← List.prod_cons, ← List.map_cons]

theorem meaning_altAll {patterns : List Pattern} (ne : patterns ≠ []) :
    (altAll patterns).meaning interpretation =
      (patterns.map (meaning interpretation)).sum := by
  induction patterns with
  | nil => exact absurd rfl ne
  | cons first rest ih =>
    cases rest with
    | nil => simp [altAll]
    | cons second rest =>
      rw [altAll_cons_cons, meaning, ih (List.cons_ne_nil _ _), ← List.sum_cons, ← List.map_cons]

theorem ofText_eq_seqAll (text : List Char) :
    ofText text = seqAll (text.map fun c => .set (· == c)) := by
  induction text with
  | nil => rfl
  | cons c rest ih =>
    cases rest with
    | nil => rfl
    | cons d rest => exact congrArg (Pattern.seq _) ih

/-- Whether a pattern asks for no places. -/
def isPlain : Pattern → Bool
  | .empty | .set _ => true
  | .anchor _ => false
  | .seq first second | .alt first second => first.isPlain && second.isPlain
  | .repetition _ _ inner => inner.isPlain

end Pattern

/-! ### Maps between meanings -/

/-- **A map that keeps the operations** takes the meaning of a pattern without places to its
meaning. -/
theorem Pattern.map_meaning {K L : Type} [Semiring K] [KStar K] [Semiring L] [KStar L]
    (f : K →+* L) (kstar : ∀ x, f x∗ = (f x)∗) {first : Interpretation K}
    {second : Interpretation L} (set : ∀ member, f (first.set member) = second.set member)
    {pattern : Pattern} (plain : pattern.isPlain = true) :
    f (pattern.meaning first) = pattern.meaning second := by
  induction pattern with
  | empty => exact map_one f
  | set member => exact set member
  | anchor kind => cases plain
  | seq x y ih ih' =>
    obtain ⟨hx, hy⟩ := Bool.and_eq_true_iff.mp plain
    simp only [meaning, map_mul, ih hx, ih' hy]
  | alt x y ih ih' =>
    obtain ⟨hx, hy⟩ := Bool.and_eq_true_iff.mp plain
    simp only [meaning, map_add, ih hx, ih' hy]
  | repetition least most inner ih =>
    cases most with
    | none => simp only [meaning, map_mul, map_pow, kstar, ih plain]
    | some most => simp only [meaning, map_mul, map_pow, map_add, map_one, ih plain]

/-! ### Stretches of a text -/

/-- Stretches of a text, each from one cursor to another. -/
def Stretches (text : List Char) : Type := Cursor text → Cursor text → Prop

namespace Stretches

variable {text : List Char}

theorem ext {x y : Stretches text} (h : ∀ here there, x here there ↔ y here there) : x = y :=
  funext fun here => funext fun there => propext (h here there)

instance : Zero (Stretches text) := ⟨fun _ _ => False⟩

/-- The empty stretches. -/
instance : One (Stretches text) := ⟨Eq⟩

/-- The stretches of either kind. -/
instance : Add (Stretches text) := ⟨fun x y here there => x here there ∨ y here there⟩

/-- A stretch of the one kind with one of the other kind behind it. -/
instance : Mul (Stretches text) := ⟨Relation.Comp⟩

/-- Any number of stretches, each behind the one before. -/
instance : KStar (Stretches text) := ⟨Relation.ReflTransGen⟩

instance : Semiring (Stretches text) where
  add_assoc _ _ _ := ext fun _ _ => or_assoc
  add_comm _ _ := ext fun _ _ => or_comm
  zero_add _ := ext fun _ _ => Iff.of_eq (false_or _)
  add_zero _ := ext fun _ _ => Iff.of_eq (or_false _)
  mul_assoc _ _ _ := Relation.comp_assoc
  one_mul _ := Relation.eq_comp
  mul_one _ := Relation.comp_eq
  zero_mul _ := ext fun _ _ => ⟨fun ⟨_, h, _⟩ => h, False.elim⟩
  mul_zero _ := ext fun _ _ => ⟨fun ⟨_, _, h⟩ => h, False.elim⟩
  left_distrib _ _ _ := ext fun _ _ =>
    ⟨fun ⟨middle, h, h'⟩ => h'.imp (⟨middle, h, ·⟩) (⟨middle, h, ·⟩),
      fun h => h.elim (fun ⟨middle, h, h'⟩ => ⟨middle, h, .inl h'⟩)
        fun ⟨middle, h, h'⟩ => ⟨middle, h, .inr h'⟩⟩
  right_distrib _ _ _ := ext fun _ _ =>
    ⟨fun ⟨middle, h, h'⟩ => h.imp (⟨middle, ·, h'⟩) (⟨middle, ·, h'⟩),
      fun h => h.elim (fun ⟨middle, h, h'⟩ => ⟨middle, .inl h, h'⟩)
        fun ⟨middle, h, h'⟩ => ⟨middle, .inr h, h'⟩⟩
  nsmul := nsmulRec

variable {x y : Stretches text} {here there : Cursor text}

theorem mul_iff : (x * y) here there ↔ ∃ middle, x here middle ∧ y middle there := Iff.rfl

theorem add_self (x : Stretches text) : x + x = x := ext fun _ _ => or_self_iff

/-- One round more is no round, or a round and those that were there before. -/
theorem one_add_pow_succ (x : Stretches text) (count : Nat) :
    (1 + x) ^ (count + 1) = 1 + x * (1 + x) ^ count := by
  induction count with
  | zero => rw [pow_zero, zero_add, pow_one, mul_one]
  | succ count ih =>
    have habsorb : (1 + x) ^ count + (1 + x) ^ (count + 1) = (1 + x) ^ (count + 1) := by
      rw [pow_succ', add_mul, one_mul, ← add_assoc, add_self]
    calc (1 + x) ^ (count + 1 + 1)
        = (1 + x) ^ (count + 1) + x * (1 + x) ^ (count + 1) := by rw [pow_succ', add_mul, one_mul]
      _ = 1 + x * (1 + x) ^ count + x * (1 + x) ^ (count + 1) :=
        congrArg (· + x * (1 + x) ^ (count + 1)) ih
      _ = 1 + x * (1 + x) ^ (count + 1) := by rw [add_assoc, ← mul_add, habsorb]

end Stretches

/-- A character of a set is a step, a place is a stay; `isWord` says which characters make
words. -/
def Pattern.Interpretation.stretches (isWord : Char → Bool) (text : List Char) :
    Pattern.Interpretation (Stretches text) where
  set member here there := ∃ c, here.next? = some (c, there) ∧ member c = true
  anchor kind here there := here = there ∧ kind.holds isWord here = true

/-- **The stretches that a pattern takes.** -/
def Pattern.takes (isWord : Char → Bool) (text : List Char) : Pattern → Stretches text :=
  meaning (.stretches isWord text)

/-! ### Languages -/

namespace Cursor

variable {text : List Char} {here there : Cursor text}

/-- A cursor is given by its place. -/
theorem ext {first second : Cursor text} (h : first.taken = second.taken) : first = second := by
  cases first
  cases second
  simp_all

/-- The next character and the place after it. -/
theorem of_next? {c : Char} (h : here.next? = some (c, there)) :
    there.taken = here.taken + 1 ∧ here.rest = c :: there.rest := by
  cases hrest : here.rest with
  | nil =>
    rw [next?_of_nil hrest] at h
    cases h
  | cons d rest =>
    obtain ⟨next, hnext, htaken, hbehind⟩ := exists_next? hrest
    obtain ⟨rfl, rfl⟩ := Prod.mk.inj (Option.some.inj (hnext.symm.trans h))
    exact ⟨htaken, by rw [hbehind]⟩

theorem ext_rest (h : here.rest = there.rest) : here = there := by
  have hlength := congrArg List.length h
  rw [here.length_rest, there.length_rest] at hlength
  have := here.taken_le
  have := there.taken_le
  exact ext (by omega)

/-- The cursor behind so many characters. -/
def behind (text : List Char) (taken : Nat) (le : taken ≤ text.length) : Cursor text where
  taken := taken
  before := (text.take taken).getLast?
  rest := text.drop taken
  rest_eq := rfl
  before_eq := rfl
  taken_le := le

/-- There is a cursor behind every word that comes next. -/
theorem exists_behind {word rest : List Char} (h : here.rest = word ++ rest) :
    ∃ there : Cursor text, there.rest = rest := by
  have hlength := congrArg List.length h
  rw [here.length_rest, List.length_append] at hlength
  have := here.taken_le
  refine ⟨behind text (here.taken + word.length) (by omega), ?_⟩
  show text.drop _ = _
  rw [← List.drop_drop, ← here.rest_eq, h, List.drop_left]

end Cursor

namespace Stretches

variable {text : List Char}

/-- **Words become stretches**, with all operations. -/
def spelled (text : List Char) : Language Char →+* Stretches text where
  toFun language here there := ∃ word ∈ language, here.rest = word ++ there.rest
  map_zero' := ext fun _ _ => ⟨fun ⟨_, hword, _⟩ => hword, False.elim⟩
  map_one' := ext fun here there => by
    refine ⟨fun ⟨word, hword, hrest⟩ => ?_, fun heq => ⟨[], rfl, congrArg Cursor.rest heq⟩⟩
    obtain rfl := (Language.mem_one word).mp hword
    exact Cursor.ext_rest hrest
  map_add' first second := ext fun here there => by
    simp only [Language.mem_add, or_and_right, exists_or]
    rfl
  map_mul' first second := ext fun here there => by
    constructor
    · rintro ⟨_, hword, hrest⟩
      obtain ⟨front, hfront, back, hback, rfl⟩ := Language.mem_mul.mp hword
      rw [List.append_assoc] at hrest
      obtain ⟨middle, hmiddle⟩ := Cursor.exists_behind hrest
      exact ⟨middle, ⟨front, hfront, by rw [hmiddle, hrest]⟩, back, hback, hmiddle⟩
    · rintro ⟨middle, ⟨front, hfront, hrest⟩, back, hback, hmiddle⟩
      exact ⟨front ++ back, Language.append_mem_mul hfront hback,
        by rw [hrest, hmiddle, List.append_assoc]⟩

theorem spelled_iff {language : Language Char} {here there : Cursor text} :
    spelled text language here there ↔ ∃ word ∈ language, here.rest = word ++ there.rest :=
  Iff.rfl

theorem kstar_iff_exists_pow {x : Stretches text} {here there : Cursor text} :
    x∗ here there ↔ ∃ count : Nat, (x ^ count) here there := by
  constructor
  · intro path
    induction path with
    | refl => exact ⟨0, rfl⟩
    | tail _ hlast ih =>
      obtain ⟨count, hcount⟩ := ih
      exact ⟨count + 1, pow_succ x count ▸ ⟨_, hcount, hlast⟩⟩
  · rintro ⟨count, hcount⟩
    induction count generalizing there with
    | zero => exact hcount ▸ .refl
    | succ count ih =>
      rw [pow_succ] at hcount
      obtain ⟨middle, hfront, hlast⟩ := hcount
      exact .tail (ih hfront) hlast

theorem spelled_kstar (language : Language Char) :
    spelled text language∗ = (spelled text language)∗ := ext fun here there => by
  simp only [kstar_iff_exists_pow, ← map_pow]
  constructor
  · rintro ⟨word, hword, hrest⟩
    rw [Language.kstar_eq_iSup_pow, Language.mem_iSup] at hword
    obtain ⟨count, hcount⟩ := hword
    exact ⟨count, word, hcount, hrest⟩
  · rintro ⟨count, word, hword, hrest⟩
    rw [spelled_iff, Language.kstar_eq_iSup_pow]
    exact ⟨word, Language.mem_iSup.mpr ⟨count, hword⟩, hrest⟩

/-- A stretch at the start of a text is a prefix of it. -/
theorem exists_spelled_start_iff {language : Language Char} {length : Nat} :
    (∃ there : Cursor text, spelled text language (.start text) there ∧ there.taken = length) ↔
      length ≤ text.length ∧ text.take length ∈ language := by
  constructor
  · rintro ⟨there, ⟨word, hword, hrest⟩, rfl⟩
    refine ⟨there.taken_le, ?_⟩
    have htext : text = word ++ text.drop there.taken := there.rest_eq ▸ hrest
    rw [← List.append_cancel_right (htext.symm.trans (List.take_append_drop there.taken text).symm)]
    exact hword
  · rintro ⟨le, hword⟩
    exact ⟨.behind text length le, ⟨_, hword, (List.take_append_drop length text).symm⟩, rfl⟩

end Stretches

/-- **Stretches of every text**: what is matched there. -/
def Matching : Type := (text : List Char) → Stretches text

namespace Matching

instance : Semiring Matching := inferInstanceAs (Semiring ((text : List Char) → Stretches text))

instance : KStar Matching := ⟨fun x text => (x text)∗⟩

/-- The stretches that spell a word of a language, in every text. -/
def spelled : Language Char →+* Matching := RingHom.pi Stretches.spelled

theorem spelled_apply (language : Language Char) (text : List Char) :
    spelled language text = Stretches.spelled text language := rfl

theorem spelled_kstar (language : Language Char) : spelled language∗ = (spelled language)∗ :=
  funext fun _ => Stretches.spelled_kstar language

/-- A language is known from what is spelled in all texts. -/
theorem spelled_injective : Function.Injective spelled := by
  intro first second h
  ext word
  have hstart (language : Language Char) :
      (∃ there : Cursor word, spelled language word (.start word) there ∧
        there.taken = word.length) ↔ word ∈ language := by
    rw [spelled_apply, Stretches.exists_spelled_start_iff, List.take_length]
    exact and_iff_right (Nat.le_refl _)
  rw [← hstart first, ← hstart second, h]

end Matching

namespace Pattern

/-- A character of a set is a word of one character.  Places have no words; they say nothing
here. -/
def Interpretation.words : Interpretation (Language Char) where
  set member := {word | ∃ c, member c = true ∧ word = [c]}
  anchor _ := 1

/-- **The language of a pattern.**  It says nothing of a pattern that asks for places. -/
def language : Pattern → Language Char := meaning .words

variable {isWord : Char → Bool} {text : List Char}

open Stretches (spelled)

/-- **A plain pattern takes what is in its language**, wherever it stands. -/
theorem takes_eq_spelled {pattern : Pattern} (plain : pattern.isPlain = true) :
    pattern.takes isWord text = spelled text pattern.language := by
  refine (map_meaning (spelled text) Stretches.spelled_kstar (fun member => ?_) plain).symm
  refine Stretches.ext fun here there => ⟨?_, ?_⟩
  · rintro ⟨_, ⟨c, hmember, rfl⟩, hrest⟩
    obtain ⟨next, hnext, -, hbehind⟩ := Cursor.exists_next? hrest
    obtain rfl := Cursor.ext_rest hbehind
    exact ⟨c, hnext, hmember⟩
  · rintro ⟨c, hnext, hmember⟩
    exact ⟨[c], ⟨c, hmember, rfl⟩, (Cursor.of_next? hnext).2⟩

/-- The language of a text has that text alone. -/
theorem language_ofText (text : List Char) : (ofText text).language = {text} := by
  rw [ofText_eq_seqAll, language, meaning_seqAll, List.map_map]
  induction text with
  | nil => rfl
  | cons c rest ih =>
    have hfirst : meaning .words (.set (· == c)) = {[c]} := by
      ext word
      show (∃ d, (d == c) = true ∧ word = [d]) ↔ word = [c]
      simp
    rw [List.map_cons, List.prod_cons, ih, Function.comp_apply, hfirst, Language.mul_def]
    exact Set.image2_singleton

theorem isPlain_ofText (text : List Char) : (ofText text).isPlain = true := by
  induction text with
  | nil => rfl
  | cons c rest ih =>
    cases rest with
    | nil => rfl
    | cons d rest => exact ih

end Pattern

end Syntagm
