import Mathlib.Data.List.Forall2
import Mathlib.Data.List.TakeWhile
import Mathlib.Data.Nat.Digits.Defs
import Syntagm.Proofs.Rendering

/-!
# What the escapes of a string stand for

A string of the notation denotes a text: each escape stands for its character, and all else for
itself (`Denotes`).  An escape is one of a few short ones, or it writes the number of a character
with hexadecimal digits, two of them behind `x`, or any number of them between braces behind `u`.

Resolving escapes takes two liberties with such numbers (`NumberRules.lenient`).  A plus sign may
stand in front of the digits, where it takes the place of one of the two behind `x`, and the string
may end before the number is complete.  So every string that is written by the rules
(`NumberRules.strict`) gets its text, but some get one that are not
(`unescapeString_eq_some_iff_denotes`).
-/

namespace Syntagm

namespace Text

/-! ### Numbers of characters -/

/-- The character with a code point. -/
theorem scalar?_eq_some_iff {point : Nat} {c : Char} :
    scalar? point = some c ↔ c.toNat = point := by
  unfold scalar?
  split
  · rename_i hvalid
    have hlt : point < UInt32.size := by
      rcases hvalid with h | ⟨_, h⟩ <;> (simp only [UInt32.size]; omega)
    have hnat (valid) : (Char.mk point.toUInt32 valid).toNat = point :=
      UInt32.toNat_ofNat_of_lt' hlt
    rw [Option.some_inj, ← Char.toNat_inj, hnat, eq_comm]
  · rename_i hinvalid
    refine iff_of_false (Option.some_ne_none c).symm ?_
    rintro rfl
    exact hinvalid c.valid

theorem foldl_hexDigit?_none (digits : List Char) :
    digits.foldl (fun n c => do return 16 * (← n) + (← hexDigit? c)) (none : Option Nat) =
      none := by
  induction digits with
  | nil => rfl
  | cons c rest ih => exact ih

theorem foldl_hexDigit? {digits : List Char} {start value : Nat} :
    digits.foldl (fun n c => do return 16 * (← n) + (← hexDigit? c)) (some start) = some value ↔
      ∃ values : List Nat, List.Forall₂ (hexDigit? · = some ·) digits values ∧
        values.foldl (fun n d => 16 * n + d) start = value := by
  induction digits generalizing start with
  | nil => simp
  | cons c rest ih =>
    rw [List.foldl_cons]
    cases hdigit : hexDigit? c with
    | none =>
      refine iff_of_false (fun h => (Option.some_ne_none value).symm
        ((foldl_hexDigit?_none rest).symm.trans h)) ?_
      rintro ⟨_, ⟨⟩ | ⟨hfirst, -⟩, -⟩
      rw [hdigit] at hfirst
      cases hfirst
    | some d =>
      refine (@ih (16 * start + d)).trans ⟨?_, ?_⟩
      · rintro ⟨values, hvalues, hvalue⟩
        exact ⟨d :: values, .cons hdigit hvalues, hvalue⟩
      · rintro ⟨_, ⟨⟩ | ⟨hfirst, hrest⟩, hvalue⟩
        rw [hdigit] at hfirst
        obtain rfl := Option.some.inj hfirst
        exact ⟨_, hrest, hvalue⟩

/-- **Hexadecimal digits**, at least one, and the number that they denote. -/
structure Hexadecimal (digits : List Char) (value : Nat) : Prop where
  nonempty : digits ≠ []
  value_eq : ∃ values, List.Forall₂ (hexDigit? · = some ·) digits values ∧
    Nat.ofDigits 16 values.reverse = value

/-- Reading hexadecimal digits gives the number that they denote. -/
theorem hexNumber?_eq_some_iff {digits : List Char} {value : Nat} :
    hexNumber? digits = some value ↔ Hexadecimal digits value := by
  have hfold (values : List Nat) :
      values.foldl (fun n d => 16 * n + d) 0 = Nat.ofDigits 16 values.reverse := by
    rw [Nat.ofDigits_eq_foldr, List.foldr_reverse]
    simp [Nat.add_comm]
  unfold hexNumber?
  cases digits with
  | nil => exact iff_of_false (Option.some_ne_none value).symm fun h => h.nonempty rfl
  | cons c rest =>
    rw [if_neg (by simp), foldl_hexDigit?]
    simp only [hfold]
    exact ⟨fun h => ⟨List.cons_ne_nil _ _, h⟩, fun h => h.value_eq⟩

theorem Hexadecimal.isSome_hexDigit? {digits : List Char} {value : Nat}
    (h : Hexadecimal digits value) : ∀ c ∈ digits, (hexDigit? c).isSome = true := by
  obtain ⟨values, hvalues, -⟩ := h.value_eq
  clear h
  induction hvalues with
  | nil => exact List.forall_mem_nil _
  | cons hfirst _ ih => exact List.forall_mem_cons.mpr ⟨by rw [hfirst]; rfl, ih⟩

end Text

namespace Notation

open Text (Hexadecimal hexNumber?_eq_some_iff)

/-! ### Escapes -/

/-- How freely the numbers in escapes may be written. -/
structure NumberRules where
  /-- Whether a plus sign may stand in front of the digits. -/
  signed : Bool
  /-- Whether a string may end inside of an escape, if the number so far has digits. -/
  cut : Bool

namespace NumberRules

/-- Digits only, and all of them. -/
def strict : NumberRules := ⟨false, false⟩

/-- What is accepted. -/
def lenient : NumberRules := ⟨true, true⟩

/-- How a number may be written in an escape. -/
inductive Writes (rules : NumberRules) : List Char → Nat → Prop where
  | digits {digits value} (number : Hexadecimal digits value) : Writes rules digits value
  | plus {digits value} (signed : rules.signed = true) (number : Hexadecimal digits value) :
    Writes rules ('+' :: digits) value

end NumberRules

/-- The characters of the short escapes, by what is written behind the backslash. -/
def shortEscapes : List (Char × Char) :=
  [('n', '\n'), ('t', '\t'), ('r', '\r'), ('0', '\x00'), ('\\', '\\'), ('"', '"')]

section Denotes
variable (rules : NumberRules)

/-- **An escape**, and the character that it stands for. -/
inductive Escape : List Char → Char → Prop where
  | short {mark c} (mem : (mark, c) ∈ shortEscapes) : Escape ['\\', mark] c
  | byte {digits c} (two : digits.length = 2) (number : rules.Writes digits c.toNat) :
    Escape ('\\' :: 'x' :: digits) c
  | point {digits c} (number : rules.Writes digits c.toNat) :
    Escape ('\\' :: 'u' :: '{' :: (digits ++ ['}'])) c

/-- An escape that lacks its end, and the character that it is taken for. -/
inductive CutEscape : List Char → Char → Prop where
  | byte {digit c} (number : rules.Writes [digit] c.toNat) : CutEscape ['\\', 'x', digit] c
  | point {digits c} (number : rules.Writes digits c.toNat) :
    CutEscape ('\\' :: 'u' :: '{' :: digits) c

/-- **The text that a string denotes**: escapes stand for their characters, and all other
characters for themselves. -/
inductive Denotes : List Char → List Char → Prop where
  | nil : Denotes [] []
  | plain {c content text} (plain : c ≠ '\\') (rest : Denotes content text) :
    Denotes (c :: content) (c :: text)
  | escape {code c content text} (first : Escape rules code c) (rest : Denotes content text) :
    Denotes (code ++ content) (c :: text)
  | cut {code c} (allowed : rules.cut = true) (last : CutEscape rules code c) : Denotes code [c]

end Denotes

/-! ### Strings that are written by the rules -/

section Mono
variable {digits code content text : List Char} {value : Nat} {c : Char}

theorem NumberRules.Writes.lenient (h : strict.Writes digits value) :
    NumberRules.lenient.Writes digits value := by
  cases h with
  | digits number => exact .digits number
  | plus signed _ => cases signed

theorem Escape.lenient (h : Escape .strict code c) : Escape .lenient code c := by
  cases h with
  | short mem => exact .short mem
  | byte two number => exact .byte two number.lenient
  | point number => exact .point number.lenient

/-- What is written by the rules is accepted. -/
theorem Denotes.lenient (h : Denotes .strict content text) : Denotes .lenient content text := by
  induction h with
  | nil => exact .nil
  | plain plain _ ih => exact .plain plain ih
  | escape first _ ih => exact .escape first.lenient ih
  | cut allowed _ => cases allowed

end Mono

/-! ### Resolving escapes -/

section Resolving
variable {digits code content text rest : List Char} {value : Nat} {c : Char}

theorem escapedNumber?_eq_some_iff :
    escapedNumber? digits = some value ↔ NumberRules.lenient.Writes digits value := by
  unfold escapedNumber?
  split
  · rename_i digits
    rw [hexNumber?_eq_some_iff]
    refine ⟨.plus rfl, fun h => ?_⟩
    cases h with
    | plus _ number => exact number
    | digits number =>
      -- the sign is no digit
      exact absurd (number.isSome_hexDigit? '+' List.mem_cons_self) (by decide)
  · rename_i unsigned
    rw [hexNumber?_eq_some_iff]
    refine ⟨.digits, fun h => ?_⟩
    cases h with
    | digits number => exact number
    | plus => exact absurd rfl (unsigned _)

/-- The character of a number in an escape. -/
theorem escapedChar?_eq_some_iff :
    (escapedNumber? digits).bind Text.scalar? = some c ↔
      NumberRules.lenient.Writes digits c.toNat := by
  rw [Option.bind_eq_some_iff]
  constructor
  · rintro ⟨value, hvalue, hscalar⟩
    rw [Text.scalar?_eq_some_iff.mp hscalar]
    exact escapedNumber?_eq_some_iff.mp hvalue
  · exact fun h => ⟨_, escapedNumber?_eq_some_iff.mpr h, Text.scalar?_eq_some_iff.mpr rfl⟩

theorem NumberRules.Writes.ne_nil {rules : NumberRules} (h : rules.Writes digits value) :
    digits ≠ [] := by
  cases h with
  | digits number => exact number.nonempty
  | plus => exact List.cons_ne_nil _ _

theorem not_mem_of_writes (h : NumberRules.lenient.Writes digits value) : '}' ∉ digits := by
  have hdigits {digits : List Char} (number : Hexadecimal digits value) : '}' ∉ digits :=
    fun hmem => absurd (number.isSome_hexDigit? '}' hmem) (by decide)
  cases h with
  | digits number => exact hdigits number
  | plus _ number => exact List.not_mem_cons_of_ne_of_not_mem (by decide) (hdigits number)

/-- A character in front of what is left, if there are both. -/
theorem bind_cons_eq_some_iff {first : Option Char} {others : Option (List Char)} :
    (do let c ← first; return c :: (← others)) = some text ↔
      ∃ c tail, first = some c ∧ others = some tail ∧ c :: tail = text := by
  cases first <;> cases others <;> simp

/-- The escape `x` takes two characters. -/
theorem unescapeString_byte : unescapeString ('\\' :: 'x' :: rest) = some text ↔
    ∃ c tail, NumberRules.lenient.Writes (rest.take 2) c.toNat ∧
      unescapeString (rest.drop 2) = some tail ∧ c :: tail = text := by
  rw [unescapeString, bind_cons_eq_some_iff]
  simp only [escapedChar?_eq_some_iff]

/-- The escape `u` takes everything up to a closing brace. -/
theorem unescapeString_point : unescapeString ('\\' :: 'u' :: '{' :: rest) = some text ↔
    ∃ c tail, NumberRules.lenient.Writes (rest.takeWhile (· ≠ '}')) c.toNat ∧
      unescapeString (rest.drop ((rest.takeWhile (· ≠ '}')).length + 1)) = some tail ∧
      c :: tail = text := by
  rw [unescapeString, bind_cons_eq_some_iff]
  simp only [escapedChar?_eq_some_iff]

/-- What stands in front of the closing brace, if there is one. -/
theorem takeWhile_ne_brace (rest : List Char) :
    rest = rest.takeWhile (· ≠ '}') ∨
      rest = rest.takeWhile (· ≠ '}') ++
        '}' :: rest.drop ((rest.takeWhile (· ≠ '}')).length + 1) := by
  induction rest with
  | nil => exact .inl rfl
  | cons c rest ih =>
    rw [List.takeWhile_cons]
    split
    · exact ih.imp (congrArg (c :: ·)) (congrArg (c :: ·))
    · rename_i hbrace
      obtain rfl : c = '}' := by simpa using hbrace
      exact .inr rfl

theorem takeWhile_append_brace (h : '}' ∉ digits) :
    (digits ++ '}' :: rest).takeWhile (· ≠ '}') = digits := by
  rw [List.takeWhile_append_of_pos, List.takeWhile_cons_of_neg (by simp), List.append_nil]
  exact fun c hmem => decide_eq_true fun heq => h (heq ▸ hmem)

/-- **An escape is resolved** to its character. -/
theorem unescapeString_code (h : Escape .lenient code c)
    (others : unescapeString content = some text) :
    unescapeString (code ++ content) = some (c :: text) := by
  cases h with
  | short mem =>
    simp only [shortEscapes, List.mem_cons, Prod.mk.injEq, List.not_mem_nil, or_false] at mem
    obtain ⟨rfl, rfl⟩ | ⟨rfl, rfl⟩ | ⟨rfl, rfl⟩ | ⟨rfl, rfl⟩ | ⟨rfl, rfl⟩ | ⟨rfl, rfl⟩ := mem <;>
      rw [List.cons_append, List.singleton_append, unescapeString, others, Option.map_some]
  | @byte digits _ two number =>
    rw [List.cons_append, List.cons_append]
    refine unescapeString_byte.mpr ⟨c, text, ?_, ?_, rfl⟩
    · rwa [← two, List.take_left]
    · rwa [← two, List.drop_left]
  | @point digits _ number =>
    rw [List.cons_append, List.cons_append, List.cons_append, List.append_assoc,
      List.singleton_append]
    refine unescapeString_point.mpr ⟨c, text, ?_, ?_, rfl⟩
    · rwa [takeWhile_append_brace (not_mem_of_writes number)]
    · rw [takeWhile_append_brace (not_mem_of_writes number), List.append_cons,
        ← List.length_singleton, ← List.length_append, List.drop_left]
      exact others

/-- An escape that lacks its end is resolved, too. -/
theorem unescapeString_cut (h : CutEscape .lenient code c) : unescapeString code = some [c] := by
  have hnil : unescapeString [] = some [] := by rw [unescapeString]
  cases h with
  | byte number => exact unescapeString_byte.mpr ⟨c, [], number, hnil, rfl⟩
  | @point digits _ number =>
    have hall : digits.takeWhile (· ≠ '}') = digits := by
      refine List.takeWhile_eq_self_iff.mpr fun c hmem => decide_eq_true fun heq => ?_
      exact not_mem_of_writes number (heq ▸ hmem)
    refine unescapeString_point.mpr ⟨c, [], ?_, ?_, rfl⟩
    · rwa [hall]
    · rwa [hall, List.drop_eq_nil_of_le (Nat.le_succ _)]

/-- **What a string denotes is what its escapes are resolved to.** -/
theorem Denotes.unescapeString_eq (h : Denotes .lenient content text) :
    unescapeString content = some text := by
  induction h with
  | nil => rw [unescapeString]
  | plain plain _ ih => rw [unescapeString_cons plain, ih, Option.map_some]
  | escape first _ ih => exact unescapeString_code first ih
  | cut _ last => exact unescapeString_cut last

/-- **What the escapes of a string are resolved to is what it denotes.** -/
theorem denotes_of_unescapeString (h : unescapeString content = some text) :
    Denotes .lenient content text := by
  have short {mark c : Char} {rest tail : List Char} (mem : (mark, c) ∈ shortEscapes)
      (others : Denotes .lenient rest tail) :
      Denotes .lenient ('\\' :: mark :: rest) (c :: tail) := .escape (.short mem) others
  induction content using unescapeString.induct generalizing text with
  | case1 =>
    rw [unescapeString] at h
    obtain rfl := Option.some.inj h
    exact .nil
  | case2 rest ih | case3 rest ih | case4 rest ih | case5 rest ih | case6 rest ih
  | case7 rest ih =>
    rw [unescapeString] at h
    obtain ⟨tail, htail, rfl⟩ := Option.map_eq_some_iff.mp h
    exact short (by decide) (ih htail)
  | case8 rest ih =>
    obtain ⟨c, tail, hnumber, htail, rfl⟩ := unescapeString_byte.mp h
    rcases rest with _ | ⟨first, _ | ⟨second, rest⟩⟩
    · exact absurd rfl hnumber.ne_nil
    · -- only one digit is left
      rw [List.drop_eq_nil_of_le (by simp), unescapeString] at htail
      obtain rfl := Option.some.inj htail
      exact .cut rfl (.byte hnumber)
    · exact .escape (.byte rfl hnumber) (ih htail)
  | case9 rest ih =>
    obtain ⟨c, tail, hnumber, htail, rfl⟩ := unescapeString_point.mp h
    rcases takeWhile_ne_brace rest with hrest | hrest
    · rw [← hrest, List.drop_eq_nil_of_le (Nat.le_succ _), unescapeString] at htail
      obtain rfl := Option.some.inj htail
      rw [hrest]
      exact .cut rfl (.point hnumber)
    · have hescape := Denotes.escape (.point hnumber) (ih htail)
      rw [List.cons_append, List.cons_append, List.cons_append, List.append_assoc,
        List.singleton_append, ← hrest] at hescape
      exact hescape
  | case10 =>
    rw [unescapeString] at h
    · cases h
    all_goals assumption
  | case11 c rest _ _ _ _ _ _ _ _ plain ih =>
    rw [unescapeString_cons plain] at h
    obtain ⟨tail, htail, rfl⟩ := Option.map_eq_some_iff.mp h
    exact .plain plain (ih htail)

/-! ### Strings that are not written by the rules -/

/-- Where no plus sign stands and no escape lacks its end, only what is written by the rules is
accepted. -/
theorem Denotes.strict (h : Denotes .lenient content text) (unsigned : '+' ∉ content)
    (uncut : ∀ front code c, content = front ++ code → ¬ CutEscape .lenient code c) :
    Denotes .strict content text := by
  have writes {digits : List Char} {value : Nat} (number : NumberRules.lenient.Writes digits value)
      (unsigned : '+' ∉ digits) : NumberRules.strict.Writes digits value := by
    cases number with
    | digits number => exact .digits number
    | plus => exact absurd List.mem_cons_self unsigned
  induction h with
  | nil => exact .nil
  | plain plain _ ih =>
    refine .plain plain (ih (List.not_mem_of_not_mem_cons unsigned) fun front code c heq => ?_)
    exact uncut (_ :: front) code c (by rw [heq, List.cons_append])
  | @escape code c content text first _ ih =>
    rw [List.mem_append, not_or] at unsigned
    refine .escape ?_ (ih unsigned.2 fun front code' c heq => ?_)
    · cases first with
      | short mem => exact .short mem
      | byte two number => exact .byte two (writes number fun hmem => unsigned.1 (by simp [hmem]))
      | point number => exact .point (writes number fun hmem => unsigned.1 (by simp [hmem]))
    · exact uncut (code ++ front) code' c (by rw [heq, List.append_assoc])
  | @cut code c _ last => exact absurd last (uncut [] code c rfl)

/-- By the strict rules two digits follow behind `x`. -/
theorem Denotes.exists_digits (h : Denotes .strict ('\\' :: 'x' :: rest) text) :
    ∃ digits value, digits <+: rest ∧ digits.length = 2 ∧ Hexadecimal digits value := by
  generalize hcontent : '\\' :: 'x' :: rest = content at h
  cases h with
  | nil => cases hcontent
  | plain plain => exact absurd (List.cons.inj hcontent).1.symm plain
  | cut allowed => cases allowed
  | @escape code c content text first _ =>
    cases first with
    | @short mark _ mem =>
      obtain ⟨rfl, -⟩ := List.cons.inj (List.cons.inj hcontent).2
      simp [shortEscapes] at mem
    | @byte digits _ two number =>
      cases number with
      | digits number =>
        exact ⟨digits, _, ⟨content, (List.cons.inj (List.cons.inj hcontent).2).2.symm⟩, two, number⟩
      | plus signed => cases signed
    | point => exact absurd (List.cons.inj (List.cons.inj hcontent).2).1 (by decide)

/-- **What a string token is read as.**  Its escapes are resolved if and only if it denotes a text,
by the lenient rules, and the result is that text; otherwise it is refused.  By the strict rules all
of this holds of strings without a plus sign that do not end in an escape without its end, and a
string that denotes a text by the strict rules always gets it.  So every text can be written, and
to resolve its escapes undoes escaping it. -/
theorem unescapeString_eq_some_iff_denotes (content : List Char) :
    (∀ text, unescapeString content = some text ↔ Denotes .lenient content text) ∧
      (∀ text, Denotes .strict content text → unescapeString content = some text) ∧
      ('+' ∉ content →
        (∀ front code c, content = front ++ code → ¬ CutEscape .lenient code c) →
        ∀ text, unescapeString content = some text ↔ Denotes .strict content text) ∧
      unescapeString (escapeString content) = some content ∧
      ∀ offset rest, (∀ text, ¬ Denotes .lenient content text) →
        readString (⟨.string (String.ofList content), offset⟩ :: rest) =
          refuse (⟨.string (String.ofList content), offset⟩ :: rest) .invalidEscape := by
  have hlenient (text : List Char) :
      unescapeString content = some text ↔ Denotes .lenient content text :=
    ⟨denotes_of_unescapeString, Denotes.unescapeString_eq⟩
  refine ⟨hlenient, fun text h => (hlenient text).mpr h.lenient, fun unsigned uncut text => ?_,
    unescapeString_escapeString content, fun offset rest hnone => ?_⟩
  · exact (hlenient text).trans ⟨fun h => h.strict unsigned uncut, Denotes.lenient⟩
  · have hrefused : unescapeString content = none :=
      Option.eq_none_iff_forall_ne_some.mpr fun text h => hnone text ((hlenient text).mp h)
    rw [readString, String.toList_ofList, hrefused]

/-- **Numbers that are not written by the rules.**  One digit at the end of a string is taken for a
character, and so is a plus sign with one digit. -/
theorem unescapeString_oneDigit :
    (unescapeString ['\\', 'x', '4'] = some ['\x04'] ∧
      ∀ text, ¬ Denotes .strict ['\\', 'x', '4'] text) ∧
      (unescapeString ['\\', 'x', '+', '5'] = some ['\x05'] ∧
        ∀ text, ¬ Denotes .strict ['\\', 'x', '+', '5'] text) ∧
      (Grammar.ofNotation "s : \"\\x4\" ;").toOption.isSome = true := by
  refine ⟨⟨by with_unfolding_all decide, fun text h => ?_⟩,
    ⟨by with_unfolding_all decide, fun text h => ?_⟩, by with_unfolding_all decide⟩
  · obtain ⟨digits, value, hfront, htwo, -⟩ := h.exists_digits
    exact absurd hfront.length_le (by simp [htwo])
  · obtain ⟨digits, value, hfront, htwo, hnumber⟩ := h.exists_digits
    obtain rfl := hfront.eq_of_length htwo
    exact absurd (hnumber.isSome_hexDigit? '+' List.mem_cons_self) (by decide)

end Resolving

end Notation

end Syntagm
