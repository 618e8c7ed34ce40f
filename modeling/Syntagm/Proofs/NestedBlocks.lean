import Syntagm.Proofs.Scanning

/-!
# Blocks inside blocks

A block is its opening delimiter, items, and its closing delimiter; an item is a block again or a
single character.  At each place the closing delimiter goes before an opening one, and that goes
before a character.  This is a recursive rule (`Block`), under which a text may also end before a
block is closed (`RunsOff`).

The scanner does not recur.  It counts the blocks that are open, and goes on until there are none.
Reading the items of one block leads it from a count to the count below, whatever the blocks around
it are (`ClosesWith.nestedLength?`), and a text that runs off leaves it without an end at every
count (`RunsOff.nestedLength?`).  Since every text does one or the other, both find the same blocks.
-/

namespace Syntagm

namespace Scan

variable (opening closing : List Char)

/-! ### The recursive rule -/

/-- **What follows the opening delimiter of a block**: items, and the closing delimiter.  Behind it
comes `rest`. -/
inductive ClosesWith : (items rest : List Char) → Prop where
  | closed {rest} : ClosesWith closing rest
  | block {inner items rest} (more : ¬ closing <+: opening ++ (inner ++ (items ++ rest)))
      (block : ClosesWith inner (items ++ rest)) (others : ClosesWith items rest) :
      ClosesWith (opening ++ (inner ++ items)) rest
  | character {c items rest} (more : ¬ closing <+: c :: (items ++ rest))
      (plain : ¬ opening <+: c :: (items ++ rest)) (others : ClosesWith items rest) :
      ClosesWith (c :: items) rest

/-- **A block** with `rest` behind it. -/
def Block (block rest : List Char) : Prop :=
  ∃ items, block = opening ++ items ∧ ClosesWith opening closing items rest

/-- **What follows an opening delimiter runs off the end of the text**: the text ends between two
items, or inside a block. -/
inductive RunsOff : (text : List Char) → Prop where
  | ended : RunsOff []
  | inside {text} (more : ¬ closing <+: opening ++ text) (inner : RunsOff text) :
      RunsOff (opening ++ text)
  | block {inner text} (more : ¬ closing <+: opening ++ (inner ++ text))
      (block : ClosesWith opening closing inner text) (others : RunsOff text) :
      RunsOff (opening ++ (inner ++ text))
  | character {c text} (more : ¬ closing <+: c :: text) (plain : ¬ opening <+: c :: text)
      (others : RunsOff text) : RunsOff (c :: text)

variable {opening closing}

/-- **The rule reads every text** to the end of the block or off its end. -/
theorem closesWith_or_runsOff (opens : opening ≠ []) (text : List Char) :
    (∃ items rest, text = items ++ rest ∧ ClosesWith opening closing items rest) ∨
      RunsOff opening closing text := by
  induction hlength : text.length using Nat.strongRecOn generalizing text with
  | _ length ih =>
    have shorter : ∀ other : List Char, other.length < text.length →
        (∃ items rest, other = items ++ rest ∧ ClosesWith opening closing items rest) ∨
          RunsOff opening closing other :=
      fun other hlt => ih other.length (hlength ▸ hlt) other rfl
    by_cases hcloses : closing <+: text
    · obtain ⟨rest, rfl⟩ := hcloses
      exact .inl ⟨closing, rest, rfl, .closed⟩
    by_cases hopens : opening <+: text
    · obtain ⟨behind, rfl⟩ := hopens
      have hpositive := List.length_pos_iff.mpr opens
      rcases shorter behind (by rw [List.length_append]; omega) with
        ⟨inner, rest, rfl, hinner⟩ | hoff
      -- a block is read, and then the items behind it
      · rcases shorter rest (by simp only [List.length_append]; omega) with
          ⟨items, rest, rfl, hitems⟩ | hoff
        · refine .inl ⟨opening ++ (inner ++ items), rest, by simp only [List.append_assoc], ?_⟩
          exact .block hcloses hinner hitems
        · exact .inr (.block hcloses hinner hoff)
      · exact .inr (.inside hcloses hoff)
    cases text with
    | nil => exact .inr .ended
    | cons c behind =>
      rcases shorter behind (Nat.lt_succ_self _) with ⟨items, rest, rfl, hitems⟩ | hoff
      · exact .inl ⟨c :: items, rest, rfl, .character hcloses hopens hitems⟩
      · exact .inr (.character hcloses hopens hoff)

/-! ### Steps of the scanner -/

section Steps
variable {depth : Nat} {c : Char} {rest : List Char}

/-- A closing delimiter closes the innermost block. -/
theorem nestedLength?_closing (closes : closing ≠ []) :
    nestedLength? opening closing (depth + 1) (closing ++ rest) =
      (nestedLength? opening closing depth rest).map (closing.length + ·) := by
  obtain ⟨c, tail, rfl⟩ := List.exists_cons_of_ne_nil closes
  have hstarts : startsWith (c :: (tail ++ rest)) (c :: tail) = true :=
    startsWith_append _ _
  rw [List.cons_append, nestedLength?, if_pos hstarts, List.length_cons, Nat.add_sub_cancel,
    List.drop_left]
  refine congrArg (Option.map · _) (funext fun length => ?_)
  omega

/-- An opening delimiter opens a block. -/
theorem nestedLength?_opening (opens : opening ≠ []) (more : ¬ closing <+: opening ++ rest) :
    nestedLength? opening closing (depth + 1) (opening ++ rest) =
      (nestedLength? opening closing (depth + 2) rest).map (opening.length + ·) := by
  obtain ⟨c, tail, rfl⟩ := List.exists_cons_of_ne_nil opens
  have hstarts : startsWith (c :: (tail ++ rest)) (c :: tail) = true :=
    startsWith_append _ _
  have hmore : ¬ startsWith (c :: (tail ++ rest)) closing = true := fun h =>
    more (startsWith_iff.mp h)
  rw [List.cons_append, nestedLength?, if_neg hmore, if_pos hstarts, List.length_cons,
    Nat.add_sub_cancel, List.drop_left]
  refine congrArg (Option.map · _) (funext fun length => ?_)
  omega

/-- Any other character is skipped. -/
theorem nestedLength?_character (more : ¬ closing <+: c :: rest)
    (plain : ¬ opening <+: c :: rest) :
    nestedLength? opening closing (depth + 1) (c :: rest) =
      (nestedLength? opening closing (depth + 1) rest).map (1 + ·) := by
  rw [nestedLength?, if_neg fun h => more (startsWith_iff.mp h),
    if_neg fun h => plain (startsWith_iff.mp h)]
  exact congrArg (Option.map · _) (funext fun length => Nat.add_comm _ _)

end Steps

/-! ### The scanner and the rule -/

section Agreement
variable (opens : opening ≠ []) (closes : closing ≠ []) (depth : Nat)
include opens closes

/-- **Reading the items of a block closes it**: the scanner is led from one count to the count
below. -/
theorem ClosesWith.nestedLength? {items rest : List Char}
    (h : ClosesWith opening closing items rest) :
    nestedLength? opening closing (depth + 1) (items ++ rest) =
      (nestedLength? opening closing depth rest).map (items.length + ·) := by
  induction h generalizing depth with
  | closed => exact nestedLength?_closing closes
  | block more _ _ ihBlock ihOthers =>
    simp only [List.append_assoc] at more ⊢
    rw [nestedLength?_opening opens more, ihBlock (depth + 1), ihOthers depth, Option.map_map,
      Option.map_map]
    refine congrArg (Option.map · _) (funext fun length => ?_)
    simp only [Function.comp_apply, List.length_append]
    omega
  | character more plain _ ih =>
    rw [List.cons_append, nestedLength?_character more plain, ih depth, Option.map_map]
    refine congrArg (Option.map · _) (funext fun length => ?_)
    simp only [Function.comp_apply, List.length_cons]
    omega

/-- **A text that runs off** has no end for the scanner, however many blocks are open. -/
theorem RunsOff.nestedLength? {text : List Char} (h : RunsOff opening closing text) :
    nestedLength? opening closing (depth + 1) text = none := by
  induction h generalizing depth with
  | ended => simp [Scan.nestedLength?]
  | inside more _ ih => rw [nestedLength?_opening opens more, ih (depth + 1), Option.map_none]
  | block more block _ ih =>
    rw [nestedLength?_opening opens more, block.nestedLength? opens closes (depth + 1), ih depth]
    rfl
  | character more plain _ ih =>
    rw [nestedLength?_character more plain, ih depth, Option.map_none]

end Agreement

end Scan

namespace Matcher

open Scan

section Nested
variable {opening closing : String} (opens : opening ≠ "") (closes : closing ≠ "")
include opens closes

/-- The scan of a text whose block is closed. -/
theorem scan?_nested_of_closesWith {items rest : List Char}
    (h : ClosesWith opening.toList closing.toList items rest) :
    (Matcher.nested opening closing).scan? (opening.toList ++ (items ++ rest)) =
      some ⟨(opening.toList ++ items).length, none⟩ := by
  have hlength := h.nestedLength? (mt String.toList_eq_nil_iff.mp opens)
    (mt String.toList_eq_nil_iff.mp closes) 0
  rw [Scan.nestedLength?, Option.map_some] at hlength
  rw [scan?, ofConstruct?_of_some opens hlength, List.length_append]
  rfl

/-- The scan of a text whose block is not closed. -/
theorem scan?_nested_of_runsOff {text : List Char}
    (h : RunsOff opening.toList closing.toList text) :
    (Matcher.nested opening closing).scan? (opening.toList ++ text) =
      some ⟨(opening.toList ++ text).length, some ⟨.nestedComment, opening, closing⟩⟩ := by
  have hlength := h.nestedLength? (mt String.toList_eq_nil_iff.mp opens)
    (mt String.toList_eq_nil_iff.mp closes) 0
  rw [scan?, ofConstruct?_of_none opens hlength]

end Nested

/-- **Counting open blocks finds the blocks of the recursive rule.**  Where a text starts with the
opening delimiter, the scanner takes a part of it as closed exactly if this part is a block.  It
takes the whole text and misses an end exactly if the rule runs off the text.  One of the two
happens. -/
theorem scan?_nested {opening closing : String} (opens : opening ≠ "") (closes : closing ≠ "")
    (rest : List Char) :
    let text := opening.toList ++ rest
    (∀ length, (Matcher.nested opening closing).scan? text = some ⟨length, none⟩ ↔
      length ≤ text.length ∧
        Block opening.toList closing.toList (text.take length) (text.drop length)) ∧
    ((Matcher.nested opening closing).scan? text =
        some ⟨text.length, some ⟨.nestedComment, opening, closing⟩⟩ ↔
      RunsOff opening.toList closing.toList rest) ∧
    ((∃ length ≤ text.length,
        Block opening.toList closing.toList (text.take length) (text.drop length)) ∨
      RunsOff opening.toList closing.toList rest) := by
  intro text
  have hblock : ∀ length, length ≤ text.length →
      Block opening.toList closing.toList (text.take length) (text.drop length) →
      (Matcher.nested opening closing).scan? text = some ⟨length, none⟩ := by
    rintro length hle ⟨items, htake, hitems⟩
    have hscan := scan?_nested_of_closesWith opens closes hitems
    rwa [← List.append_assoc, ← htake, List.take_append_drop, List.length_take_of_le hle] at hscan
  have apart (length : Nat) (fault : Unterminated) :
      some (⟨length, none⟩ : Scan) ≠ some ⟨text.length, some fault⟩ := by simp
  obtain ⟨items, others, heq, hitems⟩ | hoff :
      (∃ items others, rest = items ++ others ∧
        ClosesWith opening.toList closing.toList items others) ∨
        RunsOff opening.toList closing.toList rest :=
    closesWith_or_runsOff (mt String.toList_eq_nil_iff.mp opens) rest
  · have hscan := scan?_nested_of_closesWith opens closes hitems
    have htext : text = (opening.toList ++ items) ++ others := by
      rw [List.append_assoc, ← heq]
    rw [← heq] at hscan
    have hread : (opening.toList ++ items).length ≤ text.length ∧
        Block opening.toList closing.toList (text.take (opening.toList ++ items).length)
          (text.drop (opening.toList ++ items).length) := by
      rw [htext, List.take_left, List.drop_left]
      exact ⟨(List.prefix_append _ _).length_le, items, rfl, hitems⟩
    refine ⟨fun length => ⟨fun h => ?_, fun h => hblock length h.1 h.2⟩,
      ⟨fun h => absurd (hscan.symm.trans h) (apart _ _), fun hoff => ?_⟩, .inl ⟨_, hread⟩⟩
    · obtain ⟨rfl, -⟩ := Scan.mk.inj (Option.some.inj (hscan.symm.trans h))
      exact hread
    · exact absurd (hscan.symm.trans (scan?_nested_of_runsOff opens closes hoff)) (apart _ _)
  · have hscan := scan?_nested_of_runsOff opens closes hoff
    exact ⟨fun length => ⟨fun h => absurd (h.symm.trans hscan) (apart _ _),
      fun h => hblock length h.1 h.2⟩, ⟨fun _ => hoff, fun _ => hscan⟩, .inr hoff⟩

/-- Delimiters that share a character: in `(*)` the asterisk opens, so nothing closes, and
in `(*(*é*)*)` the inner block is closed first. -/
theorem scan?_nested_sharing :
    "(*" ≠ "" ∧ "*)" ≠ "" ∧
      (Matcher.nested "(*" "*)").scan? ['(', '*', ')'] =
        some ⟨3, some ⟨.nestedComment, "(*", "*)"⟩⟩ ∧
      (Matcher.nested "(*" "*)").scan? ['(', '*', '(', '*', 'é', '*', ')', '*', ')', ')'] =
        some ⟨9, none⟩ := by
  have hopens : "(*" ≠ "" := by decide
  have hcloses : "*)" ≠ "" := by decide
  refine ⟨hopens, hcloses, ?_, ?_⟩
  · have hoff : RunsOff "(*".toList "*)".toList [')'] := .character (by decide) (by decide) .ended
    exact (scan?_nested hopens hcloses [')']).2.1.mpr hoff
  · have hinner : ClosesWith "(*".toList "*)".toList ['é', '*', ')'] ['*', ')', ')'] :=
      .character (by decide) (by decide) .closed
    have hitems : ClosesWith "(*".toList "*)".toList ['(', '*', 'é', '*', ')', '*', ')'] [')'] :=
      .block (by decide) hinner .closed
    exact ((scan?_nested hopens hcloses ['(', '*', 'é', '*', ')', '*', ')', ')']).1 9).mpr
      ⟨by decide, _, rfl, hitems⟩

end Matcher

end Syntagm
