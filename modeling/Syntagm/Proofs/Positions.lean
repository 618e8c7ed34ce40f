import Mathlib.Data.List.TakeWhile
import Syntagm.Proofs.Tiling
import Syntagm.Text.LineIndex

/-!
# Lines and columns of a text

A position can be found by reading the text in front of it, or by looking up its offset in the line
index of the text.  Reading can be done in parts, each from the position that the one before has
reached.

All of this agrees but at one kind of place.  A carriage return and a line feed behind it are one
line break.  Where a text is cut between the two (`CutsPair`), reading the first part ends a line,
and reading the second part ends another one: the lines behind are counted one too high
(`Position.advance_cut`).  The index knows one line break and takes the place for the last byte of
its line (`LineIndex.position_insidePair`).
-/

namespace Syntagm.Text

/-! ### Cuts inside a pair -/

/-- **A cut between a carriage return and the line feed** of the same line break. -/
def CutsPair (front back : List Char) : Prop :=
  (∃ head, front = head ++ ['\r']) ∧ ∃ tail, back = '\n' :: tail

/-- An offset between the carriage return and the line feed of a line break. -/
def InsidePair (text : List Char) (offset : Nat) : Prop :=
  ∃ front back, text = front ++ back ∧ byteLength front = offset ∧ CutsPair front back

section CutsPair
variable {c : Char} {front rest back : List Char}

theorem insidePair_iff : InsidePair (front ++ back) (byteLength front) ↔ CutsPair front back := by
  constructor
  · rintro ⟨front', back', htext, hlength, hcut⟩
    obtain ⟨middle, rfl, rfl⟩ := exists_of_append_eq htext (Nat.le_of_eq hlength.symm)
    obtain rfl : middle = [] := eq_nil_of_byteLength (by
      rw [byteLength_append] at hlength
      omega)
    rwa [List.append_nil] at hcut
  · exact fun hcut => ⟨front, back, rfl, rfl, hcut⟩

theorem CutsPair.cons (h : CutsPair rest back) : CutsPair (c :: rest) back := by
  obtain ⟨⟨head, rfl⟩, hback⟩ := h
  exact ⟨⟨c :: head, rfl⟩, hback⟩

theorem cutsPair_singleton : CutsPair [c] rest ↔ c = '\r' ∧ ∃ tail, rest = '\n' :: tail := by
  refine and_congr_left fun _ => ⟨?_, fun hc => ⟨[], by rw [hc]; rfl⟩⟩
  rintro ⟨head, heq⟩
  cases head with
  | nil => exact (List.cons.inj heq).1
  | cons c' head => exact absurd (List.cons.inj heq).2 (by simp)

theorem cutsPair_cons :
    CutsPair front (c :: rest) ↔ (∃ head, front = head ++ ['\r']) ∧ c = '\n' := by
  refine and_congr_right fun _ => ⟨?_, fun hc => ⟨rest, by rw [hc]⟩⟩
  rintro ⟨tail, heq⟩
  exact (List.cons.inj heq).1

/-- A character that begins no pair begins none where more text follows. -/
theorem not_cutsPair_append (single : ¬ CutsPair [c] rest) (uncut : ¬ CutsPair (c :: rest) back) :
    ¬ CutsPair [c] (rest ++ back) := by
  intro hcut
  obtain ⟨rfl, tail, htail⟩ := cutsPair_singleton.mp hcut
  cases rest with
  | nil => exact uncut ⟨⟨[], rfl⟩, tail, htail⟩
  | cons c' rest =>
    obtain ⟨rfl, -⟩ := List.cons.inj htail
    exact single (cutsPair_singleton.mpr ⟨rfl, rest, rfl⟩)

/-- The case split of the functions that read line breaks. -/
theorem not_cutsPair_of_cases (h : ∀ tail, c = '\r' → rest = '\n' :: tail → False) :
    ¬ CutsPair [c] rest := fun hcut =>
  have ⟨hc, tail, htail⟩ := cutsPair_singleton.mp hcut
  h tail hc htail

end CutsPair

/-! ### Reading a text in parts -/

namespace Position

variable {position : Position} {c : Char} {front back rest : List Char}

/-- A position some lines further down. -/
def down (position : Position) (lines : Nat) : Position :=
  ⟨position.line + lines, position.column⟩

theorem down_eq_self_iff {lines : Nat} : position.down lines = position ↔ lines = 0 := by
  cases position
  simp [down]

theorem down_down (first second : Nat) :
    (position.down first).down second = position.down (first + second) := by
  rw [down, down, down, Nat.add_assoc]

theorem advance_pair :
    position.advance ('\r' :: '\n' :: rest) = position.nextLine.advance rest := by
  rw [advance]

theorem advance_cons (single : ¬ CutsPair [c] rest) :
    position.advance (c :: rest) =
      if isLineBreak c then position.nextLine.advance rest
      else advance { position with column := position.column + c.utf8Size } rest := by
  rw [advance]
  rintro tail rfl rfl
  exact single (cutsPair_singleton.mpr ⟨rfl, tail, rfl⟩)

/-- **Reading a text in two parts** reaches the same position, unless the cut is inside a pair. -/
theorem advance_append (uncut : ¬ CutsPair front back) :
    position.advance (front ++ back) = (position.advance front).advance back := by
  induction position, front using advance.induct with
  | case1 position => rfl
  | case2 position rest ih =>
    rw [List.cons_append, List.cons_append, advance_pair, advance_pair,
      ih fun hcut => uncut hcut.cons.cons]
  | case3 position c rest single hbreak ih =>
    have hsingle := not_cutsPair_of_cases single
    rw [List.cons_append, advance_cons (not_cutsPair_append hsingle uncut), advance_cons hsingle,
      if_pos hbreak, if_pos hbreak, ih fun hcut => uncut hcut.cons]
  | case4 position c rest single hbreak ih =>
    have hsingle := not_cutsPair_of_cases single
    rw [List.cons_append, advance_cons (not_cutsPair_append hsingle uncut), advance_cons hsingle,
      if_neg hbreak, if_neg hbreak, ih fun hcut => uncut hcut.cons]

/-- A text is read the same way on every line. -/
theorem advance_down (lines : Nat) (text : List Char) :
    (position.down lines).advance text = (position.advance text).down lines := by
  have hnext (position : Position) :
      (position.down lines).nextLine = position.nextLine.down lines := by
    rw [nextLine, down, nextLine, down, Nat.add_right_comm]
  induction position, text using advance.induct with
  | case1 position => rfl
  | case2 position rest ih => rw [advance_pair, advance_pair, hnext, ih]
  | case3 position c rest single hbreak ih =>
    rw [advance_cons (not_cutsPair_of_cases single), advance_cons (not_cutsPair_of_cases single),
      if_pos hbreak, if_pos hbreak, hnext, ih]
  | case4 position c rest single hbreak ih =>
    rw [advance_cons (not_cutsPair_of_cases single), advance_cons (not_cutsPair_of_cases single),
      if_neg hbreak, if_neg hbreak]
    exact ih

theorem not_cutsPair_return (front rest : List Char) : ¬ CutsPair front ('\r' :: rest) :=
  fun ⟨_, _, htail⟩ => absurd (List.cons.inj htail).1 (by decide)

/-- A carriage return at the end of a text ends a line. -/
theorem advance_return :
    position.advance (front ++ ['\r']) = (position.advance front).nextLine := by
  have hlast : ¬ CutsPair ['\r'] [] := fun ⟨_, _, htail⟩ => nomatch htail
  rw [advance_append (not_cutsPair_return front []), advance_cons hlast, if_pos (by decide),
    advance]

/-- **A cut inside a pair** makes two line breaks of one. -/
theorem advance_cut (cut : CutsPair front back) :
    (position.advance front).advance back = (position.advance (front ++ back)).down 1 := by
  obtain ⟨⟨head, rfl⟩, tail, rfl⟩ := cut
  have hfeed : ¬ CutsPair ['\n'] tail := fun hcut =>
    absurd (cutsPair_singleton.mp hcut).1 (by decide)
  rw [advance_return, advance_cons hfeed, if_pos (by decide), List.append_assoc,
    List.singleton_append, advance_append (not_cutsPair_return _ _), advance_pair, ← advance_down]
  rfl

end Position

/-! ### Looking up an offset -/

namespace LineIndex

open Position

variable {c : Char} {front back rest : List Char}

theorem startsAfterBreaks_pair (offset : Nat) :
    startsAfterBreaks offset ('\r' :: '\n' :: rest) =
      (offset + 2) :: startsAfterBreaks (offset + 2) rest := by
  rw [startsAfterBreaks]

theorem startsAfterBreaks_cons (single : ¬ CutsPair [c] rest) (offset : Nat) :
    startsAfterBreaks offset (c :: rest) =
      if isLineBreak c then
        (offset + c.utf8Size) :: startsAfterBreaks (offset + c.utf8Size) rest
      else startsAfterBreaks (offset + c.utf8Size) rest := by
  rw [startsAfterBreaks]
  rintro tail rfl rfl
  exact single (cutsPair_singleton.mpr ⟨rfl, tail, rfl⟩)

/-- Lines start behind a line break. -/
theorem lt_of_mem_startsAfterBreaks {offset next : Nat} {text : List Char}
    (h : next ∈ startsAfterBreaks offset text) : offset < next := by
  induction offset, text using startsAfterBreaks.induct with
  | case1 => cases h
  | case2 offset rest ih =>
    rw [startsAfterBreaks_pair, List.mem_cons] at h
    rcases h with rfl | h
    · omega
    · exact Nat.lt_of_le_of_lt (Nat.le_add_right _ _) (ih h)
  | case3 offset c rest single _ hbreak ih =>
    rw [startsAfterBreaks_cons (not_cutsPair_of_cases single), if_pos hbreak, List.mem_cons] at h
    rcases h with rfl | h
    · exact Nat.lt_add_of_pos_right (Char.utf8Size_pos c)
    · exact Nat.lt_of_le_of_lt (Nat.le_add_right _ _) (ih h)
  | case4 offset c rest single _ hbreak ih =>
    rw [startsAfterBreaks_cons (not_cutsPair_of_cases single), if_neg hbreak] at h
    exact Nat.lt_of_le_of_lt (Nat.le_add_right _ _) (ih h)

/-- **The line that an offset is on**, and its column there, found among the lines that start
behind `start`.  The offset is `extra` bytes behind `front`, and no line starts between. -/
theorem advance_eq_takeWhile (base extra : Nat) (front : List Char) (uncut : ¬ CutsPair front back)
    (inside : ∀ next ∈ startsAfterBreaks (base + byteLength front) back,
      base + byteLength front + extra < next) :
    ∀ start line, start ≤ base →
      let offset := base + byteLength front + extra
      let upTo := (startsAfterBreaks base (front ++ back)).takeWhile (· ≤ offset)
      line + upTo.length = (advance ⟨line, base - start⟩ front).line ∧
        offset - upTo.getLastD start = (advance ⟨line, base - start⟩ front).column + extra := by
  induction base, front using startsAfterBreaks.induct with
  | case1 base =>
    intro start line reached offset upTo
    have hnone : upTo = [] := by
      refine List.takeWhile_eq_nil_iff.mpr fun hpositive => ?_
      have hlt := inside _ (List.get_mem _ ⟨0, hpositive⟩)
      rw [decide_eq_true_iff]
      exact Nat.not_le_of_gt hlt
    rw [hnone]
    refine ⟨rfl, ?_⟩
    show base + extra - start = base - start + extra
    omega
  | case2 base rest ih =>
    intro start line reached
    have hsize : byteLength ('\r' :: '\n' :: rest) = 2 + byteLength rest := by
      rw [byteLength_cons, byteLength_cons, ← Nat.add_assoc]
      rfl
    rw [hsize, ← Nat.add_assoc] at inside ⊢
    have hrest := ih (fun hcut => uncut hcut.cons.cons) inside (base + 2) (line + 1) (Nat.le_refl _)
    rw [Nat.sub_self] at hrest
    simp only [List.cons_append, startsAfterBreaks_pair, advance_pair, nextLine]
    rw [List.takeWhile_cons, if_pos (by simp; omega), List.length_cons, List.getLastD_cons,
      ← hrest.1, ← hrest.2]
    exact ⟨by omega, rfl⟩
  | case3 base c rest single next hbreak ih =>
    intro start line reached
    have hsingle := not_cutsPair_of_cases single
    have hboth := not_cutsPair_append hsingle uncut
    rw [byteLength_cons, ← Nat.add_assoc] at inside ⊢
    have hrest := ih (fun hcut => uncut hcut.cons) inside next (line + 1) (Nat.le_refl _)
    simp +zetaDelta only [Nat.sub_self] at hrest
    simp only [List.cons_append, startsAfterBreaks_cons hboth, advance_cons hsingle, if_pos hbreak,
      nextLine]
    rw [List.takeWhile_cons, if_pos (by simp; omega), List.length_cons, List.getLastD_cons,
      ← hrest.1, ← hrest.2]
    exact ⟨by omega, rfl⟩
  | case4 base c rest single next hbreak ih =>
    intro start line reached
    have hsingle := not_cutsPair_of_cases single
    have hboth := not_cutsPair_append hsingle uncut
    rw [byteLength_cons, ← Nat.add_assoc] at inside ⊢
    have hrest := ih (fun hcut => uncut hcut.cons) inside start line
      (Nat.le_add_right_of_le reached)
    simp +zetaDelta only [Nat.sub_add_comm reached] at hrest
    simp only [List.cons_append, startsAfterBreaks_cons hboth, advance_cons hsingle, if_neg hbreak]
    exact hrest

/-- **The position of an offset** that is `extra` bytes behind `front`, if no line starts
between. -/
theorem position_ofText {extra : Nat} (uncut : ¬ CutsPair front back)
    (inside : ∀ next ∈ startsAfterBreaks (byteLength front) back, byteLength front + extra < next)
    (fits : extra ≤ byteLength back) :
    (ofText (front ++ back)).position (byteLength front + extra) =
      ⟨(origin.advance front).line, (origin.advance front).column + extra⟩ := by
  have hfits : byteLength front + extra ≤ byteLength (front ++ back) := by
    rw [byteLength_append]
    omega
  obtain ⟨hline, hcolumn⟩ := advance_eq_takeWhile 0 extra front uncut (by rwa [Nat.zero_add]) 0 0
    (Nat.le_refl _)
  simp only [Nat.zero_add, Nat.sub_self] at hline hcolumn
  simp only [position, ofText, Nat.min_eq_left hfits]
  rw [List.takeWhile_cons, if_pos (by simp), List.length_cons, Nat.add_sub_cancel,
    List.getLastD_cons, hline, hcolumn]
  rfl

/-- **The index agrees with reading** the text in front of an offset, unless the offset is inside a
pair. -/
theorem position_byteLength (uncut : ¬ CutsPair front back) :
    (ofText (front ++ back)).position (byteLength front) = origin.advance front :=
  position_ofText uncut (fun _ hmem => lt_of_mem_startsAfterBreaks hmem) (Nat.zero_le _)

/-- **Inside a pair** the index sees the last byte of a line. -/
theorem position_insidePair (front back : List Char) :
    (ofText (front ++ '\r' :: '\n' :: back)).position (byteLength front + 1) =
      ⟨(origin.advance front).line, (origin.advance front).column + 1⟩ := by
  refine position_ofText (not_cutsPair_return _ _) (fun next hmem => ?_)
    (Nat.le_add_right_of_le (Char.utf8Size_pos _))
  rw [startsAfterBreaks_pair, List.mem_cons] at hmem
  rcases hmem with rfl | hmem
  · omega
  · exact Nat.lt_of_lt_of_le (Nat.lt_succ_self _) (Nat.le_of_lt (lt_of_mem_startsAfterBreaks hmem))

end LineIndex

end Syntagm.Text
