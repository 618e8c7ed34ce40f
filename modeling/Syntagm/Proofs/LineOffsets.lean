import Mathlib.Algebra.Group.Nat.Defs
import Syntagm.Proofs.Positions

/-!
# From offsets to positions and back

The index of a text gives each offset a position, and finds the offset again from the position: the
position names the line that the offset is on, and how far behind the start of that line it is
(`LineIndex.Locates`).  This holds of every offset, also of one inside a character or inside a pair
of carriage return and line feed, as long as offsets fit into the words that they are kept in.

The lines of a text start one behind the other, so an offset farther on has a position farther on.
Where the text can be cut, the position is the one that reading the text in front leads to
(`LineIndex.conversion_ofText`).

**Positions that nobody made from an offset** may have any line and column.  What is found for them
is right as long as the column is not cut down to its low bits (`LineIndex.offset?_ofText`).
-/

namespace Syntagm.Text

namespace Position

/-- Whether a position is in front of another one: that one is not up to it. -/
def IsBefore (first second : Position) : Prop := second.isUpTo first = false

/-- Positions are in order by line, then by column. -/
theorem isBefore_iff {first second : Position} :
    first.IsBefore second ↔
      first.line < second.line ∨ first.line = second.line ∧ first.column < second.column := by
  rw [IsBefore, isUpTo, decide_eq_false_iff_not]
  omega

end Position

namespace LineIndex

/-! ### The line of an offset -/

/-- **An offset is at a position**: the line starts `column` bytes in front of it, and the next line
starts behind it. -/
structure Locates (index : LineIndex) (offset : Nat) (position : Position) : Prop where
  start : ∃ start, index.starts[position.line]? = some start ∧ start + position.column = offset
  next : ∀ next, index.starts[position.line + 1]? = some next → offset < next

/-- The starts of lines, cut behind the last one that is not behind an offset. -/
theorem exists_last_start {index : LineIndex} (first : index.starts.head? = some 0)
    (offset : Nat) : ∃ front start behind, index.starts = front ++ start :: behind ∧
      index.starts.takeWhile (· ≤ offset) = front ++ [start] ∧ start ≤ offset ∧
      ∀ next, behind.head? = some next → offset < next := by
  obtain ⟨rest, hstarts⟩ := List.head?_eq_some_iff.mp first
  -- the first line starts at or before every offset
  have hnonempty : index.starts.takeWhile (· ≤ offset) ≠ [] := by
    rw [hstarts, List.takeWhile_cons, if_pos (by simp)]
    exact List.cons_ne_nil _ _
  obtain ⟨front, start, hupTo⟩ := (List.eq_nil_or_concat _).resolve_left hnonempty
  rw [List.concat_eq_append] at hupTo
  refine ⟨front, start, index.starts.dropWhile (· ≤ offset), ?_, hupTo, ?_, fun next hnext => ?_⟩
  · rw [List.append_cons, ← hupTo, List.takeWhile_append_dropWhile]
  · have hmem : start ∈ index.starts.takeWhile (· ≤ offset) := by rw [hupTo]; simp
    simpa using List.mem_takeWhile_imp hmem
  · have hstop := List.head?_dropWhile_not (· ≤ offset) index.starts
    rw [hnext] at hstop
    simpa using hstop

/-- **The position of an offset** is where the offset is. -/
theorem locates_position {index : LineIndex} (first : index.starts.head? = some 0) {offset : Nat}
    (le : offset ≤ index.length) : index.Locates offset (index.position offset) := by
  obtain ⟨front, start, behind, hstarts, hupTo, hle, hnext⟩ := exists_last_start first offset
  have hposition : index.position offset = ⟨front.length, offset - start⟩ := by
    simp [position, Nat.min_eq_left le, hupTo]
  rw [hposition]
  refine ⟨⟨start, ?_, Nat.add_sub_cancel' hle⟩, fun next hfound => hnext next ?_⟩
  · simp [hstarts]
  · simpa [hstarts, List.getElem?_append_right, List.head?_eq_getElem?] using hfound

/-- What is found on a line: the sum of its start and the column is a word. -/
theorem offset?_eq_some_iff {index : LineIndex} {position : Position} {start : Nat}
    (found : index.starts[position.line]? = some start) {offset : Nat} :
    index.offset? position = some offset ↔ offset = (start + position.column) % 2 ^ 32 ∧
      offset ≤ (index.starts[position.line + 1]?).getD index.length := by
  have hword : (start.toUInt32 + position.column.toUInt32).toNat =
      (start + position.column) % 2 ^ 32 := by
    rw [UInt32.toNat_add]
    simp only [Nat.toUInt32, UInt32.toNat_ofNat']
    omega
  simp only [offset?, found, Option.bind_eq_bind, Option.bind_some, hword]
  constructor
  · intro h
    split at h
    · obtain rfl := Option.some.inj h
      exact ⟨rfl, ‹_›⟩
    · cases h
  · rintro ⟨rfl, hle⟩
    exact if_pos hle

/-- **From a position back to the offset.**  Offsets are kept in words of 32 bits. -/
theorem Locates.offset?_eq {index : LineIndex} {offset : Nat} {position : Position}
    (h : index.Locates offset position) (le : offset ≤ index.length)
    (small : index.length < 2 ^ 32) : index.offset? position = some offset := by
  obtain ⟨⟨start, hstart, hcolumn⟩, hnext⟩ := h
  have hstop : offset ≤ (index.starts[position.line + 1]?).getD index.length := by
    cases hfound : index.starts[position.line + 1]? with
    | none => exact le
    | some next => exact Nat.le_of_lt (hnext next hfound)
  rw [offset?_eq_some_iff hstart, hcolumn, Nat.mod_eq_of_lt (Nat.lt_of_le_of_lt le small)]
  exact ⟨rfl, hstop⟩

/-- **Offsets in order have positions in order**, if lines start one behind the other. -/
theorem Locates.isBefore {index : LineIndex} {offset later : Nat} {position after : Position}
    (h : index.Locates offset position) (h' : index.Locates later after)
    (ascending : index.starts.Pairwise (· < ·)) (lt : offset < later) :
    position.IsBefore after := by
  rw [Position.isBefore_iff]
  obtain ⟨⟨start, hstart, hcolumn⟩, -⟩ := h
  obtain ⟨⟨start', hstart', hcolumn'⟩, hnext'⟩ := h'
  rcases Nat.lt_trichotomy position.line after.line with hlt | heq | hgt
  · exact .inl hlt
  · rw [heq] at hstart
    obtain rfl := Option.some.inj (hstart.symm.trans hstart')
    exact .inr ⟨heq, by omega⟩
  · -- the line behind that of the later offset would start in front of it
    obtain ⟨hlength, rfl⟩ := List.getElem?_eq_some_iff.mp hstart
    have hinside : after.line + 1 < index.starts.length := Nat.lt_of_le_of_lt hgt hlength
    have hbehind := hnext' _ (List.getElem?_eq_getElem hinside)
    have hle : index.starts[after.line + 1] ≤ index.starts[position.line] := by
      rcases Nat.lt_or_eq_of_le (show after.line + 1 ≤ position.line from hgt) with hlt | heq
      · exact Nat.le_of_lt (List.pairwise_iff_getElem.mp ascending _ _ hinside hlength hlt)
      · simp only [heq, Nat.le_refl]
    omega

/-! ### The lines of a text -/

/-- Lines start one behind the other. -/
theorem pairwise_startsAfterBreaks (offset : Nat) (text : List Char) :
    (startsAfterBreaks offset text).Pairwise (· < ·) := by
  induction offset, text using startsAfterBreaks.induct with
  | case1 => exact .nil
  | case2 offset rest ih =>
    rw [startsAfterBreaks_pair]
    exact List.pairwise_cons.mpr ⟨fun _ => lt_of_mem_startsAfterBreaks, ih⟩
  | case3 offset c rest single _ hbreak ih =>
    rw [startsAfterBreaks_cons (not_cutsPair_of_cases single), if_pos hbreak]
    exact List.pairwise_cons.mpr ⟨fun _ => lt_of_mem_startsAfterBreaks, ih⟩
  | case4 offset c rest single _ hbreak ih =>
    rw [startsAfterBreaks_cons (not_cutsPair_of_cases single), if_neg hbreak]
    exact ih

theorem pairwise_starts_ofText (text : List Char) : (ofText text).starts.Pairwise (· < ·) :=
  List.pairwise_cons.mpr ⟨fun _ => lt_of_mem_startsAfterBreaks, pairwise_startsAfterBreaks 0 text⟩

/-- **Offsets and positions of a text.**  The position of every offset up to the end leads back to
the offset, and an offset farther on has a position farther on.  Where a character starts or the
text ends, but for the inside of a pair, the position is the one that reading the text in front
leads to.  Reading a text in two parts leads to the same position as reading it at once, unless the
cut is inside a pair. -/
theorem conversion_ofText (text : List Char) (small : byteLength text < 2 ^ 32) :
    let index := ofText text
    (∀ offset ≤ byteLength text, index.offset? (index.position offset) = some offset) ∧
      (∀ offset later, offset < later → later ≤ byteLength text →
        (index.position offset).IsBefore (index.position later)) ∧
      (∀ offset front back, splitBytes? text offset = some (front, back) →
        ¬ InsidePair text offset → index.position offset = Position.origin.advance front) ∧
      ∀ (position : Position) (front back : List Char), ¬ CutsPair front back →
        position.advance (front ++ back) = (position.advance front).advance back := by
  intro index
  have hlocates {offset : Nat} (le : offset ≤ byteLength text) :
      index.Locates offset (index.position offset) := locates_position rfl le
  refine ⟨fun offset le => (hlocates le).offset?_eq le small, fun offset later lt le => ?_, ?_,
    fun _ _ _ uncut => Position.advance_append uncut⟩
  · exact (hlocates (Nat.le_of_lt (Nat.lt_of_lt_of_le lt le))).isBefore (hlocates le)
      (pairwise_starts_ofText text) lt
  · intro offset front back hsplit hinside
    obtain ⟨rfl, rfl⟩ := of_splitBytes? hsplit
    exact position_byteLength (mt insidePair_iff.mpr hinside)

/-- A text with a pair behind a character of two bytes: offsets inside either of them are found
again, and only inside the pair reading and looking up go apart. -/
theorem conversion_ofText_pair :
    let text := ['é', '\r', '\n', 'x']
    let index := ofText text
    byteLength text < 2 ^ 32 ∧
      index.offset? (index.position 1) = some 1 ∧ index.offset? (index.position 3) = some 3 ∧
      (index.position 3).IsBefore (index.position 4) ∧
      splitBytes? text 4 = some (['é', '\r', '\n'], ['x']) ∧ ¬ InsidePair text 4 ∧
      index.position 4 = Position.origin.advance ['é', '\r', '\n'] ∧
      (Position.origin.advance ['é']).advance ['\r', '\n', 'x'] =
        Position.origin.advance text := by
  intro text index
  have hsmall : byteLength text < 2 ^ 32 := by decide
  obtain ⟨hfound, hbefore, hread, hparts⟩ := conversion_ofText text hsmall
  have hsplit : splitBytes? text 4 = some (['é', '\r', '\n'], ['x']) := by decide
  have houtside : ¬ InsidePair text 4 := fun hinside =>
    absurd ((@insidePair_iff ['é', '\r', '\n'] ['x']).mp hinside).2 (by simp)
  have huncut : ¬ CutsPair ['é'] ['\r', '\n', 'x'] := Position.not_cutsPair_return _ _
  exact ⟨hsmall, hfound 1 (by decide), hfound 3 (by decide), hbefore 3 4 (by decide) (by decide),
    hsplit, houtside, hread 4 _ _ hsplit houtside, (hparts .origin ['é'] _ huncut).symm⟩

/-! ### Any position -/

/-- **A position leads to an offset**: its line is one of the text and starts `column` bytes in
front of the offset, which is not behind the start of the next line, or the end of the text. -/
structure Reaches (index : LineIndex) (position : Position) (offset : Nat) : Prop where
  start : ∃ start, index.starts[position.line]? = some start ∧ start + position.column = offset
  stop : offset ≤ (index.starts[position.line + 1]?).getD index.length

/-- Lines start inside the text. -/
theorem le_of_mem_startsAfterBreaks {offset next : Nat} {text : List Char}
    (h : next ∈ startsAfterBreaks offset text) : next ≤ offset + byteLength text := by
  induction offset, text using startsAfterBreaks.induct with
  | case1 => cases h
  | case2 offset rest ih =>
    have hpair : byteLength ('\r' :: '\n' :: rest) = 2 + byteLength rest := by
      rw [byteLength_cons, byteLength_cons, ← Nat.add_assoc]
      rfl
    rw [startsAfterBreaks_pair, List.mem_cons] at h
    rw [hpair]
    rcases h with rfl | hmem
    · omega
    · have := ih hmem
      omega
  | case3 offset c rest single next' hbreak ih =>
    rw [startsAfterBreaks_cons (not_cutsPair_of_cases single), if_pos hbreak, List.mem_cons] at h
    rw [byteLength_cons]
    rcases h with rfl | hmem
    · omega
    · have := ih hmem
      omega
  | case4 offset c rest single next' hbreak ih =>
    rw [startsAfterBreaks_cons (not_cutsPair_of_cases single), if_neg hbreak] at h
    rw [byteLength_cons]
    have := ih h
    omega

theorem stop_le_ofText (text : List Char) (line : Nat) :
    ((ofText text).starts[line + 1]?).getD (ofText text).length ≤ byteLength text := by
  cases hnext : (ofText text).starts[line + 1]? with
  | none => exact Nat.le_refl _
  | some next =>
    have hmem : next ∈ startsAfterBreaks 0 text := List.mem_of_getElem? hnext
    exact Nat.zero_add (byteLength text) ▸ le_of_mem_startsAfterBreaks hmem

/-- **From any position to an offset.**  If the start of the line and the column add up to a word,
or there is no such line, then an offset is found exactly if the position leads to it.  Otherwise
the position leads nowhere, but the low bits of the sum are found if they are not behind the end of
the line. -/
theorem offset?_ofText (text : List Char) (small : byteLength text < 2 ^ 32)
    (position : Position) :
    let index := ofText text
    ((∀ start, index.starts[position.line]? = some start → start + position.column < 2 ^ 32) →
        ∀ offset, index.offset? position = some offset ↔ index.Reaches position offset) ∧
      ∀ start, index.starts[position.line]? = some start → 2 ^ 32 ≤ start + position.column →
        (∀ offset, ¬ index.Reaches position offset) ∧
          ∀ offset, index.offset? position = some offset ↔
            offset = (start + position.column) % 2 ^ 32 ∧
              offset ≤ (index.starts[position.line + 1]?).getD index.length := by
  intro index
  refine ⟨fun fits offset => ?_, fun start found past =>
    ⟨fun offset h => ?_, fun offset => offset?_eq_some_iff found⟩⟩
  · cases hfound : index.starts[position.line]? with
    | none =>
      have hnone : index.offset? position = none := by
        simp only [offset?, hfound, Option.bind_eq_bind, Option.bind_none]
      rw [hnone]
      refine ⟨fun h => (nomatch h), fun h => ?_⟩
      obtain ⟨start, hstart, -⟩ := h.start
      cases hfound.symm.trans hstart
    | some start =>
      rw [offset?_eq_some_iff hfound, Nat.mod_eq_of_lt (fits start hfound)]
      constructor
      · rintro ⟨rfl, hle⟩
        exact ⟨⟨start, hfound, rfl⟩, hle⟩
      · intro h
        obtain ⟨start', hstart, rfl⟩ := h.start
        obtain rfl := Option.some.inj (hfound.symm.trans hstart)
        exact ⟨rfl, h.stop⟩
  · obtain ⟨start', hstart, rfl⟩ := h.start
    obtain rfl := Option.some.inj (found.symm.trans hstart)
    have hstop := h.stop.trans (stop_le_ofText text position.line)
    omega

/-- Positions on the two lines of a text: one at the end of its line, one behind it, and one that no
word holds. -/
theorem offset?_ofText_columns :
    let text := ['a', 'b', '\n', 'c', 'd']
    let index := ofText text
    byteLength text < 2 ^ 32 ∧
      (index.offset? ⟨0, 3⟩ = some 3 ↔ index.Reaches ⟨0, 3⟩ 3) ∧
      (index.offset? ⟨0, 9⟩ = some 9 ↔ index.Reaches ⟨0, 9⟩ 9) ∧
      (∀ offset, ¬ index.Reaches ⟨1, 2 ^ 32⟩ offset) ∧ index.offset? ⟨1, 2 ^ 32⟩ = some 3 := by
  intro text index
  have hsmall : byteLength text < 2 ^ 32 := by decide
  have hfits (column : Nat) (lt : column < 2 ^ 32) (start : Nat)
      (hstart : index.starts[0]? = some start) : start + column < 2 ^ 32 := by
    obtain rfl : 0 = start := Option.some.inj hstart
    omega
  have hpast := (offset?_ofText text hsmall ⟨1, 2 ^ 32⟩).2 3 rfl (by decide)
  exact ⟨hsmall, (offset?_ofText text hsmall ⟨0, 3⟩).1 (hfits 3 (by decide)) 3,
    (offset?_ofText text hsmall ⟨0, 9⟩).1 (hfits 9 (by decide)) 9, hpast.1,
    (hpast.2 3).mpr (by decide)⟩

/-- A column of one more than a word holds counts as the first one. -/
theorem offset?_not_exact : ¬ ∀ (text : List Char) (position : Position) (offset : Nat),
    byteLength text < 2 ^ 32 →
      ((ofText text).offset? position = some offset ↔
        (ofText text).Reaches position offset) := by
  intro exact
  have hfound := (exact ['a', 'b', '\n', 'c', 'd'] ⟨0, 2 ^ 32 + 1⟩ 1 (by decide)).mp (by decide)
  obtain ⟨start, -, hsum⟩ := hfound.start
  have hsum : start + (2 ^ 32 + 1) = 1 := hsum
  omega

/-- **In either arithmetic** the offset of a position is what `offset?` says, unless sums are
checked and the start of the line and the low bits of the column do not add up to a word. -/
theorem offsetIn?_eq (index : LineIndex) (arithmetic : Arithmetic) (position : Position) :
    index.offsetIn? arithmetic position =
      if arithmetic = .checked ∧ (index.starts[position.line]?).any
          (fun start => 2 ^ 32 ≤ start + position.column % 2 ^ 32) = true
      then none else some (index.offset? position) := by
  unfold offsetIn? offset?
  cases index.starts[position.line]? with
  | none =>
    rw [if_neg fun h => Bool.false_ne_true h.2]
    rfl
  | some start =>
    have hsum : (start.toUInt32 + position.column.toUInt32).toNat =
        (start + position.column % 2 ^ 32) % 2 ^ 32 := by simp
    have hword : position.column.toUInt32.toNat = position.column % 2 ^ 32 := by simp
    have hsize : UInt32.size = 2 ^ 32 := rfl
    simp only [Option.bind_eq_bind, Option.bind_some, hsum, hword, Option.any_some,
      decide_eq_true_eq, Arithmetic.sum?, hsize]
    by_cases hfits : start + position.column % 2 ^ 32 < 2 ^ 32
    · rw [if_pos hfits, if_neg (by omega), Nat.mod_eq_of_lt hfits]
      rfl
    · rw [if_neg hfits]
      cases arithmetic with
      | checked =>
        rw [if_pos ⟨rfl, by omega⟩]
        rfl
      | wrapping =>
        rw [if_neg fun h => Arithmetic.noConfusion h.1]
        rfl

end LineIndex

end Syntagm.Text
