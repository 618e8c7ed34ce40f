import Mathlib.Order.Bounds.Defs
import Syntagm.Proofs.PatternMeaning

/-!
# What matching computes

Matching keeps sets of cursors, as lists in ascending order.  A function of such sets computes
stretches if it finds the cursors that these lead to (`Computes`), and computing goes through
products, sums, powers and stars (`Computes.mul`, `Computes.closure`).  So `ends` computes the
stretches that a pattern takes (`Pattern.computes_ends`), and the longest match is the longest of
those at the start of the text (`Pattern.isLongest_longest?`).
-/

namespace Syntagm

open Computability

/-! ### Sets of cursors -/

namespace Cursor

variable {text : List Char}

/-- Sets of cursors are in ascending order. -/
abbrev Ascending (cursors : List (Cursor text)) : Prop :=
  cursors.Pairwise fun first second => first.taken < second.taken

theorem mem_merge {first second : List (Cursor text)} {cursor : Cursor text} :
    cursor ∈ merge first second ↔ cursor ∈ first ∨ cursor ∈ second := by
  induction first, second using merge.induct with
  | case1 second => simp [merge]
  | case2 first _ => simp [merge]
  | case3 x first y second hlt ih => simp [merge, hlt, ih, or_assoc]
  | case4 x first y second hge hlt ih => simp [merge, hge, hlt, ih, or_left_comm]
  | case5 x first y second hge hge' ih =>
    obtain rfl : x = y := ext (by omega)
    simp only [merge, Nat.lt_irrefl, if_false, List.mem_cons, ih]
    tauto

theorem Ascending.merge {first second : List (Cursor text)} (h : Ascending first)
    (h' : Ascending second) : Ascending (merge first second) := by
  induction first, second using Cursor.merge.induct with
  | case1 second => simpa [Cursor.merge] using h'
  | case2 first _ => simpa [Cursor.merge] using h
  | case3 x first y second hlt ih =>
    obtain ⟨hx, hfirst⟩ := List.pairwise_cons.mp h
    simp only [Cursor.merge, if_pos hlt]
    refine List.pairwise_cons.mpr ⟨fun cursor hmem => ?_, ih hfirst h'⟩
    rcases mem_merge.mp hmem with hmem | hmem
    · exact hx cursor hmem
    · rcases List.mem_cons.mp hmem with rfl | hmem
      · exact hlt
      · exact Nat.lt_trans hlt ((List.pairwise_cons.mp h').1 cursor hmem)
  | case4 x first y second hge hlt ih =>
    obtain ⟨hy, hsecond⟩ := List.pairwise_cons.mp h'
    simp only [Cursor.merge, if_neg hge, if_pos hlt]
    refine List.pairwise_cons.mpr ⟨fun cursor hmem => ?_, ih h hsecond⟩
    rcases mem_merge.mp hmem with hmem | hmem
    · rcases List.mem_cons.mp hmem with rfl | hmem
      · exact hlt
      · exact Nat.lt_trans hlt ((List.pairwise_cons.mp h).1 cursor hmem)
    · exact hy cursor hmem
  | case5 x first y second hge hge' ih =>
    obtain ⟨hx, hfirst⟩ := List.pairwise_cons.mp h
    obtain ⟨hy, hsecond⟩ := List.pairwise_cons.mp h'
    simp only [Cursor.merge, if_neg hge, if_neg hge']
    refine List.pairwise_cons.mpr ⟨fun cursor hmem => ?_, ih hfirst hsecond⟩
    rcases mem_merge.mp hmem with hmem | hmem
    · exact hx cursor hmem
    · have := hy cursor hmem
      omega

end Cursor

/-! ### Matching computes stretches -/

open Cursor (Ascending)

/-- **A function of sets of cursors computes stretches**: it finds the cursors that some stretch
leads to from one of the given ones, in ascending order.  No stretch leads back. -/
structure Computes {text : List Char} (step : List (Cursor text) → List (Cursor text))
    (stretches : Stretches text) : Prop where
  ascending : ∀ {cursors}, Ascending cursors → Ascending (step cursors)
  mem_iff : ∀ {cursors}, Ascending cursors → ∀ {there}, there ∈ step cursors ↔
    ∃ here ∈ cursors, stretches here there
  forward : ∀ {here there}, stretches here there → here.taken ≤ there.taken

namespace Computes

variable {text : List Char} {step next : List (Cursor text) → List (Cursor text)}
  {x y : Stretches text}

protected theorem one : Computes (fun cursors => cursors) (1 : Stretches text) where
  ascending h := h
  mem_iff _ _ := ⟨fun h => ⟨_, h, rfl⟩, fun ⟨_, h, heq⟩ => heq ▸ h⟩
  forward h := Nat.le_of_eq (congrArg Cursor.taken h)

protected theorem mul (h : Computes step x) (h' : Computes next y) :
    Computes (fun cursors => next (step cursors)) (x * y) where
  ascending hcursors := h'.ascending (h.ascending hcursors)
  mem_iff hcursors _ := by
    simp only [h'.mem_iff (h.ascending hcursors), h.mem_iff hcursors, Stretches.mul_iff]
    constructor
    · rintro ⟨middle, ⟨here, hmem, hx⟩, hy⟩
      exact ⟨here, hmem, middle, hx, hy⟩
    · rintro ⟨here, hmem, middle, hx, hy⟩
      exact ⟨middle, ⟨here, hmem, hx⟩, hy⟩
  forward := fun ⟨_, hx, hy⟩ => Nat.le_trans (h.forward hx) (h'.forward hy)

protected theorem add (h : Computes step x) (h' : Computes next y) :
    Computes (fun cursors => Cursor.merge (step cursors) (next cursors)) (x + y) where
  ascending hcursors := (h.ascending hcursors).merge (h'.ascending hcursors)
  mem_iff hcursors _ := by
    rw [Cursor.mem_merge, h.mem_iff hcursors, h'.mem_iff hcursors, ← exists_or]
    exact exists_congr fun here => and_or_left.symm
  forward h'' := h''.elim h.forward h'.forward

/-- Nothing is reached from nowhere. -/
theorem nil (h : Computes step x) : step [] = [] :=
  List.eq_nil_iff_forall_not_mem.mpr fun _ hmem =>
    have ⟨_, hnil, _⟩ := (h.mem_iff .nil).mp hmem
    absurd hnil List.not_mem_nil

theorem exactly (h : Computes step x) (count : Nat) :
    Computes (Pattern.exactly step count) (x ^ count) := by
  induction count with
  | zero =>
    rw [pow_zero]
    exact .one
  | succ count ih =>
    have heq : Pattern.exactly step (count + 1) =
        fun cursors => Pattern.exactly step count (step cursors) := by
      funext cursors
      cases cursors with
      | nil => rw [h.nil, ih.nil]; rfl
      | cons => rfl
    rw [heq, pow_succ']
    exact h.mul ih

theorem atMost (h : Computes step x) (count : Nat) :
    Computes (Pattern.atMost step count) ((1 + x) ^ count) := by
  induction count with
  | zero =>
    rw [pow_zero]
    exact .one
  | succ count ih =>
    have heq : Pattern.atMost step (count + 1) =
        fun cursors => Cursor.merge cursors (Pattern.atMost step count (step cursors)) := by
      funext cursors
      cases cursors with
      | nil => simp [h.nil, ih.nil, Pattern.atMost, Cursor.merge]
      | cons => rfl
    rw [heq, Stretches.one_add_pow_succ]
    exact Computes.one.add (h.mul ih)

/-- What one stretch after the other leads to does not lie in front. -/
theorem forward_kstar (h : Computes step x) {here there : Cursor text} (path : x∗ here there) :
    here.taken ≤ there.taken := by
  induction path with
  | refl => exact Nat.le_refl _
  | tail _ hlast ih => exact Nat.le_trans ih (h.forward hlast)

/-- The cursors behind the first one that are left to go on from. -/
theorem mem_todo (h : Computes step x) {cursor there : Cursor text}
    {later : List (Cursor text)} (ascending : Ascending (cursor :: later)) :
    there ∈ (Cursor.merge later (step [cursor])).filter (cursor.taken < ·.taken) ↔
      there ∈ later ∨ x cursor there ∧ cursor.taken < there.taken := by
  rw [List.mem_filter, Cursor.mem_merge, h.mem_iff (List.pairwise_singleton ..)]
  simp only [List.mem_singleton, exists_eq_left, decide_eq_true_eq]
  constructor
  · rintro ⟨hmem | hx, hlt⟩
    · exact .inl hmem
    · exact .inr ⟨hx, hlt⟩
  · rintro (hmem | ⟨hx, hlt⟩)
    · exact ⟨.inl hmem, (List.pairwise_cons.mp ascending).1 there hmem⟩
    · exact ⟨.inr hx, hlt⟩

/-- What is reached from a cursor is the cursor itself, or it is reached from a later one. -/
theorem kstar_cases (h : Computes step x) {cursor there : Cursor text} (path : x∗ cursor there) :
    there = cursor ∨ ∃ next, (x cursor next ∧ cursor.taken < next.taken) ∧ x∗ next there := by
  induction path using Relation.ReflTransGen.head_induction_on with
  | refl => exact .inl rfl
  | @head here next hfirst hrest ih =>
    rcases Nat.lt_or_eq_of_le (h.forward hfirst) with hlt | heq
    · exact .inr ⟨next, ⟨hfirst, hlt⟩, hrest⟩
    · obtain rfl := Cursor.ext heq
      exact ih

/-- What is reached from a cursor and the later ones is the cursor itself, or it is reached from
those that are left. -/
theorem reached_iff (h : Computes step x) {cursor : Cursor text} {later : List (Cursor text)}
    (ascending : Ascending (cursor :: later)) {there : Cursor text} :
    (∃ here ∈ cursor :: later, x∗ here there) ↔
      there = cursor ∨ ∃ here ∈ (Cursor.merge later (step [cursor])).filter
        (cursor.taken < ·.taken), x∗ here there := by
  simp only [h.mem_todo ascending, List.exists_mem_cons_iff]
  constructor
  · rintro (hpath | ⟨here, hmem, hpath⟩)
    · exact (h.kstar_cases hpath).imp_right fun ⟨next, hnext, hrest⟩ => ⟨next, .inr hnext, hrest⟩
    · exact .inr ⟨here, .inl hmem, hpath⟩
  · rintro (rfl | ⟨here, hmem | ⟨hfirst, -⟩, hpath⟩)
    · exact .inl .refl
    · exact .inr ⟨here, hmem, hpath⟩
    · exact .inl (.head hfirst hpath)

/-- **The closure from a cursor on** finds all that is reached from it and the later ones. -/
theorem closureFrom (h : Computes step x) (cursor : Cursor text) (later : List (Cursor text))
    (ascending : Ascending (cursor :: later)) :
    Ascending (Pattern.closureFrom step cursor later) ∧
      ∀ there, there ∈ Pattern.closureFrom step cursor later ↔
        ∃ here ∈ cursor :: later, x∗ here there := by
  have htodo (cursor : Cursor text) (later : List (Cursor text))
      (ascending : Ascending (cursor :: later)) :
      Ascending ((Cursor.merge later (step [cursor])).filter (cursor.taken < ·.taken)) :=
    (Ascending.merge (List.pairwise_cons.mp ascending).2
      (h.ascending (List.pairwise_singleton ..))).filter _
  induction cursor, later using Pattern.closureFrom.induct step with
  | case1 cursor later hnone =>
    rw [Pattern.closureFrom, hnone]
    refine ⟨List.pairwise_singleton .., fun there => ?_⟩
    rw [h.reached_iff ascending, hnone]
    simp
  | case2 cursor later next rest hnext hlt ih =>
    rw [Pattern.closureFrom, hnext]
    obtain ⟨hascending, hmem⟩ := ih (hnext ▸ htodo cursor later ascending)
    simp only [dif_pos hlt]
    refine ⟨List.pairwise_cons.mpr ⟨fun there hthere => ?_, hascending⟩, fun there => ?_⟩
    · obtain ⟨here, hhere, hpath⟩ := (hmem there).mp hthere
      rw [← hnext] at hhere
      have hbehind : cursor.taken < here.taken := by
        simpa using (List.mem_filter.mp hhere).2
      exact Nat.lt_of_lt_of_le hbehind (h.forward_kstar hpath)
    · rw [List.mem_cons, hmem, h.reached_iff ascending, hnext]
  | case3 cursor later next rest hnext hge =>
    have hmem : next ∈ (Cursor.merge later (step [cursor])).filter (cursor.taken < ·.taken) :=
      hnext ▸ List.mem_cons_self
    exact absurd (by simpa using (List.mem_filter.mp hmem).2) hge

/-- **The closure** of a set of cursors. -/
theorem closure (h : Computes step x) : Computes (Pattern.closure step) (x∗) where
  ascending {cursors} hcursors := by
    cases cursors with
    | nil => exact hcursors
    | cons cursor later => exact (h.closureFrom cursor later hcursors).1
  mem_iff {cursors} hcursors there := by
    cases cursors with
    | nil => simp [Pattern.closure]
    | cons cursor later => exact (h.closureFrom cursor later hcursors).2 there
  forward := h.forward_kstar

end Computes

namespace Pattern

variable {text : List Char} {isWord : Char → Bool}

/-- One character of a set. -/
theorem computes_set (member : Char → Bool) :
    Computes (ends isWord (.set member)) (takes isWord text (.set member)) := by
  have hstep (here there : Cursor text) : (here.next?.bind fun step =>
      if member step.1 then some step.2 else none) = some there ↔
        ∃ c, here.next? = some (c, there) ∧ member c = true := by
    simp only [Option.bind_eq_some_iff, Prod.exists, Option.ite_none_right_eq_some,
      Option.some.injEq]
    constructor
    · rintro ⟨c, next, hnext, hmember, rfl⟩
      exact ⟨c, hnext, hmember⟩
    · rintro ⟨c, hnext, hmember⟩
      exact ⟨c, there, hnext, hmember, rfl⟩
  exact {
    ascending := fun h => h.filterMap _ fun first second hlt next hnext other hother => by
      obtain ⟨_, hfirst, -⟩ := (hstep first next).mp hnext
      obtain ⟨_, hsecond, -⟩ := (hstep second other).mp hother
      rw [(Cursor.of_next? hfirst).1, (Cursor.of_next? hsecond).1]
      exact Nat.succ_lt_succ hlt
    mem_iff := fun _ there => by
      rw [ends, List.mem_filterMap]
      exact exists_congr fun here => and_congr_right fun _ => hstep here there
    forward := by
      rintro here there ⟨_, hnext, _⟩
      exact (Cursor.of_next? hnext).1 ▸ Nat.le_succ _ }

/-- **Matching computes what a pattern takes.** -/
theorem computes_ends (pattern : Pattern) :
    Computes (pattern.ends isWord) (pattern.takes isWord text) := by
  induction pattern with
  | empty => exact .one
  | set member => exact computes_set member
  | anchor kind =>
    exact {
      ascending := fun h => h.filter _
      mem_iff := fun _ there => by
        rw [ends, List.mem_filter]
        constructor
        · rintro ⟨hmem, hholds⟩
          exact ⟨there, hmem, rfl, hholds⟩
        · rintro ⟨_, hmem, rfl, hholds⟩
          exact ⟨hmem, hholds⟩
      forward := by
        rintro here there ⟨rfl, _⟩
        exact Nat.le_refl _ }
  | seq first second ih ih' => exact ih.mul ih'
  | alt first second ih ih' => exact ih.add ih'
  | repetition least most inner ih =>
    cases most with
    | none => exact (ih.exactly least).mul ih.closure
    | some most => exact (ih.exactly least).mul (ih.atMost (most - least))

/-- **The greatest of some lengths**, or nothing if there are none. -/
def IsLongest (lengths : Set Nat) : Option Nat → Prop
  | none => lengths = ∅
  | some length => IsGreatest lengths length

theorem IsLongest.unique {lengths : Set Nat} {first second : Option Nat}
    (h : IsLongest lengths first) (h' : IsLongest lengths second) : first = second := by
  cases first with
  | none =>
    cases second with
    | none => rfl
    | some length => exact absurd h'.1 (Set.eq_empty_iff_forall_notMem.mp h length)
  | some length =>
    cases second with
    | none => exact absurd h.1 (Set.eq_empty_iff_forall_notMem.mp h' length)
    | some other => exact congrArg some (IsGreatest.unique h h')

/-- The last of a set of cursors is the furthest one. -/
theorem isLongest_getLast? {cursors : List (Cursor text)} (h : Ascending cursors) :
    IsLongest {length | ∃ cursor ∈ cursors, cursor.taken = length}
      (cursors.getLast?.map (·.taken)) := by
  obtain rfl | ⟨front, last, rfl⟩ := List.eq_nil_or_concat cursors
  · exact Set.eq_empty_of_forall_notMem fun _ ⟨_, hmem, _⟩ => List.not_mem_nil hmem
  · rw [List.concat_eq_append] at h ⊢
    rw [List.getLast?_concat, Option.map_some]
    refine ⟨⟨last, List.mem_concat_self, rfl⟩, ?_⟩
    rintro _ ⟨cursor, hmem, rfl⟩
    rcases List.mem_append.mp hmem with hfront | hlast
    · exact Nat.le_of_lt ((List.pairwise_append.mp h).2.2 cursor hfront last (by simp))
    · rw [List.mem_singleton.mp hlast]

/-- **The longest match** of a pattern is the longest stretch that it takes at the start. -/
theorem isLongest_longest? (pattern : Pattern) (isWord : Char → Bool) (text : List Char) :
    IsLongest {length | ∃ there : Cursor text, pattern.takes isWord text (.start text) there ∧
      there.taken = length} (pattern.longest? isWord text) := by
  have hstart : Ascending [Cursor.start text] := List.pairwise_singleton ..
  have hcomputes : Computes (pattern.ends isWord) (pattern.takes isWord text) :=
    computes_ends pattern
  have hlongest := isLongest_getLast? (hcomputes.ascending hstart)
  simp only [hcomputes.mem_iff hstart, List.mem_singleton, exists_eq_left] at hlongest
  exact hlongest

end Pattern

end Syntagm
