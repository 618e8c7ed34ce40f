import Mathlib.Data.Finset.Card
import Mathlib.Data.Finset.Range
import Mathlib.Logic.Function.Iterate
import Mathlib.Order.Monotone.Basic
import Syntagm.Proofs.Lowering

/-!
# The analysis solves its equations

Nullability and first sets are computed in as many rounds as there are operations.  What a round
marks depends only on what was marked before, and grows with it (`Spreads`).  So the marked
operations grow from round to round, and once they do not they never do again; there are too few
operations for them to grow in every round.  Hence nothing is missing in the end: another round
would mark nothing new (`Spreads.closed`).

For first sets this is said of one kind at a time, as a kind spreads from operation to operation
without regard to the others.

**In use.**  `Program.Closed` says of any analysis that the equations hold in the direction that
soundness needs: what the parts of an operation justify is recorded for it.  Its lemmas are about
views, in which evaluations are written.
-/

namespace Syntagm

/-! ### Members of unions -/

namespace KindSet

theorem any_unionWords (first second : List (BitVec 64)) (place bit : Nat) :
    ((unionWords first second)[place]?).any (·.getLsbD bit) =
      ((first[place]?).any (·.getLsbD bit) || (second[place]?).any (·.getLsbD bit)) := by
  induction first, second using unionWords.induct generalizing place with
  | case1 second => simp [unionWords]
  | case2 first _ => simp [unionWords]
  | case3 x first y second ih =>
    cases place with
    | zero => simp [unionWords]
    | succ place => simpa [unionWords] using ih place

@[simp] theorem contains_union (first second : KindSet) (kind : Kind) :
    (first ∪ second).contains kind = (first.contains kind || second.contains kind) :=
  any_unionWords first.words second.words _ _

@[simp] theorem contains_single (kind other : Kind) :
    (single kind).contains other = (other == kind) := by
  rw [single, contains_insert]
  exact Bool.or_eq_right_iff_imp.mpr fun h => by simp [contains, empty] at h

theorem contains_foldl_union {α : Type} (sets : α → KindSet) (items : List α) (start : KindSet)
    (kind : Kind) :
    (items.foldl (fun all item => all ∪ sets item) start).contains kind = true ↔
      start.contains kind = true ∨ ∃ item ∈ items, (sets item).contains kind = true := by
  induction items generalizing start with
  | nil => simp
  | cons item items ih => simp [ih, or_assoc]

end KindSet

/-! ### Rounds -/

/-- What is computed in rounds is what the rounds give one after the other. -/
theorem stabilize_eq_iterate {α : Type} [DecidableEq α] (step : α → α) (rounds : Nat)
    (start : α) : stabilize step rounds start = step^[rounds] start := by
  induction rounds generalizing start with
  | zero => rfl
  | succ rounds ih =>
    simp only [stabilize, Function.iterate_succ_apply]
    split
    · rename_i fixed
      rw [fixed, Function.iterate_fixed fixed]
    · exact ih _

/-- **Marks that spread**: what a step marks grows with what was marked before, and there are
`size` places for marks. -/
structure Spreads {α : Type} (step : α → α) (marked : α → Nat → Prop) (size : Nat) : Prop where
  mono : ∀ known other, (∀ place, marked known place → marked other place) →
    ∀ place, marked (step known) place → marked (step other) place
  below : ∀ known place, marked (step known) place → place < size

namespace Spreads

variable {α : Type} {step : α → α} {marked : α → Nat → Prop} {size : Nat}
  (h : Spreads step marked size) {start : α} (blank : ∀ place, ¬ marked start place)
include h blank

theorem grows (round place : Nat) (before : marked (step^[round] start) place) :
    marked (step^[round + 1] start) place := by
  induction round generalizing place with
  | zero => exact absurd before (blank place)
  | succ round ih =>
    rw [Function.iterate_succ_apply'] at before ⊢
    exact h.mono _ _ ih place before

theorem lt_size (round place : Nat) (now : marked (step^[round] start) place) : place < size := by
  cases round with
  | zero => exact absurd now (blank place)
  | succ round =>
    rw [Function.iterate_succ_apply'] at now
    exact h.below _ place now

open Classical in
/-- **After as many rounds as there are places, another one marks nothing new.** -/
theorem closed [DecidableEq α] (place : Nat)
    (more : marked (step (stabilize step size start)) place) :
    marked (stabilize step size start) place := by
  -- the marked places, round by round
  let marks (round : Nat) : Finset Nat := {place ∈ Finset.range size |
    marked (step^[round] start) place}
  have mem_marks (round place : Nat) : place ∈ marks round ↔
      marked (step^[round] start) place := by
    simp only [marks, Finset.mem_filter, Finset.mem_range, and_iff_right_iff_imp]
    exact h.lt_size blank round place
  have hgrows (round : Nat) : marks round ⊆ marks (round + 1) := fun place hplace =>
    (mem_marks _ _).mpr (h.grows blank round place ((mem_marks _ _).mp hplace))
  have eq_of_card (round : Nat) (same : (marks round).card = (marks (round + 1)).card) :
      marks round = marks (round + 1) :=
    Finset.eq_of_subset_of_card_le (hgrows round) same.ge
  -- once the marks do not grow, they never do again
  have hstays (round : Nat) (same : (marks round).card = (marks (round + 1)).card) :
      (marks (round + 1)).card = (marks (round + 2)).card := by
    have hequal := eq_of_card round same
    refine le_antisymm (Finset.card_le_card (hgrows _)) (Finset.card_le_card fun place hplace => ?_)
    rw [mem_marks, Function.iterate_succ_apply'] at hplace
    rw [mem_marks, Function.iterate_succ_apply']
    refine h.mono _ _ (fun other hother => ?_) place hplace
    rwa [← mem_marks, hequal, mem_marks]
  have hcard := Nat.stabilises_of_monotone
    (monotone_nat_of_le_succ fun round => Finset.card_le_card (hgrows round))
    (fun round => (Finset.card_filter_le _ _).trans (Finset.card_range size).le) hstays
    (Nat.le_succ size)
  rw [stabilize_eq_iterate] at more ⊢
  rw [← Function.iterate_succ_apply' step, ← mem_marks, ← eq_of_card size hcard.symm] at more
  exact (mem_marks size place).mp more

end Spreads

/-! ### Nullability -/

namespace Program

variable (program : Program)

theorem nullableGiven_mono {known other : Array Bool}
    (le : ∀ op, known.getD op false = true → other.getD op false = true) {op : Op Nat}
    (h : program.nullableGiven known op = true) : program.nullableGiven other op = true := by
  cases op with
  | token => cases h
  | seq items =>
    rw [nullableGiven, List.all_eq_true] at h ⊢
    exact fun item hitem => le item (h item hitem)
  | choice alternatives =>
    rw [nullableGiven, List.any_eq_true] at h ⊢
    exact h.imp fun alternative => And.imp_right (le alternative)
  | repetition least inner =>
    rw [nullableGiven, Bool.or_eq_true] at h ⊢
    exact h.imp_right (le inner)
  | optional | blank => rfl
  | call rule bound =>
    rw [nullableGiven, Option.any_eq_true] at h ⊢
    exact h.imp fun entry => And.imp_right (le entry)

theorem getD_map_ops {α : Type} (f : Op Nat → α) (op : Nat) (default : α) :
    (program.ops.map f).getD op default = ((program.ops[op]?).map f).getD default := by
  rw [Array.getD_eq_getD_getElem?, Array.getElem?_map]

theorem spreads_nullable :
    Spreads (fun known => program.ops.map (program.nullableGiven known))
      (fun known op => known.getD op false = true) program.ops.size where
  mono known other le op h := by
    rw [getD_map_ops] at h ⊢
    cases hop : program.ops[op]? with
    | none => simp [hop] at h
    | some what =>
      rw [hop] at h
      exact program.nullableGiven_mono le h
  below known op h := by
    by_contra hout
    simp [Array.getD_eq_getD_getElem?, Array.getElem?_eq_none (Nat.le_of_not_lt hout)] at h

/-! ### First sets -/

theorem contains_firstOfItems_mono (nullable : Array Bool) {known other : Array KindSet}
    {kind : Kind} (le : ∀ op, (known.getD op ∅).contains kind = true →
      (other.getD op ∅).contains kind = true) (items : List Nat)
    (h : (firstOfItems nullable known items).contains kind = true) :
    (firstOfItems nullable other items).contains kind = true := by
  induction items with
  | nil => exact h
  | cons item items ih =>
    simp only [firstOfItems] at h ⊢
    split at h <;> rename_i hnullable
    · rw [if_pos hnullable, KindSet.contains_union, Bool.or_eq_true]
      rw [KindSet.contains_union, Bool.or_eq_true] at h
      exact h.imp (le item) ih
    · rw [if_neg hnullable]
      exact le item h

theorem contains_firstGiven_mono (nullable : Array Bool) {known other : Array KindSet}
    {kind : Kind} (le : ∀ op, (known.getD op ∅).contains kind = true →
      (other.getD op ∅).contains kind = true) {op : Op Nat}
    (h : (program.firstGiven nullable known op).contains kind = true) :
    (program.firstGiven nullable other op).contains kind = true := by
  cases op with
  | token | blank => exact h
  | seq items => exact contains_firstOfItems_mono nullable le items h
  | choice alternatives =>
    rw [firstGiven, KindSet.contains_foldl_union] at h ⊢
    exact h.imp_right fun ⟨alternative, hmem, hkind⟩ => ⟨alternative, hmem, le alternative hkind⟩
  | repetition _ inner => exact le inner h
  | optional inner => exact le inner h
  | call rule bound =>
    rw [firstGiven] at h ⊢
    cases hentry : program.entry? rule with
    | none => simp [hentry] at h
    | some entry =>
      rw [hentry] at h
      exact le entry h

/-- Each kind spreads by itself. -/
theorem spreads_first (nullable : Array Bool) (kind : Kind) :
    Spreads (fun known => program.ops.map (program.firstGiven nullable known))
      (fun known op => (known.getD op ∅).contains kind = true) program.ops.size where
  mono known other le op h := by
    rw [getD_map_ops] at h ⊢
    cases hop : program.ops[op]? with
    | none => simp [hop] at h
    | some what =>
      rw [hop] at h
      exact program.contains_firstGiven_mono nullable le h
  below known op h := by
    by_contra hout
    simp [Array.getD_eq_getD_getElem?, Array.getElem?_eq_none (Nat.le_of_not_lt hout)] at h

/-! ### The equations -/

/-- **An analysis is closed**: what the parts of an operation justify is recorded for it. -/
structure Closed (program : Program) (analysis : Analysis) : Prop where
  nullable : ∀ op what, program.ops[op]? = some what →
    program.nullableGiven analysis.nullable what = true → analysis.isNullable op = true
  first : ∀ op what kind, program.ops[op]? = some what →
    (program.firstGiven analysis.nullable analysis.first what).contains kind = true →
      (analysis.firstSet op).contains kind = true

/-- **What is computed is closed.** -/
theorem closed_analyze : program.Closed program.analyze where
  nullable op what hop h := by
    refine program.spreads_nullable.closed (fun place => ?_) op ?_
    · rw [getD_map_ops]
      cases program.ops[place]? <;> simp
    · rw [getD_map_ops, hop]
      exact h
  first op what kind hop h := by
    refine (program.spreads_first program.nullableOps kind).closed (fun place => ?_) op ?_
    · rw [getD_map_ops]
      cases program.ops[place]? <;> simp
    · rw [getD_map_ops, hop]
      exact h

namespace Closed

variable {program : Program} {analysis : Analysis} (h : program.Closed analysis) {op : Nat}
include h

/-- Where there is no operation, the choice without alternatives justifies nothing. -/
theorem nullable_view
    (given : program.nullableGiven analysis.nullable (program.view op).withoutLimit = true) :
    analysis.isNullable op = true := by
  by_cases hview : program.view op = .choice []
  · rw [hview] at given
    cases given
  · exact h.nullable op _ (getElem?_of_view rfl hview) given

theorem first_view {kind : Kind}
    (given : (program.firstGiven analysis.nullable analysis.first
      (program.view op).withoutLimit).contains kind = true) :
    (analysis.firstSet op).contains kind = true := by
  by_cases hview : program.view op = .choice []
  · rw [hview] at given
    simp [Op.withoutLimit, firstGiven] at given
  · exact h.first op _ kind (getElem?_of_view rfl hview) given

end Closed

end Program

/-! ### Compiled grammars -/

namespace Grammar

variable {grammar : Grammar} {compiled : CompiledGrammar}

/-- A compiled grammar has the analysis of its program, and no cycle was found in it. -/
theorem analyzed_compile (done : grammar.compile = .ok compiled) :
    compiled.analysis = compiled.program.analyze ∧
      compiled.program.checkLeftCorners compiled.analysis = .ok () := by
  unfold compile at done
  obtain ⟨start, _, done⟩ := bind_eq_ok.mp done
  obtain ⟨draft, _, done⟩ := bind_eq_ok.mp done
  obtain ⟨⟨program, kinds⟩, _, done⟩ := bind_eq_ok.mp done
  obtain ⟨_, hcorners, done⟩ := bind_eq_ok.mp done
  obtain ⟨_, _, done⟩ := bind_eq_ok.mp done
  split at done
  · obtain ⟨sync, _, done⟩ := bind_eq_ok.mp done
    obtain rfl := pure_eq_ok.mp done
    exact ⟨rfl, hcorners⟩
  · exact absurd done throw_ne_ok

theorem closed_compile (done : grammar.compile = .ok compiled) :
    compiled.program.Closed compiled.analysis := by
  rw [(analyzed_compile done).1]
  exact compiled.program.closed_analyze

end Grammar

end Syntagm
