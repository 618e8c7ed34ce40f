import Mathlib.Data.Finset.Prod
import Mathlib.Order.Bounds.Defs
import Syntagm.Proofs.Analysis

/-!
# The analysis is the least solution

What is nullable has a derivation of the empty text (`Program.Vanishes`), and what a first set holds
has a derivation that reaches a token of this kind (`Program.Begins`).  Both follow the equations of
the analysis, one constructor for each way in which one of them can hold.

**From both sides.**  Every analysis for which the equations hold records what is derivable
(`Closed.given_of_vanishes`, `Closed.given_of_begins`), and what is added because of derivable marks
is derivable (`vanishes_of_given`, `begins_of_given`).  So an analysis that is closed and was built
up from nothing is the least solution of its equations, in whatever order it was built up
(`Recorded.isLeast`).

**In place.**  The operations may as well be looked at one after the other, each with what is known
by then, and again from the first one on until nothing is new (`Program.Settles`).  Every round but
the last adds a mark, and there are only so many; the result is the same.
-/

namespace Syntagm

/-! ### Sets that grow -/

namespace KindSet

theorem ne_zero_iff (word : BitVec 64) :
    (word != 0#64) = true ↔ ∃ bit, word.getLsbD bit = true := by
  rw [bne_iff_ne, ne_eq, ← not_iff_not, not_not, not_exists]
  refine ⟨fun h bit => by simp [h], fun h => BitVec.eq_of_getLsbD_eq fun bit _ => ?_⟩
  simpa using h bit

theorem or_ne_iff (first second : BitVec 64) : ((first ||| second) != first) = true ↔
    ∃ bit, second.getLsbD bit = true ∧ first.getLsbD bit = false := by
  rw [bne_iff_ne, ne_eq, ← not_iff_not, not_not, not_exists]
  refine ⟨fun h bit ⟨hsecond, hfirst⟩ => ?_, fun h => BitVec.eq_of_getLsbD_eq fun bit _ => ?_⟩
  · rw [← h, BitVec.getLsbD_or, hsecond, Bool.or_true] at hfirst
    cases hfirst
  · have hbit := h bit
    rw [BitVec.getLsbD_or]
    cases hfirst : first.getLsbD bit <;> simp_all

theorem addsBit_iff (first second : List (BitVec 64)) : addsBit first second = true ↔
    ∃ place bit : Nat, (second[place]?).any (·.getLsbD bit) = true ∧
      (first[place]?).any (·.getLsbD bit) = false := by
  induction first, second using addsBit.induct with
  | case1 first => simp [addsBit]
  | case2 second _ =>
    simp only [addsBit, List.any_eq_true, ne_zero_iff, List.getElem?_nil, Option.any_none,
      and_true]
    constructor
    · rintro ⟨word, hmem, bit, hbit⟩
      obtain ⟨place, hplace⟩ := List.mem_iff_getElem?.mp hmem
      exact ⟨place, bit, by rw [hplace]; exact hbit⟩
    · rintro ⟨place, bit, h⟩
      obtain ⟨word, hword, hbit⟩ := (Option.any_eq_true ..).mp h
      exact ⟨word, List.mem_of_getElem? hword, bit, hbit⟩
  | case3 x first y second ih =>
    rw [addsBit, Bool.or_eq_true_iff, or_ne_iff, ih]
    constructor
    · rintro (⟨bit, hy, hx⟩ | ⟨place, bit, h⟩)
      · exact ⟨0, bit, hy, hx⟩
      · exact ⟨place + 1, bit, h⟩
    · rintro ⟨place, bit, hy, hx⟩
      cases place with
      | zero => exact .inl ⟨bit, hy, hx⟩
      | succ place => exact .inr ⟨place, bit, hy, hx⟩

/-- **A union has grown** if the second set has a kind that the first one lacks. -/
theorem unionNew_snd_iff (first second : KindSet) : (first.unionNew second).2 = true ↔
    ∃ kind, second.contains kind = true ∧ first.contains kind = false := by
  rw [unionNew, addsBit_iff]
  constructor
  · rintro ⟨place, bit, hsecond, hfirst⟩
    have hlt : bit < 64 := by
      obtain ⟨word, -, hbit⟩ := (Option.any_eq_true ..).mp hsecond
      exact BitVec.lt_of_getLsbD hbit
    -- the kind of this bit
    refine ⟨⟨64 * place + bit⟩, ?_, ?_⟩ <;>
      rwa [contains, Nat.mul_add_div (by decide), Nat.mul_add_mod, Nat.div_eq_of_lt hlt,
        Nat.mod_eq_of_lt hlt, Nat.add_zero]
  · rintro ⟨kind, hsecond, hfirst⟩
    exact ⟨_, _, hsecond, hfirst⟩

end KindSet

/-! ### Derivations -/

namespace Program

/-- **An operation can match nothing**: a finite derivation of the empty text from it. -/
inductive Vanishes (program : Program) : Nat → Prop where
  | blank {op} (found : program.ops[op]? = some .blank) : Vanishes program op
  | optional {op inner} (found : program.ops[op]? = some (.optional inner)) : Vanishes program op
  | seq {op items} (found : program.ops[op]? = some (.seq items))
      (all : ∀ item ∈ items, Vanishes program item) : Vanishes program op
  | choice {op alternatives alternative} (found : program.ops[op]? = some (.choice alternatives))
      (mem : alternative ∈ alternatives) (one : Vanishes program alternative) :
      Vanishes program op
  | noRound {op inner} (found : program.ops[op]? = some (.repetition 0 inner)) :
      Vanishes program op
  | round {op least inner} (found : program.ops[op]? = some (.repetition least inner))
      (one : Vanishes program inner) : Vanishes program op
  | call {op rule bound entry} (found : program.ops[op]? = some (.call rule bound))
      (begins : program.entry? rule = some entry) (one : Vanishes program entry) :
      Vanishes program op

/-- **An operation can begin with a token of a kind**: a finite derivation that reaches such a
token behind nothing but what can match nothing. -/
inductive Begins (program : Program) (kind : Kind) : Nat → Prop where
  | token {op} (found : program.ops[op]? = some (.token kind)) : Begins program kind op
  | seq {op front item back} (found : program.ops[op]? = some (.seq (front ++ item :: back)))
      (crossed : ∀ other ∈ front, program.Vanishes other) (one : Begins program kind item) :
      Begins program kind op
  | choice {op alternatives alternative} (found : program.ops[op]? = some (.choice alternatives))
      (mem : alternative ∈ alternatives) (one : Begins program kind alternative) :
      Begins program kind op
  | repetition {op least inner} (found : program.ops[op]? = some (.repetition least inner))
      (one : Begins program kind inner) : Begins program kind op
  | optional {op inner} (found : program.ops[op]? = some (.optional inner))
      (one : Begins program kind inner) : Begins program kind op
  | call {op rule bound entry} (found : program.ops[op]? = some (.call rule bound))
      (begins : program.entry? rule = some entry) (one : Begins program kind entry) :
      Begins program kind op

variable {program : Program}

/-! ### What is derivable is recorded -/

namespace Closed

variable {analysis : Analysis} (h : program.Closed analysis)
include h

/-- What can match nothing is nullable, because its equation says so. -/
theorem given_of_vanishes {op : Nat} (vanishes : program.Vanishes op) :
    ∃ what, program.ops[op]? = some what ∧
      program.nullableGiven analysis.nullable what = true := by
  -- the equation of a part, put into its place in the equation of the whole
  have record : ∀ {part : Nat}, (∃ what, program.ops[part]? = some what ∧
      program.nullableGiven analysis.nullable what = true) →
      analysis.nullable.getD part false = true :=
    fun ⟨what, hfound, hgiven⟩ => h.nullable _ what hfound hgiven
  induction vanishes with
  | blank found => exact ⟨_, found, rfl⟩
  | optional found => exact ⟨_, found, rfl⟩
  | seq found _ ih =>
    exact ⟨_, found, List.all_eq_true.mpr fun item hitem => record (ih item hitem)⟩
  | choice found mem _ ih => exact ⟨_, found, List.any_eq_true.mpr ⟨_, mem, record ih⟩⟩
  | noRound found => exact ⟨_, found, rfl⟩
  | round found _ ih => exact ⟨_, found, Bool.or_eq_true_iff.mpr (.inr (record ih))⟩
  | call found begins _ ih =>
    exact ⟨_, found, (Option.any_eq_true ..).mpr ⟨_, begins, record ih⟩⟩

theorem isNullable_of_vanishes {op : Nat} (vanishes : program.Vanishes op) :
    analysis.isNullable op = true := by
  obtain ⟨what, hfound, hgiven⟩ := h.given_of_vanishes vanishes
  exact h.nullable op what hfound hgiven

omit h in
/-- The first set of a sequence has that of an item behind nullable ones. -/
theorem contains_firstOfItems {nullable : Array Bool} {known : Array KindSet} {kind : Kind}
    {front back : List Nat} {item : Nat}
    (crossed : ∀ other ∈ front, nullable.getD other false = true)
    (one : (known.getD item ∅).contains kind = true) :
    (firstOfItems nullable known (front ++ item :: back)).contains kind = true := by
  induction front with
  | nil =>
    rw [List.nil_append, firstOfItems]
    split
    · rw [KindSet.contains_union, one, Bool.true_or]
    · exact one
  | cons other front ih =>
    obtain ⟨hother, hfront⟩ := List.forall_mem_cons.mp crossed
    rw [List.cons_append, firstOfItems, if_pos hother, KindSet.contains_union, ih hfront,
      Bool.or_true]

/-- The kind that an operation can begin with is in its first set, because its equation says so. -/
theorem given_of_begins {op : Nat} {kind : Kind} (begins : program.Begins kind op) :
    ∃ what, program.ops[op]? = some what ∧
      (program.firstGiven analysis.nullable analysis.first what).contains kind = true := by
  have record : ∀ {part : Nat}, (∃ what, program.ops[part]? = some what ∧
      (program.firstGiven analysis.nullable analysis.first what).contains kind = true) →
      (analysis.first.getD part ∅).contains kind = true :=
    fun ⟨what, hfound, hgiven⟩ => h.first _ what kind hfound hgiven
  induction begins with
  | token found => exact ⟨_, found, by simp [firstGiven]⟩
  | seq found crossed _ ih =>
    exact ⟨_, found, contains_firstOfItems
      (fun other hother => h.isNullable_of_vanishes (crossed other hother)) (record ih)⟩
  | choice found mem _ ih =>
    exact ⟨_, found, (KindSet.contains_foldl_union ..).mpr (.inr ⟨_, mem, record ih⟩)⟩
  | repetition found _ ih => exact ⟨_, found, record ih⟩
  | optional found _ ih => exact ⟨_, found, record ih⟩
  | call found begins _ ih =>
    refine ⟨_, found, ?_⟩
    rw [firstGiven, begins]
    exact record ih

theorem contains_firstSet_of_begins {op : Nat} {kind : Kind} (begins : program.Begins kind op) :
    (analysis.firstSet op).contains kind = true := by
  obtain ⟨what, hfound, hgiven⟩ := h.given_of_begins begins
  exact h.first op what kind hfound hgiven

end Closed

/-! ### What is recorded is derivable -/

/-- **Nothing is recorded but what is derivable.** -/
structure Recorded (program : Program) (analysis : Analysis) : Prop where
  nullable : ∀ op, analysis.isNullable op = true → program.Vanishes op
  first : ∀ op kind, (analysis.firstSet op).contains kind = true → program.Begins kind op

/-- What is justified by operations that can match nothing can match nothing. -/
theorem vanishes_of_given {known : Array Bool}
    (h : ∀ op, known.getD op false = true → program.Vanishes op) {op : Nat} {what : Op Nat}
    (found : program.ops[op]? = some what)
    (given : program.nullableGiven known what = true) : program.Vanishes op := by
  cases what with
  | token => cases given
  | seq items =>
    exact .seq found fun item hitem => h item (List.all_eq_true.mp given item hitem)
  | choice alternatives =>
    obtain ⟨alternative, hmem, hgiven⟩ := List.any_eq_true.mp given
    exact .choice found hmem (h alternative hgiven)
  | repetition least inner =>
    rcases Bool.or_eq_true_iff.mp given with hleast | hinner
    · obtain rfl := eq_of_beq hleast
      exact .noRound found
    · exact .round found (h inner hinner)
  | optional => exact .optional found
  | blank => exact .blank found
  | call rule bound =>
    obtain ⟨entry, hentry, hgiven⟩ := (Option.any_eq_true ..).mp given
    exact .call found hentry (h entry hgiven)

/-- A member of the first set of a sequence comes from an item behind nullable ones. -/
theorem exists_of_firstOfItems {nullable : Array Bool} {known : Array KindSet} {kind : Kind}
    {items : List Nat} (h : (firstOfItems nullable known items).contains kind = true) :
    ∃ front item back, items = front ++ item :: back ∧
      (∀ other ∈ front, nullable.getD other false = true) ∧
      (known.getD item ∅).contains kind = true := by
  induction items with
  | nil => simp [firstOfItems] at h
  | cons item items ih =>
    rw [firstOfItems] at h
    split at h
    · rename_i hnullable
      rw [KindSet.contains_union] at h
      rcases Bool.or_eq_true_iff.mp h with hitem | hitems
      · exact ⟨[], item, items, rfl, List.forall_mem_nil _, hitem⟩
      · obtain ⟨front, other, back, rfl, hfront, hother⟩ := ih hitems
        exact ⟨item :: front, other, back, rfl, List.forall_mem_cons.mpr ⟨hnullable, hfront⟩,
          hother⟩
    · exact ⟨[], item, items, rfl, List.forall_mem_nil _, h⟩

/-- What is justified by kinds that operations can begin with is such a kind. -/
theorem begins_of_given {nullable : Array Bool} {known : Array KindSet} {kind : Kind}
    (hnullable : ∀ op, nullable.getD op false = true → program.Vanishes op)
    (hfirst : ∀ op, (known.getD op ∅).contains kind = true → program.Begins kind op)
    {op : Nat} {what : Op Nat} (found : program.ops[op]? = some what)
    (given : (program.firstGiven nullable known what).contains kind = true) :
    program.Begins kind op := by
  cases what with
  | token other =>
    rw [firstGiven, KindSet.contains_single] at given
    obtain rfl := eq_of_beq given
    exact .token found
  | seq items =>
    obtain ⟨front, item, back, rfl, hfront, hitem⟩ := exists_of_firstOfItems given
    exact .seq found (fun other hother => hnullable other (hfront other hother))
      (hfirst item hitem)
  | choice alternatives =>
    obtain ⟨alternative, hmem, hgiven⟩ :=
      ((KindSet.contains_foldl_union ..).mp given).resolve_left (by simp)
    exact .choice found hmem (hfirst alternative hgiven)
  | repetition least inner => exact .repetition found (hfirst inner given)
  | optional inner => exact .optional found (hfirst inner given)
  | blank => simp [firstGiven] at given
  | call rule bound =>
    rw [firstGiven] at given
    cases hentry : program.entry? rule with
    | none => simp [hentry] at given
    | some entry =>
      rw [hentry] at given
      exact .call found hentry (hfirst entry given)

/-- What every round keeps holds in the end. -/
theorem stabilize_induction {α : Type} [DecidableEq α] {p : α → Prop} {step : α → α}
    (keeps : ∀ current, p current → p (step current)) (rounds : Nat) {start : α} (h : p start) :
    p (stabilize step rounds start) := by
  rw [stabilize_eq_iterate]
  exact Function.Iterate.rec p h keeps rounds

/-- An entry of a table that is computed from the operations. -/
theorem exists_of_getD_map_ops {α : Type} {f : Op Nat → α} {op : Nat} {default : α} {p : α → Prop}
    (h : p ((program.ops.map f).getD op default)) (blank : ¬ p default) :
    ∃ what, program.ops[op]? = some what ∧ p (f what) := by
  rw [getD_map_ops] at h
  cases hfound : program.ops[op]? with
  | none =>
    rw [hfound] at h
    exact absurd h blank
  | some what =>
    rw [hfound] at h
    exact ⟨what, rfl, h⟩

/-- **The analysis records nothing but what is derivable.** -/
theorem recorded_analyze (program : Program) : program.Recorded program.analyze := by
  have hnullable : ∀ op, program.nullableOps.getD op false = true → program.Vanishes op := by
    refine stabilize_induction (p := fun known : Array Bool =>
      ∀ op, known.getD op false = true → program.Vanishes op) (fun known hknown op h => ?_) _
      fun op h => ?_
    · obtain ⟨what, hfound, hgiven⟩ := exists_of_getD_map_ops (p := (· = true)) h (by simp)
      exact vanishes_of_given hknown hfound hgiven
    · obtain ⟨what, -, hgiven⟩ := exists_of_getD_map_ops (p := (· = true)) h (by simp)
      cases hgiven
  refine ⟨hnullable, fun op kind => ?_⟩
  refine stabilize_induction (p := fun known : Array KindSet =>
    ∀ op, (known.getD op ∅).contains kind = true → program.Begins kind op)
    (fun known hknown op h => ?_) _ (fun op h => ?_) op
  · obtain ⟨what, hfound, hgiven⟩ :=
      exists_of_getD_map_ops (p := fun set : KindSet => set.contains kind = true) h (by simp)
    exact begins_of_given hnullable hknown hfound hgiven
  · obtain ⟨what, -, hgiven⟩ :=
      exists_of_getD_map_ops (p := fun set : KindSet => set.contains kind = true) h (by simp)
    simp at hgiven

/-! ### Exactness -/

namespace Recorded

variable {analysis : Analysis} (h : program.Recorded analysis) (closed : program.Closed analysis)
include h closed

theorem isNullable_iff (op : Nat) : analysis.isNullable op = true ↔ program.Vanishes op :=
  ⟨h.nullable op, closed.isNullable_of_vanishes⟩

theorem contains_firstSet_iff (op : Nat) (kind : Kind) :
    (analysis.firstSet op).contains kind = true ↔ program.Begins kind op :=
  ⟨h.first op kind, closed.contains_firstSet_of_begins⟩

end Recorded

end Program

/-- **What an analysis says** of an operation: that it is nullable, or that its first set has a
kind. -/
inductive Mark where
  | nullable (op : Nat)
  | first (op : Nat) (kind : Kind)
  deriving DecidableEq

/-- The operation of which a mark says something. -/
def Mark.op : Mark → Nat
  | .nullable op => op
  | .first op _ => op

/-- The marks of an analysis. -/
def Analysis.Has (analysis : Analysis) : Mark → Prop
  | .nullable op => analysis.isNullable op = true
  | .first op kind => (analysis.firstSet op).contains kind = true

/-- One analysis is below another one if it has no mark that the other lacks. -/
instance : LE Analysis := ⟨fun first second => ∀ mark, first.Has mark → second.Has mark⟩

namespace Program

/-- **The equations hold** at every operation, and nothing is said of anything else. -/
structure Solves (program : Program) (analysis : Analysis) : Prop where
  nullable_size : analysis.nullable.size = program.ops.size
  first_size : analysis.first.size = program.ops.size
  nullable : ∀ op what, program.ops[op]? = some what →
    analysis.isNullable op = program.nullableGiven analysis.nullable what
  first : ∀ op what kind, program.ops[op]? = some what →
    (analysis.firstSet op).contains kind =
      (program.firstGiven analysis.nullable analysis.first what).contains kind

variable {program : Program} {analysis : Analysis}

theorem Solves.closed (h : program.Solves analysis) : program.Closed analysis where
  nullable op what found given := (h.nullable op what found).trans given
  first op what kind found given := (h.first op what kind found).trans given

/-- **A closed analysis that records nothing but what is derivable is the least solution.** -/
theorem Recorded.isLeast (h : program.Recorded analysis) (closed : program.Closed analysis)
    (nullable_size : analysis.nullable.size = program.ops.size)
    (first_size : analysis.first.size = program.ops.size) :
    IsLeast {analysis | program.Solves analysis} analysis := by
  refine ⟨⟨nullable_size, first_size, fun op what found => ?_, fun op what kind found => ?_⟩,
    fun other hother mark hmark => ?_⟩
  · refine Bool.eq_iff_iff.mpr ⟨fun hop => ?_, closed.nullable op what found⟩
    obtain ⟨_, hfound, hgiven⟩ := closed.given_of_vanishes (h.nullable op hop)
    obtain rfl := Option.some.inj (found.symm.trans hfound)
    exact hgiven
  · refine Bool.eq_iff_iff.mpr ⟨fun hkind => ?_, closed.first op what kind found⟩
    obtain ⟨_, hfound, hgiven⟩ := closed.given_of_begins (h.first op kind hkind)
    obtain rfl := Option.some.inj (found.symm.trans hfound)
    exact hgiven
  · cases mark with
    | nullable op => exact hother.closed.isNullable_of_vanishes (h.nullable op hmark)
    | first op kind => exact hother.closed.contains_firstSet_of_begins (h.first op kind hmark)

theorem isLeast_analyze (program : Program) :
    IsLeast {analysis | program.Solves analysis} program.analyze := by
  refine program.recorded_analyze.isLeast program.closed_analyze ?_ ?_
  · exact stabilize_induction (p := fun known : Array Bool => known.size = program.ops.size)
      (fun _ _ => Array.size_map) _ Array.size_map
  · exact stabilize_induction (p := fun known : Array KindSet => known.size = program.ops.size)
      (fun _ _ => Array.size_map) _ Array.size_map

/-! ### In place -/

/-- Marks an operation as nullable, if what is known by now says so.  Also returns whether the mark
is new. -/
def revisitNullable (program : Program) (op : Nat) (what : Op Nat) (known : Analysis) :
    Analysis × Bool :=
  if program.nullableGiven known.nullable what && !known.isNullable op then
    ({ known with nullable := known.nullable.setIfInBounds op true }, true)
  else (known, false)

/-- Adds to the first set of an operation what is justified by now.  Also returns whether any of it
is new. -/
def revisitFirst (program : Program) (op : Nat) (what : Op Nat) (known : Analysis) :
    Analysis × Bool :=
  let (first, grown) :=
    (known.firstSet op).unionNew (program.firstGiven known.nullable known.first what)
  ({ known with first := known.first.setIfInBounds op first }, grown)

/-- Looks at the operations of a list again, one after the other, each with what is known by
then. -/
def revisit (program : Program) : (ops : List Nat) → Analysis → Analysis × Bool
  | [], known => (known, false)
  | op :: rest, known =>
    match program.ops[op]? with
    | none => program.revisit rest known
    | some what =>
      let (known, newlyNullable) := program.revisitNullable op what known
      let (known, grown) := program.revisitFirst op what known
      let (known, more) := program.revisit rest known
      (known, newlyNullable || grown || more)

/-- **Rounds in place**: all operations are looked at in order, and again as long as something was
new. -/
inductive Settles (program : Program) : Analysis → Analysis → Prop where
  | done {known settled}
      (round : program.revisit (List.range program.ops.size) known = (settled, false)) :
      Settles program known settled
  | again {known next settled}
      (round : program.revisit (List.range program.ops.size) known = (next, true))
      (rest : Settles program next settled) : Settles program known settled

/-- The analysis that says nothing. -/
def unmarked (program : Program) : Analysis :=
  ⟨program.ops.map fun _ => false, program.ops.map fun _ => ∅⟩

/-- What an analysis justifies: a mark that its equation asks for. -/
def Justifies (program : Program) (analysis : Analysis) : Mark → Prop
  | .nullable op => ∃ what, program.ops[op]? = some what ∧
      program.nullableGiven analysis.nullable what = true
  | .first op kind => ∃ what, program.ops[op]? = some what ∧
      (program.firstGiven analysis.nullable analysis.first what).contains kind = true

variable {known next : Analysis} {new more : Bool}

/-- What is known justifies more the more it is. -/
theorem Justifies.mono (le : known ≤ next) {mark : Mark} (h : program.Justifies known mark) :
    program.Justifies next mark := by
  have hnullable (op : Nat) : known.nullable.getD op false = true →
    next.nullable.getD op false = true := le (.nullable op)
  cases mark with
  | nullable op => exact h.imp fun what => And.imp_right (program.nullableGiven_mono hnullable)
  | first op kind =>
    obtain ⟨what, hfound, hgiven⟩ := h
    refine ⟨what, hfound, program.contains_firstGiven_mono _ (fun op => le (.first op kind)) ?_⟩
    cases what with
    | seq items =>
      obtain ⟨front, item, back, rfl, hfront, hitem⟩ := exists_of_firstOfItems hgiven
      exact Closed.contains_firstOfItems
        (fun other hother => hnullable other (hfront other hother)) hitem
    | token | choice | repetition | optional | blank | call => exact hgiven

theorem Justifies.found {mark : Mark} (h : program.Justifies known mark) :
    ∃ what, program.ops[mark.op]? = some what := by
  cases mark with
  | nullable op | first op kind =>
    obtain ⟨what, hfound, -⟩ := h
    exact ⟨what, hfound⟩

/-- An analysis with an entry for each operation. -/
structure Fits (program : Program) (analysis : Analysis) : Prop where
  nullable : analysis.nullable.size = program.ops.size
  first : analysis.first.size = program.ops.size

/-- **What looking at some marks again does**: marks are added that are derivable, and if none is
new, then what is justified among those looked at is known. -/
structure Revises (program : Program) (looked : Mark → Prop) (known next : Analysis)
    (new : Bool) : Prop where
  fits : program.Fits next
  grows : known ≤ next
  recorded : program.Recorded known → program.Recorded next
  still : new = false → next ≤ known
  closed : new = false → ∀ mark, looked mark → program.Justifies known mark → known.Has mark
  fresh : new = true → ∃ mark, next.Has mark ∧ ¬ known.Has mark

theorem Revises.nil (fits : program.Fits known) :
    program.Revises (fun _ => False) known known false where
  fits := fits
  grows _ h := h
  recorded h := h
  still _ _ h := h
  closed _ _ h := h.elim
  fresh h := nomatch h

theorem Revises.append {front back : Mark → Prop} {middle : Analysis}
    (h : program.Revises front known middle new) (h' : program.Revises back middle next more) :
    program.Revises (fun mark => front mark ∨ back mark) known next (new || more) where
  fits := h'.fits
  grows mark hmark := h'.grows mark (h.grows mark hmark)
  recorded hrecorded := h'.recorded (h.recorded hrecorded)
  still hnew mark hmark :=
    have hboth := Bool.or_eq_false_iff.mp hnew
    h.still hboth.1 mark (h'.still hboth.2 mark hmark)
  closed hnew mark hlooked hjustified := by
    have hboth := Bool.or_eq_false_iff.mp hnew
    rcases hlooked with hlooked | hlooked
    · exact h.closed hboth.1 mark hlooked hjustified
    · exact h.still hboth.1 mark (h'.closed hboth.2 mark hlooked (hjustified.mono h.grows))
  fresh hnew := by
    rcases Bool.or_eq_true_iff.mp hnew with hnew | hmore
    · obtain ⟨mark, hmark, hfresh⟩ := h.fresh hnew
      exact ⟨mark, h'.grows mark hmark, hfresh⟩
    · obtain ⟨mark, hmark, hfresh⟩ := h'.fresh hmore
      exact ⟨mark, hmark, fun hknown => hfresh (h.grows mark hknown)⟩

theorem getD_setIfInBounds {α : Type} {table : Array α} {op : Nat} (lt : op < table.size)
    (other : Nat) (entry default : α) : (table.setIfInBounds op entry).getD other default =
      if other = op then entry else table.getD other default := by
  rw [Array.getD_eq_getD_getElem?, Array.getElem?_setIfInBounds]
  by_cases h : other = op
  · rw [if_pos h.symm, if_pos lt, if_pos h, Option.getD_some]
  · rw [if_neg (Ne.symm h), if_neg h, Array.getD_eq_getD_getElem?]

variable {op : Nat} {what : Op Nat}

theorem revises_revisitNullable (fits : program.Fits known)
    (found : program.ops[op]? = some what) :
    program.Revises (· = .nullable op) known (program.revisitNullable op what known).1
      (program.revisitNullable op what known).2 := by
  unfold revisitNullable
  split <;> rename_i hnew
  · obtain ⟨hgiven, hlacks⟩ := Bool.and_eq_true_iff.mp hnew
    have hlt : op < known.nullable.size := fits.nullable ▸ (Array.getElem?_eq_some_iff.mp found).1
    -- one mark is added
    have hhas (other : Nat) : (known.nullable.setIfInBounds op true).getD other false = true ↔
        other = op ∨ known.nullable.getD other false = true := by
      rw [getD_setIfInBounds hlt]
      split <;> simp_all
    exact {
      fits := ⟨Array.size_setIfInBounds.trans fits.nullable, fits.first⟩
      grows := fun mark hmark => by
        cases mark with
        | nullable other => exact (hhas other).mpr (.inr hmark)
        | first other kind => exact hmark
      recorded := fun hrecorded => ⟨fun other hother => by
        rcases (hhas other).mp hother with rfl | hother
        · exact vanishes_of_given hrecorded.nullable found hgiven
        · exact hrecorded.nullable other hother, hrecorded.first⟩
      still := fun h => nomatch h
      closed := fun h => nomatch h
      fresh := fun _ => ⟨.nullable op, (hhas op).mpr (.inl rfl), by
        simpa [Analysis.Has] using hlacks⟩ }
  · exact {
      fits := fits
      grows := fun _ h => h
      recorded := fun h => h
      still := fun _ _ h => h
      closed := fun _ mark hlooked hjustified => by
        subst hlooked
        obtain ⟨_, hfound, hgiven⟩ := hjustified
        obtain rfl := Option.some.inj (found.symm.trans hfound)
        simpa [hgiven, Analysis.Has] using hnew
      fresh := fun h => nomatch h }

theorem revises_revisitFirst (fits : program.Fits known)
    (found : program.ops[op]? = some what) :
    program.Revises (fun mark => ∃ kind, mark = .first op kind) known
      (program.revisitFirst op what known).1 (program.revisitFirst op what known).2 := by
  have hlt : op < known.first.size := fits.first ▸ (Array.getElem?_eq_some_iff.mp found).1
  -- the kinds that are justified are added
  have hhas (other : Nat) (kind : Kind) :
      ((program.revisitFirst op what known).1.firstSet other).contains kind = true ↔
        (known.firstSet other).contains kind = true ∨ other = op ∧
          (program.firstGiven known.nullable known.first what).contains kind = true := by
    show ((known.first.setIfInBounds op (known.firstSet op ∪ _)).getD other ∅).contains kind =
      true ↔ _
    rw [getD_setIfInBounds hlt]
    split <;> rename_i heq
    · rw [heq, KindSet.contains_union, Bool.or_eq_true_iff]
      exact or_congr_right (and_iff_right rfl).symm
    · exact (or_iff_left fun h => heq h.1).symm
  have hgrown : (program.revisitFirst op what known).2 = true ↔ _ :=
    KindSet.unionNew_snd_iff (known.firstSet op)
      (program.firstGiven known.nullable known.first what)
  have hknown (still : (program.revisitFirst op what known).2 = false) (kind : Kind)
      (given : (program.firstGiven known.nullable known.first what).contains kind = true) :
      (known.firstSet op).contains kind = true := by
    by_contra hlacks
    have hnew := hgrown.mpr ⟨kind, given, Bool.eq_false_iff.mpr hlacks⟩
    rw [still] at hnew
    cases hnew
  exact {
    fits := ⟨fits.nullable, Array.size_setIfInBounds.trans fits.first⟩
    grows := fun mark hmark => by
      cases mark with
      | nullable other => exact hmark
      | first other kind => exact (hhas other kind).mpr (.inl hmark)
    recorded := fun hrecorded => ⟨hrecorded.nullable, fun other kind hkind => by
      rcases (hhas other kind).mp hkind with hkind | ⟨rfl, hgiven⟩
      · exact hrecorded.first other kind hkind
      · exact begins_of_given hrecorded.nullable (fun part => hrecorded.first part kind) found
          hgiven⟩
    still := fun hstill mark hmark => by
      cases mark with
      | nullable other => exact hmark
      | first other kind =>
        rcases (hhas other kind).mp hmark with hmark | ⟨rfl, hgiven⟩
        · exact hmark
        · exact hknown hstill kind hgiven
    closed := fun hstill mark hlooked hjustified => by
      obtain ⟨kind, rfl⟩ := hlooked
      obtain ⟨_, hfound, hgiven⟩ := hjustified
      obtain rfl := Option.some.inj (found.symm.trans hfound)
      exact hknown hstill kind hgiven
    fresh := fun hnew => by
      obtain ⟨kind, hgiven, hlacks⟩ := hgrown.mp hnew
      exact ⟨.first op kind, (hhas op kind).mpr (.inr ⟨rfl, hgiven⟩), by
        simpa [Analysis.Has] using hlacks⟩ }

/-- It is enough that what is justified among the marks in question was looked at. -/
theorem Revises.looking {looked all : Mark → Prop} (h : program.Revises looked known next new)
    (enough : ∀ mark, all mark → program.Justifies known mark → looked mark) :
    program.Revises all known next new where
  fits := h.fits
  grows := h.grows
  recorded := h.recorded
  still := h.still
  closed hnew mark hmark hjustified :=
    h.closed hnew mark (enough mark hmark hjustified) hjustified
  fresh := h.fresh

theorem revises_revisit (fits : program.Fits known) (ops : List Nat) :
    program.Revises (fun mark => mark.op ∈ ops) known (program.revisit ops known).1
      (program.revisit ops known).2 := by
  induction ops generalizing known with
  | nil => exact (Revises.nil fits).looking fun mark h _ => absurd h List.not_mem_nil
  | cons op rest ih =>
    rw [revisit]
    split <;> rename_i hfound
    · -- nothing is justified where there is no operation
      refine (ih fits).looking fun mark hlooked hjustified => ?_
      rcases List.mem_cons.mp hlooked with rfl | hrest
      · obtain ⟨what, hwhat⟩ := hjustified.found
        rw [hfound] at hwhat
        cases hwhat
      · exact hrest
    · have hnullable := revises_revisitNullable fits hfound
      have hfirst := revises_revisitFirst hnullable.fits hfound
      refine ((hnullable.append hfirst).append (ih hfirst.fits)).looking fun mark hlooked _ => ?_
      rcases List.mem_cons.mp hlooked with hop | hrest
      · refine .inl ?_
        cases mark with
        | nullable other => exact .inl (congrArg _ hop)
        | first other kind => exact .inr ⟨kind, congrArg (Mark.first · kind) hop⟩
      · exact .inr hrest

/-- **A round without news**: the equations hold in the direction in which marks are added. -/
theorem Revises.closed_of_still (h : program.Revises
    (fun mark => mark.op ∈ List.range program.ops.size) known next false) :
    program.Closed next := by
  have hclosed (mark : Mark) (hjustified : program.Justifies next mark) : next.Has mark := by
    have hknown : program.Justifies known mark := hjustified.mono (h.still rfl)
    obtain ⟨what, hfound⟩ := hknown.found
    have hlt : mark.op < program.ops.size := (Array.getElem?_eq_some_iff.mp hfound).1
    exact h.grows mark (h.closed rfl mark (List.mem_range.mpr hlt) hknown)
  exact ⟨fun op what found given => hclosed (.nullable op) ⟨what, found, given⟩,
    fun op what kind found given => hclosed (.first op kind) ⟨what, found, given⟩⟩

/-! ### There are only so many marks -/

/-- The kinds of the tokens that a program asks for. -/
def tokenKinds (program : Program) : Finset Kind :=
  (program.ops.toList.filterMap fun
    | .token kind => some kind
    | _ => none).toFinset

/-- The marks that an analysis of a program can get. -/
def marks (program : Program) : Finset Mark :=
  (Finset.range program.ops.size).image .nullable ∪
    (Finset.range program.ops.size ×ˢ program.tokenKinds).image fun place =>
      .first place.1 place.2

theorem Vanishes.lt_size {op : Nat} (h : program.Vanishes op) : op < program.ops.size := by
  cases h <;> exact (Array.getElem?_eq_some_iff.mp ‹_›).1

theorem Begins.lt_size {op : Nat} {kind : Kind} (h : program.Begins kind op) :
    op < program.ops.size := by
  cases h <;> exact (Array.getElem?_eq_some_iff.mp ‹_›).1

theorem Begins.mem_tokenKinds {op : Nat} {kind : Kind} (h : program.Begins kind op) :
    kind ∈ program.tokenKinds := by
  induction h with
  | token found =>
    exact List.mem_toFinset.mpr
      (List.mem_filterMap.mpr ⟨_, Array.mem_toList_iff.mpr (Array.mem_of_getElem? found), rfl⟩)
  | seq _ _ _ ih | choice _ _ _ ih | repetition _ _ ih | optional _ _ ih | call _ _ _ ih =>
    exact ih

theorem Recorded.mem_marks (h : program.Recorded known) {mark : Mark} (has : known.Has mark) :
    mark ∈ program.marks := by
  cases mark with
  | nullable op =>
    exact Finset.mem_union_left _ (Finset.mem_image_of_mem _
      (Finset.mem_range.mpr (h.nullable op has).lt_size))
  | first op kind =>
    have hbegins := h.first op kind has
    exact Finset.mem_union_right _ (Finset.mem_image.mpr ⟨(op, kind), Finset.mem_product.mpr
      ⟨Finset.mem_range.mpr hbegins.lt_size, hbegins.mem_tokenKinds⟩, rfl⟩)

open Classical in
/-- The marks that an analysis has not got. -/
noncomputable def missing (program : Program) (analysis : Analysis) : Finset Mark :=
  program.marks.filter fun mark => ¬ analysis.Has mark

/-- Every round with news leaves fewer marks to be added. -/
theorem Revises.missing_lt {looked : Mark → Prop} (h : program.Revises looked known next true)
    (recorded : program.Recorded known) :
    (program.missing next).card < (program.missing known).card := by
  classical
  refine Finset.card_lt_card
    (Finset.ssubset_iff_subset_ne.mpr ⟨fun mark hmark => ?_, fun heq => ?_⟩)
  · obtain ⟨hmem, hlacks⟩ := Finset.mem_filter.mp hmark
    exact Finset.mem_filter.mpr ⟨hmem, fun has => hlacks (h.grows mark has)⟩
  · obtain ⟨mark, hhas, hlacks⟩ := h.fresh rfl
    have hmissing : mark ∈ program.missing known :=
      Finset.mem_filter.mpr ⟨(h.recorded recorded).mem_marks hhas, hlacks⟩
    rw [← heq] at hmissing
    exact (Finset.mem_filter.mp hmissing).2 hhas

/-- **The rounds in place come to an end**, with an analysis that is closed and records nothing but
what is derivable. -/
theorem exists_settles (fits : program.Fits known) (recorded : program.Recorded known) :
    ∃ settled, program.Settles known settled ∧ program.Fits settled ∧
      program.Recorded settled ∧ program.Closed settled := by
  -- the induction is on the number of the marks that are missing
  induction hcount : (program.missing known).card using Nat.strong_induction_on generalizing known
  rename_i count ih
  have hrevises := revises_revisit fits (List.range program.ops.size)
  obtain ⟨next, new, hround⟩ : ∃ next new,
    program.revisit (List.range program.ops.size) known = (next, new) := ⟨_, _, rfl⟩
  rw [hround] at hrevises
  cases new with
  | false =>
    exact ⟨next, .done hround, hrevises.fits, hrevises.recorded recorded,
      hrevises.closed_of_still⟩
  | true =>
    obtain ⟨settled, hsettles, hrest⟩ := ih _ (hcount ▸ hrevises.missing_lt recorded)
      hrevises.fits (hrevises.recorded recorded) rfl
    exact ⟨settled, .again hround hsettles, hrest⟩

theorem Settles.unique {settled other : Analysis} (h : program.Settles known settled)
    (h' : program.Settles known other) : settled = other := by
  induction h with
  | done round =>
    cases h' with
    | done round' => exact congrArg Prod.fst (round.symm.trans round')
    | again round' => cases round.symm.trans round'
  | again round _ ih =>
    cases h' with
    | done round' => cases round.symm.trans round'
    | again round' rest' =>
      obtain rfl := congrArg Prod.fst (round.symm.trans round')
      exact ih rest'

theorem fits_unmarked (program : Program) : program.Fits program.unmarked :=
  ⟨Array.size_map, Array.size_map⟩

theorem recorded_unmarked (program : Program) : program.Recorded program.unmarked where
  nullable op h := by
    obtain ⟨what, -, hgiven⟩ := exists_of_getD_map_ops (p := (· = true)) h (by simp)
    cases hgiven
  first op kind h := by
    obtain ⟨what, -, hgiven⟩ :=
      exists_of_getD_map_ops (p := fun set : KindSet => set.contains kind = true) h (by simp)
    simp at hgiven

/-- **The analysis is the least solution** of its equations, and says of an operation exactly what
has a finite derivation.  The rounds in place come to an end, and whatever they leave is the same
least solution. -/
theorem leastSolution_analyze (program : Program) :
    IsLeast {analysis | program.Solves analysis} program.analyze ∧
    (∀ op, program.analyze.isNullable op = true ↔ program.Vanishes op) ∧
    (∀ op kind, (program.analyze.firstSet op).contains kind = true ↔ program.Begins kind op) ∧
    (∃ settled, program.Settles program.unmarked settled) ∧
    ∀ settled, program.Settles program.unmarked settled →
      IsLeast {analysis | program.Solves analysis} settled ∧
      ∀ mark, settled.Has mark ↔ program.analyze.Has mark := by
  obtain ⟨settled, hsettles, hfits, hrecorded, hclosed⟩ :=
    exists_settles program.fits_unmarked program.recorded_unmarked
  have hleast := hrecorded.isLeast hclosed hfits.nullable hfits.first
  refine ⟨program.isLeast_analyze, program.recorded_analyze.isNullable_iff program.closed_analyze,
    program.recorded_analyze.contains_firstSet_iff program.closed_analyze, ⟨settled, hsettles⟩,
    fun other hother => ?_⟩
  obtain rfl := hother.unique hsettles
  exact ⟨hleast, fun mark => ⟨hleast.2 program.isLeast_analyze.1 mark,
    program.isLeast_analyze.2 hleast.1 mark⟩⟩

end Program

end Syntagm
