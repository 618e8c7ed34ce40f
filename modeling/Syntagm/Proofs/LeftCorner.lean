import Mathlib.Logic.Relation
import Syntagm.Proofs.Analysis

/-!
# No cycle is left among left corners

The search for a cycle goes on as long as it finds none, so if it ends without one, every rule was
left again after all rules in its left corner (`Settled`).  In the order in which rules were left
there is no way back: a left corner is well founded (`wellFounded_corner`).

The depth of the search bounds its path and nothing else: the rules on a path are different, so
there are never more of them than rules, and a rule is always gone into.
-/

namespace Syntagm

namespace Program

variable {corners : Array (List Nat)}

/-- A rule in the left corner of another one. -/
def Corner (corners : Array (List Nat)) (inner outer : Nat) : Prop := inner ∈ corners.getD outer []

theorem corners_eq_nil {rule : Nat} (out : corners.size ≤ rule) : corners.getD rule [] = [] := by
  simp [Array.getD_eq_getD_getElem?, Array.getElem?_eq_none out]

/-- What is no rule has nothing in its left corner. -/
theorem acc_of_le {rule : Nat} (out : corners.size ≤ rule) : Acc (Corner corners) rule := by
  refine .intro rule fun inner hinner => ?_
  rw [Corner, corners_eq_nil out] at hinner
  cases hinner

/-- **Rules in the order in which they were left**, the last one first: the left corner of each of
them was left before. -/
inductive Settled (corners : Array (List Nat)) : List Nat → Prop where
  | nil : Settled corners []
  | cons {rule done} (before : Settled corners done)
      (left : ∀ inner, Corner corners inner rule → inner < corners.size → inner ∈ done) :
      Settled corners (rule :: done)

/-- No way back leads from a settled rule. -/
theorem Settled.acc {done : List Nat} (h : Settled corners done) :
    ∀ rule ∈ done, Acc (Corner corners) rule := by
  induction h with
  | nil => exact fun _ hmem => nomatch hmem
  | @cons rule done _ left ih =>
    refine List.forall_mem_cons.mpr ⟨.intro rule fun inner hinner => ?_, ih⟩
    by_cases hlt : inner < corners.size
    · exact ih inner (left inner hinner hlt)
    · exact acc_of_le (Nat.le_of_not_lt hlt)

/-- What a part of the search has done, if it found no cycle. -/
structure Explored (corners : Array (List Nat)) (before after : List Nat) (goals : List Nat) :
    Prop where
  settled : Settled corners after
  keeps : before ⊆ after
  reached : ∀ rule ∈ goals, rule < corners.size → rule ∈ after

theorem Settled.explored {done : List Nat} (h : Settled corners done) {rule : Nat}
    (known : done.contains rule = true) : Explored corners done done [rule] :=
  ⟨h, fun _ hmem => hmem, List.forall_mem_singleton.mpr fun _ => List.contains_iff_mem.mp known⟩

/-- Searching one goal after the other. -/
theorem explored_foldlM {search : List Nat → Nat → Except (List Nat) (List Nat)}
    (goals : List Nat)
    (one : ∀ rule ∈ goals, ∀ before after, Settled corners before → search before rule = .ok after →
      Explored corners before after [rule])
    {before after : List Nat} (h : Settled corners before)
    (done : goals.foldlM search before = .ok after) : Explored corners before after goals := by
  induction goals generalizing before with
  | nil =>
    obtain rfl := pure_eq_ok.mp done
    exact ⟨h, fun _ hmem => hmem, fun _ hmem => nomatch hmem⟩
  | cons rule rest ih =>
    rw [List.foldlM_cons] at done
    obtain ⟨middle, hfirst, hrest⟩ := bind_eq_ok.mp done
    have hone := one rule List.mem_cons_self before middle h hfirst
    have hmore := ih (fun other hother => one other (List.mem_cons_of_mem _ hother)) hone.settled
      hrest
    refine ⟨hmore.settled, fun _ hmem => hmore.keeps (hone.keeps hmem),
      List.forall_mem_cons.mpr ⟨fun hlt => ?_, hmore.reached⟩⟩
    exact hmore.keeps (hone.reached rule List.mem_cons_self hlt)

/-- The path of the search: different rules, and room for more calls as long as it lacks one. -/
structure Roomy (corners : Array (List Nat)) (depth : Nat) (path : List Nat) : Prop where
  nodup : path.Nodup
  below : ∀ rule ∈ path, rule < corners.size
  room : corners.size ≤ depth + path.length

namespace Roomy

variable {depth : Nat} {path : List Nat} {rule : Nat}

/-- A rule that the path lacks fits on it. -/
theorem length_lt (h : Roomy corners depth path) (lacks : rule ∉ path)
    (lt : rule < corners.size) : path.length < corners.size := by
  have hbelow : ∀ other ∈ rule :: path, other < corners.size :=
    List.forall_mem_cons.mpr ⟨lt, h.below⟩
  have hsub : (rule :: path) ⊆ List.range corners.size := fun other hother =>
    List.mem_range.mpr (hbelow other hother)
  have hle := (List.subperm_of_subset (List.nodup_cons.mpr ⟨lacks, h.nodup⟩) hsub).length_le
  rw [List.length_range, List.length_cons] at hle
  exact hle

theorem extend (h : Roomy corners (depth + 1) path) (lacks : rule ∉ path)
    (lt : rule < corners.size) : Roomy corners depth (path ++ [rule]) where
  nodup := List.nodup_append'.mpr ⟨h.nodup, List.nodup_singleton rule,
    List.disjoint_singleton.mpr lacks⟩
  below := List.forall_mem_append.mpr ⟨h.below, List.forall_mem_singleton.mpr lt⟩
  room := by
    have := h.room
    rw [List.length_append, List.length_singleton]
    omega

end Roomy

/-- **What a visit has done, if it found no cycle.** -/
theorem explored_visit {depth : Nat} {path : List Nat} {rule : Nat} {before after : List Nat}
    (roomy : Roomy corners depth path) (lacks : rule ∉ path) (h : Settled corners before)
    (done : visit corners depth path rule before = .ok after) :
    Explored corners before after [rule] := by
  induction depth generalizing path rule before after with
  | zero =>
    obtain rfl := Except.ok.inj done
    refine ⟨h, fun _ hmem => hmem, List.forall_mem_singleton.mpr fun hlt => ?_⟩
    -- the path has no room for another rule
    have hroom := roomy.room
    have hlength := roomy.length_lt lacks hlt
    omega
  | succ depth ih =>
    simp only [visit] at done
    obtain ⟨middle, hgoals, hlast⟩ := bind_eq_ok.mp done
    obtain rfl := pure_eq_ok.mp hlast
    have hexplored : Explored corners before middle (corners.getD rule []) := by
      refine explored_foldlM _ (fun next hnext before after hsettled hone => ?_) h hgoals
      have hlt : rule < corners.size := by
        by_contra hout
        rw [corners_eq_nil (Nat.le_of_not_lt hout)] at hnext
        cases hnext
      split at hone
      · cases hone
      · rename_i hpath
        split at hone
        · rename_i hknown
          obtain rfl := Except.ok.inj hone
          exact hsettled.explored hknown
        · exact ih (roomy.extend lacks hlt) (mt List.contains_iff_mem.mpr hpath) hsettled hone
    exact ⟨.cons hexplored.settled hexplored.reached,
      fun _ hmem => List.mem_cons_of_mem _ (hexplored.keeps hmem),
      List.forall_mem_singleton.mpr fun _ => List.mem_cons_self⟩

/-- **Without a cycle, left corners are well founded.** -/
theorem wellFounded_corner (none : findCycle? corners = none) : WellFounded (Corner corners) := by
  have hroots : ∃ done, Explored corners [] done (List.range corners.size) := by
    unfold findCycle? at none
    dsimp only at none
    split at none
    · rename_i done hdone
      refine ⟨done, explored_foldlM _ (fun rule hrule before after hsettled hone => ?_) .nil hdone⟩
      split at hone
      · rename_i hknown
        obtain rfl := Except.ok.inj hone
        exact hsettled.explored hknown
      · exact explored_visit ⟨.nil, fun _ hmem => (nomatch hmem), Nat.le_add_right ..⟩
          List.not_mem_nil hsettled hone
    · cases none
  obtain ⟨done, hexplored⟩ := hroots
  refine ⟨fun rule => ?_⟩
  by_cases hlt : rule < corners.size
  · exact hexplored.settled.acc rule
      (hexplored.reached rule (List.mem_range.mpr hlt) hlt)
  · exact acc_of_le (Nat.le_of_not_lt hlt)

/-- What the entry of a rule can call before any token is read is in the left corner. -/
theorem corner_of_leftCalls {program : Program} (analysis : Analysis) {number inner : Nat}
    {rule : Rule} (lookup : program.rules[number]? = some rule)
    (call : inner ∈ program.leftCalls analysis rule.entry) :
    Corner (program.leftCorners analysis) inner number := by
  have hcorners : (program.leftCorners analysis).getD number [] =
      (program.leftCalls analysis rule.entry).eraseDups := by
    simp [leftCorners, Array.getD_eq_getD_getElem?, lookup]
  rw [Corner, hcorners]
  exact List.mem_eraseDups.mpr call

end Program

/-- **Left corners of a compiled grammar are well founded.** -/
theorem Grammar.wellFounded_compile {grammar : Grammar} {compiled : CompiledGrammar}
    (done : grammar.compile = .ok compiled) :
    WellFounded (Program.Corner (compiled.program.leftCorners compiled.analysis)) := by
  have hchecked := (analyzed_compile done).2
  unfold Program.checkLeftCorners at hchecked
  split at hchecked
  · cases hchecked
  · exact Program.wellFounded_corner ‹_›

end Syntagm
