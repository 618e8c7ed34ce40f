import Mathlib.Data.List.Chain
import Mathlib.Data.List.TakeWhile
import Mathlib.Order.WellFounded
import Syntagm.Proofs.LeftCorner

/-!
# The search for a cycle is exact

A program is refused if and only if its left corners have a cycle, and what is reported is such a
cycle (`Program.checkLeftCorners_exact`).

That no cycle is missed is `wellFounded_corner`: rules that are left again are on none.  The other
half is about the path of the search (`Trodden`).  Each rule on it has the next one in its left
corner, and none comes twice.  So when the search meets a rule of the path again, the path from
there on, with this rule at its end once more, is closed.
-/

namespace Syntagm

/-- **A closed path**: it ends with what it begins with, each element leads to the next one, and
no other element comes twice. -/
structure ClosedPath {α : Type} (edge : α → α → Prop) (path : List α) : Prop where
  closed : ∃ first inner, path = first :: inner ++ [first]
  steps : path.IsChain edge
  simple : path.dropLast.Nodup

theorem transGen_of_isChain {α : Type} {edge : α → α → Prop} {first last : α} {inner : List α}
    (steps : (first :: inner ++ [last]).IsChain edge) : Relation.TransGen edge first last := by
  induction inner generalizing first with
  | nil => exact .single (List.isChain_pair.mp steps)
  | cons next inner ih =>
    obtain ⟨hstep, hrest⟩ := List.isChain_cons_cons.mp steps
    exact .head hstep (ih hrest)

/-- A closed path is a cycle. -/
theorem ClosedPath.cycle {α : Type} {edge : α → α → Prop} {path : List α}
    (h : ClosedPath edge path) : ∃ element, Relation.TransGen edge element element := by
  obtain ⟨first, inner, rfl⟩ := h.closed
  exact ⟨first, transGen_of_isChain h.steps⟩

namespace Program

/-- A rule leads to those in its left corner. -/
abbrev Leads (corners : Array (List Nat)) : Nat → Nat → Prop := Function.swap (Corner corners)

variable {corners : Array (List Nat)}

/-- **The path that the search has trodden**, with the rule that it is at in the end. -/
structure Trodden (corners : Array (List Nat)) (path : List Nat) : Prop where
  steps : path.IsChain (Leads corners)
  simple : path.Nodup

namespace Trodden

variable {path : List Nat} {rule next : Nat}

theorem single (rule : Nat) : Trodden corners [rule] :=
  ⟨.singleton rule, List.nodup_singleton rule⟩

theorem steps_concat (h : Trodden corners (path ++ [rule])) (leads : Leads corners rule next) :
    (path ++ [rule] ++ [next]).IsChain (Leads corners) :=
  List.isChain_append.mpr ⟨h.steps, .singleton next, by simpa using leads⟩

/-- One step further, to a rule that is not on the path. -/
theorem concat (h : Trodden corners (path ++ [rule])) (leads : Leads corners rule next)
    (fresh : next ∉ path ++ [rule]) : Trodden corners (path ++ [rule] ++ [next]) :=
  ⟨h.steps_concat leads, List.nodup_append'.mpr ⟨h.simple, List.nodup_singleton next,
    List.disjoint_singleton.mpr fresh⟩⟩

/-- **A step back onto the path** closes the path from there on. -/
theorem closedPath (h : Trodden corners (path ++ [rule])) (leads : Leads corners rule next)
    (met : next ∈ path ++ [rule]) :
    ClosedPath (Leads corners) ((path ++ [rule]).dropWhile (· ≠ next) ++ [next]) := by
  have hsuffix := List.dropWhile_suffix (l := path ++ [rule]) (· ≠ next)
  obtain ⟨back, hback⟩ : ∃ back, (path ++ [rule]).dropWhile (· ≠ next) = next :: back := by
    cases hdrop : (path ++ [rule]).dropWhile (· ≠ next) with
    | nil => simpa using List.dropWhile_eq_nil_iff.mp hdrop next met
    | cons head back =>
      have hhead := List.head?_dropWhile_not (p := (· ≠ next)) (l := path ++ [rule])
      rw [hdrop] at hhead
      exact ⟨back, by simpa using hhead⟩
  refine ⟨⟨next, back, by rw [hback]⟩, ?_, ?_⟩
  · obtain ⟨front, hfront⟩ := hsuffix
    refine (h.steps_concat leads).suffix ⟨front, ?_⟩
    rw [← List.append_assoc, hfront]
  · rw [List.dropLast_concat]
    exact h.simple.sublist hsuffix.sublist

end Trodden

/-- A search that fails does so at one of its goals. -/
theorem exists_of_foldlM_eq_error {search : List Nat → Nat → Except (List Nat) (List Nat)}
    {goals before cycle : List Nat} (failed : goals.foldlM search before = .error cycle) :
    ∃ rule ∈ goals, ∃ done, search done rule = .error cycle := by
  induction goals generalizing before with
  | nil => cases failed
  | cons rule rest ih =>
    rw [List.foldlM_cons] at failed
    cases hfirst : search before rule with
    | error found =>
      rw [hfirst] at failed
      obtain rfl := Except.error.inj failed
      exact ⟨rule, List.mem_cons_self, before, hfirst⟩
    | ok middle =>
      rw [hfirst] at failed
      obtain ⟨other, hmem, hother⟩ := ih failed
      exact ⟨other, List.mem_cons_of_mem _ hmem, hother⟩

/-- **What a visit finds is a closed path.** -/
theorem closedPath_visit {depth : Nat} {path : List Nat} {rule : Nat} {before cycle : List Nat}
    (trodden : Trodden corners (path ++ [rule]))
    (found : visit corners depth path rule before = .error cycle) :
    ClosedPath (Leads corners) cycle := by
  induction depth generalizing path rule before with
  | zero => cases found
  | succ depth ih =>
    simp only [visit] at found
    obtain hgoals | ⟨done, -, hdone⟩ := bind_eq_error.mp found
    · obtain ⟨next, hnext, done, hone⟩ := exists_of_foldlM_eq_error hgoals
      split at hone
      · rename_i hmet
        obtain rfl := Except.error.inj hone
        exact trodden.closedPath hnext (List.contains_iff_mem.mp hmet)
      · rename_i hfresh
        split at hone
        · cases hone
        · exact ih (trodden.concat hnext (mt List.contains_iff_mem.mpr hfresh)) hone
    · cases hdone

/-- **The search finds nothing but closed paths.** -/
theorem closedPath_findCycle? {cycle : List Nat} (found : findCycle? corners = some cycle) :
    ClosedPath (Leads corners) cycle := by
  unfold findCycle? at found
  dsimp only at found
  split at found
  · cases found
  · rename_i other hroots
    obtain rfl := Option.some.inj found
    obtain ⟨rule, -, done, hone⟩ := exists_of_foldlM_eq_error hroots
    split at hone
    · cases hone
    · exact closedPath_visit (.single rule) hone

/-- **If it finds nothing, there is no cycle.** -/
theorem acyclic_of_findCycle? (nothing : findCycle? corners = none) (rule : Nat) :
    ¬ Relation.TransGen (Leads corners) rule rule := fun cycle =>
  (wellFounded_corner nothing).transGen.irrefl.irrefl rule (Relation.transGen_swap.mp cycle)

/-! ### Programs -/

/-- **The left-corner graph**: from a rule to each one that its entry can call before any token is
read. -/
def BeginsWith (program : Program) (analysis : Analysis) (outer inner : Nat) : Prop :=
  ∃ rule, program.rules[outer]? = some rule ∧ inner ∈ program.leftCalls analysis rule.entry

theorem leads_leftCorners (program : Program) (analysis : Analysis) :
    Leads (program.leftCorners analysis) = program.BeginsWith analysis := by
  funext outer inner
  simp only [Leads, Function.swap, Corner, leftCorners, BeginsWith, Array.getD_eq_getD_getElem?,
    Array.getElem?_map, eq_iff_iff]
  cases program.rules[outer]? <;> simp

/-- **The check of left corners is exact.**  It fails if and only if the left-corner graph has a
cycle, and then it names the rules of a closed path of that graph. -/
theorem checkLeftCorners_exact (program : Program) (analysis : Analysis) :
    ((∃ error, program.checkLeftCorners analysis = .error error) ↔
      ∃ rule, Relation.TransGen (program.BeginsWith analysis) rule rule) ∧
    ∀ error, program.checkLeftCorners analysis = .error error →
      ∃ cycle, error = .leftRecursion (cycle.map program.ruleName) ∧
        ClosedPath (program.BeginsWith analysis) cycle := by
  unfold checkLeftCorners
  rw [← leads_leftCorners]
  cases hfound : findCycle? (program.leftCorners analysis) with
  | none =>
    refine ⟨iff_of_false (fun ⟨_, h⟩ => nomatch h) fun ⟨rule, hcycle⟩ => ?_, fun _ h => nomatch h⟩
    exact acyclic_of_findCycle? hfound rule hcycle
  | some cycle =>
    have hclosed := closedPath_findCycle? hfound
    refine ⟨iff_of_true ⟨_, rfl⟩ hclosed.cycle, fun error h => ?_⟩
    exact ⟨cycle, (Except.error.inj h).symm, hclosed⟩

end Program

/-- A grammar whose start rule leads to two rules that begin with each other. -/
def Grammar.roundabout : Grammar :=
  { Grammar.empty "roundabout" with
    rules := [
      ("text", .reference "first"),
      ("first", .seq [.optional (.literal "x"), .reference "second"]),
      ("second", .choice [.literal "y", .seq [.reference "first", .literal "z"]])]
    start := some "text" }

/-- What it is lowered to. -/
def Program.roundabout : Program :=
  ((do
    let draft ← Lexicon.ofGrammar .roundabout Grammar.roundabout.tokenRules
    Program.ofGrammar .roundabout Grammar.roundabout.tokenRules draft).toOption.getD default).1

theorem Program.checkLeftCorners_roundabout :
    Program.roundabout.checkLeftCorners Program.roundabout.analyze =
      .error (.leftRecursion ["first", "second", "first"]) ∧
    (∃ rule, Relation.TransGen (Program.roundabout.BeginsWith Program.roundabout.analyze)
      rule rule) ∧
    ∃ cycle, .leftRecursion ["first", "second", "first"] =
        GrammarError.leftRecursion (cycle.map Program.roundabout.ruleName) ∧
      ClosedPath (Program.roundabout.BeginsWith Program.roundabout.analyze) cycle := by
  have hcheck : Program.roundabout.checkLeftCorners Program.roundabout.analyze =
      .error (.leftRecursion ["first", "second", "first"]) := by with_unfolding_all decide
  obtain ⟨hiff, hreported⟩ :=
    Program.checkLeftCorners_exact Program.roundabout Program.roundabout.analyze
  exact ⟨hcheck, hiff.mp ⟨_, hcheck⟩, hreported _ hcheck⟩

end Syntagm
