import Syntagm.Proofs.Pruning

/-!
# Matches of nothing

What matches nothing is nullable by the analysis (`Evaluates.nullable`).  The loops of the engine
have to guard against such matches: a repetition ends with one, and a tail that matches nothing
does not count.  In an ordered choice, an alternative that matches nothing hides those after it.

All three are conflicts, and a grammar with a conflict that it does not declare is not compiled.
So in a grammar without declared conflicts the analysis finds nothing nullable in these places
(`Program.Productive`), and the guards of the engine never have anything to do
(`Engine.NeverIdle`).
-/

namespace Syntagm

namespace Program

variable {program : Program} {analysis : Analysis} {grammar : Grammar}

/-- A conflict that the grammar does not declare is an error. -/
theorem conflicts_eq_nil {kinds : KindTable} {found : List Warning}
    (done : program.checkConflicts grammar analysis kinds = .ok found)
    (undeclared : ∀ name, grammar.inDeclaredConflict name = false) :
    program.conflicts analysis = [] := by
  obtain ⟨tolerated, htolerated, -⟩ := bind_eq_ok.mp done
  cases hconflicts : program.conflicts analysis with
  | nil => rfl
  | cons first rest =>
    obtain ⟨rules, cause⟩ := first
    have hnone : rules.any grammar.inDeclaredConflict = false :=
      List.any_eq_false.mpr fun name _ => by simp [undeclared name]
    rw [hconflicts, toleratedConflicts, List.mapM_cons] at htolerated
    obtain ⟨_, hfirst, -⟩ := bind_eq_ok.mp htolerated
    simp [hnone] at hfirst

/-- **Nothing nullable where it would idle or hide something**: not in a repetition, not as a
tail, and of the alternatives of a choice at most the last. -/
structure Productive (program : Program) (analysis : Analysis) : Prop where
  repetitions : ∀ (op least : Nat) (inner : Fin op),
    program.view op = .repetition least inner → analysis.isNullable inner = false
  tails : ∀ rule ∈ program.rules, ∀ (base : Nat) (tails : List Tail),
    rule.body = .leftRecursive base tails → ∀ tail ∈ tails, analysis.isNullable tail.op = false
  choices : ∀ (op : Nat) (alternatives : List (Fin op)),
    program.view op = .choice alternatives →
      ∀ alternative ∈ alternatives.dropLast, analysis.isNullable alternative = false

theorem opConflicts_eq_nil (none : program.conflicts analysis = []) {op : Nat} {what : Op Nat}
    (found : program.ops[op]? = some what) : program.opConflicts analysis op = [] := by
  have hall := List.flatMap_eq_nil_iff.mp (List.append_eq_nil_iff.mp none).1
  exact hall op (List.mem_range.mpr (Array.getElem?_eq_some_iff.mp found).1)

/-- Without a conflict in a choice, an alternative with others behind it is not nullable. -/
theorem not_nullable_of_choiceConflicts {owner : String} {alternatives : List Nat}
    (none : program.choiceConflicts analysis owner alternatives = []) {alternative : Nat}
    (mem : alternative ∈ alternatives.dropLast) : analysis.isNullable alternative = false := by
  have hshadowing := List.filterMap_eq_nil_iff.mp (List.append_eq_nil_iff.mp none).1
  obtain ⟨position, hposition⟩ := List.mem_iff_getElem?.mp mem
  have halternative := hshadowing (alternative, position)
    (List.mem_zipIdx_iff_getElem?.mpr hposition)
  simpa using halternative

theorem not_nullable_of_nullableTails (none : program.nullableTails analysis = []) {rule : Rule}
    (mem : rule ∈ program.rules) {base : Nat} {tails : List Tail}
    (body : rule.body = .leftRecursive base tails) {tail : Tail} (tail_mem : tail ∈ tails) :
    analysis.isNullable tail.op = false := by
  obtain ⟨number, hnumber⟩ := List.mem_iff_getElem?.mp (Array.mem_toList_iff.mpr mem)
  have htails := List.flatMap_eq_nil_iff.mp none (rule, number)
    (List.mem_zipIdx_iff_getElem?.mpr hnumber)
  simp only [body] at htails
  obtain ⟨position, hposition⟩ := List.mem_iff_getElem?.mp tail_mem
  have htail := List.filterMap_eq_nil_iff.mp htails (tail, position)
    (List.mem_zipIdx_iff_getElem?.mpr hposition)
  simpa using htail

/-- **A program without conflicts is productive.** -/
theorem productive_of_conflicts (none : program.conflicts analysis = []) :
    program.Productive analysis where
  repetitions op least inner view := by
    have hop := getElem?_of_view view (by simp)
    have hnone := opConflicts_eq_nil none hop
    simpa [opConflicts, hop, Op.withoutLimit] using hnone
  tails rule mem base tails body tail tail_mem :=
    not_nullable_of_nullableTails (List.map_eq_nil_iff.mp (List.append_eq_nil_iff.mp none).2) mem
      body tail_mem
  choices op alternatives view alternative mem := by
    have hsome : Op.choice alternatives ≠ .choice [] := by
      rintro ⟨⟩
      cases mem
    have hop := getElem?_of_view view hsome
    have hnone := opConflicts_eq_nil none hop
    simp only [opConflicts, hop, Op.withoutLimit] at hnone
    refine not_nullable_of_choiceConflicts hnone ?_
    rw [← List.map_dropLast]
    exact List.mem_map_of_mem mem

end Program

namespace Grammar

variable {grammar : Grammar} {compiled : CompiledGrammar}

/-- Declared conflicts are about rules. -/
theorem declares_of_inDeclaredConflict {start name : String}
    (resolved : grammar.resolve = .ok start) (conflict : grammar.inDeclaredConflict name = true) :
    grammar.declares name = true := by
  have hall : grammar.resolveAll "conflicts" grammar.conflicts.flatten = .ok () := by
    unfold resolve at resolved
    split at resolved
    · exact absurd resolved throw_ne_ok
    · split at resolved
      · obtain ⟨_, hthrow, -⟩ := bind_eq_ok.mp resolved
        exact absurd hthrow throw_ne_ok
      · simp only [bind_eq_ok, pure_eq_ok] at resolved
        obtain ⟨_, _, _, _, _, _, _, _, _, _, _, hconflicts, -⟩ := resolved
        exact hconflicts
  have hmem : name ∈ grammar.conflicts.flatten := by
    obtain ⟨names, hnames, hname⟩ := List.any_eq_true.mp conflict
    exact List.mem_flatten.mpr ⟨names, hnames, List.contains_iff_mem.mp hname⟩
  unfold resolveAll at hall
  split at hall
  · cases hall
  · rename_i hnone
    simpa using List.find?_eq_none.mp hnone name hmem

/-- **A grammar without declared conflicts** that compiles has a productive program. -/
theorem productive_compile (done : grammar.compile = .ok compiled)
    (undeclared : ∀ name, grammar.declares name = true →
      grammar.inDeclaredConflict name = false) :
    compiled.program.Productive compiled.analysis := by
  unfold compile at done
  obtain ⟨start, hresolve, done⟩ := bind_eq_ok.mp done
  obtain ⟨draft, _, done⟩ := bind_eq_ok.mp done
  obtain ⟨⟨program, kinds⟩, _, done⟩ := bind_eq_ok.mp done
  obtain ⟨_, _, done⟩ := bind_eq_ok.mp done
  obtain ⟨found, hfound, done⟩ := bind_eq_ok.mp done
  have hnone (name : String) : grammar.inDeclaredConflict name = false :=
    Bool.eq_false_iff.mpr fun conflict =>
      Bool.eq_false_iff.mp (undeclared name (declares_of_inDeclaredConflict hresolve conflict))
        conflict
  split at done
  · obtain ⟨sync, _, done⟩ := bind_eq_ok.mp done
    obtain rfl := pure_eq_ok.mp done
    exact Program.productive_of_conflicts (Program.conflicts_eq_nil hfound hnone)
  · exact absurd done throw_ne_ok

end Grammar

/-- **What is not nullable takes input**, and takes it from the stream. -/
theorem Evaluates.moves {compiled : CompiledGrammar} {analysis : Analysis}
    {tokens : Array StreamToken} {op position : Nat} {found : Match} {seen : Observation}
    (h : Evaluates compiled tokens (.op op) position (some found) seen)
    (closed : compiled.program.Closed analysis) (not_nullable : analysis.isNullable op = false) :
    position < found.stop ∧ found.stop ≤ tokens.size := by
  have hmoved : position < found.stop := by
    refine Nat.lt_of_le_of_ne (h.confined.le_stop found rfl) fun still => ?_
    have hnullable : analysis.isNullable op = true := h.nullable closed found rfl still.symm
    rw [not_nullable] at hnullable
    cases hnullable
  exact ⟨hmoved, (h.confined.read found rfl hmoved).2⟩

namespace Engine

/-- **Nothing idles at a position**: what is matched once more there, whether in a repetition or
as a tail, takes input from the stream, so no guard against a match of nothing comes into play;
and an alternative that is not the last of its choice does not match nothing. -/
structure NeverIdle (compiled : CompiledGrammar) (tokens : Array StreamToken)
    (evaluate : (op : Nat) → Evaluator) (position : Nat) (memo : Memo) : Prop where
  round : ∀ (op least : Nat) (inner : Fin op) (found : Match),
    compiled.program.view op = .repetition least inner →
      (evaluate inner position memo).result = some found →
        position < found.stop ∧ found.stop ≤ tokens.size
  tail : ∀ rule ∈ compiled.program.rules, ∀ (base : Nat) (tails : List Tail),
    rule.body = .leftRecursive base tails → ∀ tail ∈ tails, ∀ found : Match,
      (evaluate tail.op position memo).result = some found →
        position < found.stop ∧ found.stop ≤ tokens.size
  alternative : ∀ (op : Nat) (alternatives : List (Fin op)),
    compiled.program.view op = .choice alternatives →
      ∀ alternative ∈ alternatives.dropLast, ∀ found : Match,
        (evaluate alternative position memo).result = some found → position < found.stop

theorem neverIdle_of_productive {compiled : CompiledGrammar} {tokens : Array StreamToken}
    {evaluate : (op : Nat) → Evaluator}
    (sound : ∀ op, Sound compiled tokens (.op op) (evaluate op))
    (closed : compiled.program.Closed compiled.analysis)
    (productive : compiled.program.Productive compiled.analysis) (position : Nat) {memo : Memo}
    (valid : memo.Valid compiled tokens) : NeverIdle compiled tokens evaluate position memo := by
  have hmoves {op : Nat} {found : Match} (not_nullable : compiled.analysis.isNullable op = false)
      (hfound : (evaluate op position memo).result = some found) :
      position < found.stop ∧ found.stop ≤ tokens.size := by
    have heval := (sound op position memo valid).1
    rw [hfound] at heval
    exact heval.moves closed not_nullable
  exact {
    round := fun op least inner found view => hmoves (productive.repetitions op least inner view)
    tail := fun rule mem base tails body tail tail_mem found =>
      hmoves (productive.tails rule mem base tails body tail tail_mem)
    alternative := fun op alternatives view alternative mem found hfound =>
      (hmoves (productive.choices op alternatives view alternative mem) hfound).1 }

/-- **Matches of nothing.**  In every run on any tokens, what matches nothing is nullable; and if
no rule is in a declared conflict, nothing idles.  A run keeps what it remembers valid, so this is
said of every position and of every valid memory. -/
theorem nullable_and_neverIdle {grammar : Grammar} {compiled : CompiledGrammar}
    (done : grammar.compile = .ok compiled) (tokens : Array StreamToken) (memoize : Bool)
    (depth : Nat) (frames : List Nat) (position : Nat) {memo : Memo}
    (valid : memo.Valid compiled tokens) :
    let evaluate := evaluate compiled tokens (callRule compiled tokens memoize depth frames)
    (∀ (op : Nat) (found : Match), (evaluate op position memo).result = some found →
        found.stop = position → compiled.analysis.isNullable op = true) ∧
      ((∀ name, grammar.declares name = true → grammar.inDeclaredConflict name = false) →
        NeverIdle compiled tokens evaluate position memo) := by
  intro evaluate
  have closed := Grammar.closed_compile done
  have hsound (op : Nat) : Sound compiled tokens (.op op) (evaluate op) :=
    sound_evaluate (fun rule bound => sound_callRule memoize depth frames rule bound) op
  refine ⟨fun op found hfound still => ?_, fun undeclared => ?_⟩
  · exact (hsound op position memo valid).1.nullable closed found hfound still
  · exact neverIdle_of_productive hsound closed (Grammar.productive_compile done undeclared)
      position valid

end Engine

/-! ### Lists -/

/-- The grammar of lists in brackets of items, which are `x` or lists, with marks behind them. -/
def Grammar.lists : Grammar :=
  { Grammar.empty "lists" with
    rules := [
      ("list", .seq [.literal "(", .repetition 0 (.reference "item"), .literal ")"]),
      ("item", .choice
        [.seq [.reference "item", .literal "+"], .reference "list", .literal "x"])]
    start := some "list" }

/-- What it is compiled to. -/
def CompiledGrammar.lists : CompiledGrammar := Grammar.lists.compile.toOption.getD default

theorem Grammar.compile_lists : Grammar.lists.compile = .ok CompiledGrammar.lists :=
  Grammar.compile_eq_getD (by with_unfolding_all decide)

/-- In `(x+)` the repetition, which is the operation 2, matches `x+`, and nothing behind that. -/
theorem Engine.nullable_and_neverIdle_lists :
    let tokens := CompiledGrammar.lists.streamOf ['(', 'x', '+', ')']
    let evaluate := evaluate .lists tokens (callRule .lists tokens false 8 [])
    (evaluate 2 1 ∅).result.map (·.stop) = some 3 ∧
      (evaluate 2 3 ∅).result.map (·.stop) = some 3 ∧
      CompiledGrammar.lists.analysis.isNullable 2 = true ∧
      NeverIdle .lists tokens evaluate 1 ∅ := by
  intro tokens evaluate
  have hround : (evaluate 2 1 ∅).result.map (·.stop) = some 3 := by
    simp only [evaluate, result_evaluate_afresh]
    with_unfolding_all decide
  have hstill : (evaluate 2 3 ∅).result.map (·.stop) = some 3 := by
    simp only [evaluate, result_evaluate_afresh]
    with_unfolding_all decide
  have undeclared (name : String) : Grammar.lists.inDeclaredConflict name = false := rfl
  have hthere := nullable_and_neverIdle Grammar.compile_lists tokens false 8 [] 3 Memo.valid_empty
  have hhere := nullable_and_neverIdle Grammar.compile_lists tokens false 8 [] 1 Memo.valid_empty
  obtain ⟨found, hfound, hstop⟩ := Option.map_eq_some_iff.mp hstill
  exact ⟨hround, hstill, hthere.1 2 found hfound hstop, hhere.2 fun name _ => undeclared name⟩

end Syntagm
