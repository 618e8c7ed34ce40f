import Mathlib.Logic.Function.Basic
import Syntagm.Proofs.CacheContents
import Syntagm.Proofs.Pruning

/-!
# A cache that clients share

Several clients use one cache at the same time.  To get a compiled grammar a client looks it up,
and if there is none, compiles it and adds what it got.  Each half is one step, and what other
clients do may come between the two (`SharedCache.Step`).  So two clients may compile the same
grammar, and the second one to add it is given what the first one has added.

**A map.**  Whatever the order of the steps, the cache acts as a map from grammars to entries, in
which a compiled grammar stays until it is invalidated (`SharedCache.ActsAsMap`): what was returned
for a grammar is what is returned for it later on, up to the next time that it is dropped, and
something else after that.  The step lemmas say what one step does to the entry for one grammar;
the history of a run, the latest event first, is then gone through once.
-/

namespace Syntagm

/-- What happens to a shared cache, and what is answered. -/
inductive CacheEvent where
  /-- A client that wants a compiled grammar looks it up.  If nothing is found, it is not done. -/
  | lookUp (client : Nat) (grammar : Grammar) (answer : Option CacheEntry)
  /-- A client has compiled the grammar it wants, and adds what it got. -/
  | insert (client : Nat) (grammar : Grammar) (answer : Except GrammarError CacheEntry)
  /-- A grammar is looked up, and not compiled if nothing is found. -/
  | get (grammar : Grammar) (answer : Option CacheEntry)
  | invalidate (grammar : Grammar) (removed : Bool)
  | clear

namespace CacheEvent

/-- An entry is returned for a grammar. -/
def Returns (grammar : Grammar) (entry : CacheEntry) : CacheEvent → Prop
  | .lookUp _ wanted answer | .get wanted answer => wanted = grammar ∧ answer = some entry
  | .insert _ wanted answer => wanted = grammar ∧ answer = .ok entry
  | .invalidate .. | .clear => False

/-- A grammar has been compiled and is put into the cache. -/
def Inserts (grammar : Grammar) : CacheEvent → Prop
  | .insert _ wanted answer => wanted = grammar ∧ ∃ entry, answer = .ok entry
  | _ => False

/-- The cache no longer holds a grammar. -/
def Drops (grammar : Grammar) : CacheEvent → Prop
  | .invalidate unwanted _ => unwanted = grammar
  | .clear => True
  | _ => False

/-- A grammar has been put into the cache and not been dropped since.  The history has the latest
event first. -/
def Kept (grammar : Grammar) (history : List CacheEvent) : Prop :=
  ∃ later event earlier, history = later ++ event :: earlier ∧ event.Inserts grammar ∧
    ∀ other ∈ later, ¬ other.Drops grammar

end CacheEvent

/-- A cache, and which grammar each client is about to compile. -/
structure SharedCache where
  cache : GrammarCache
  wanted : Nat → Option Grammar

namespace SharedCache

/-- An empty cache, which no client waits for. -/
def start : SharedCache := ⟨.empty, fun _ => none⟩

variable (fingerprint : Grammar → UInt64)

/-- **The steps of a shared cache.** -/
inductive Step (state : SharedCache) : CacheEvent → SharedCache → Prop where
  | hit {client grammar entry} (idle : state.wanted client = none)
      (found : state.cache.lookup? fingerprint grammar = some entry) :
      Step state (.lookUp client grammar (some entry)) state
  | miss {client grammar} (idle : state.wanted client = none)
      (absent : state.cache.lookup? fingerprint grammar = none) :
      Step state (.lookUp client grammar none)
        { state with wanted := Function.update state.wanted client (some grammar) }
  | insert {client grammar compiled} (wants : state.wanted client = some grammar)
      (done : grammar.compile = .ok compiled) :
      Step state (.insert client grammar (.ok (state.cache.add fingerprint compiled).1))
        ⟨(state.cache.add fingerprint compiled).2, Function.update state.wanted client none⟩
  | fail {client grammar error} (wants : state.wanted client = some grammar)
      (failed : grammar.compile = .error error) :
      Step state (.insert client grammar (.error error))
        { state with wanted := Function.update state.wanted client none }
  | get (grammar) :
      Step state (.get grammar (state.cache.lookup? fingerprint grammar)) state
  | invalidate (grammar) :
      Step state (.invalidate grammar (state.cache.invalidate fingerprint grammar).1)
        { state with cache := (state.cache.invalidate fingerprint grammar).2 }
  | clear : Step state .clear { state with cache := state.cache.clear }

/-- **What can happen** from a state on, the latest event first. -/
inductive Run (first : SharedCache) : List CacheEvent → SharedCache → Prop where
  | refl : Run first [] first
  | step {history state event next} (run : Run first history state)
      (step : Step fingerprint state event next) : Run first (event :: history) next

variable {fingerprint} {state next : SharedCache} {event : CacheEvent}
  {history : List CacheEvent} {grammar : Grammar} {entry : CacheEntry}

/-! ### One step -/

namespace Step

variable (step : Step fingerprint state event next)
include step

theorem next_le : state.cache.next ≤ next.cache.next := by
  cases step with
  | hit | miss | fail | get | clear => exact Nat.le_refl _
  | invalidate => exact Nat.le_refl _
  | @insert client grammar compiled =>
    cases hfound : state.cache.lookup? fingerprint compiled.grammar with
    | some entry => rw [GrammarCache.add_of_found hfound]
    | none =>
      rw [(GrammarCache.add_of_absent hfound).2]
      exact Nat.le_succ _

variable (wf : state.cache.WellFormed fingerprint)
include wf

theorem wellFormed : next.cache.WellFormed fingerprint := by
  cases step with
  | hit | miss | fail | get => exact wf
  | insert _ done => exact wf.wellFormed_add done
  | invalidate => exact wf.wellFormed_invalidate
  | clear => exact GrammarCache.wellFormed_of_nil

/-- What is returned for a grammar is in the cache afterwards. -/
theorem lookup?_of_returns (returns : event.Returns grammar entry) :
    next.cache.lookup? fingerprint grammar = some entry := by
  cases step with
  | hit _ found =>
    obtain ⟨rfl, hentry⟩ := returns
    exact found.trans hentry
  | miss | fail => cases returns.2
  | insert _ done =>
    obtain ⟨rfl, hentry⟩ := returns
    rw [wf.lookup?_add done, if_pos rfl, Except.ok.inj hentry]
  | get =>
    obtain ⟨rfl, hentry⟩ := returns
    exact hentry
  | invalidate | clear => exact returns.elim

theorem lookup?_of_drops (drops : event.Drops grammar) :
    next.cache.lookup? fingerprint grammar = none := by
  cases step with
  | hit | miss | fail | get | insert => exact drops.elim
  | invalidate other => rw [wf.lookup?_invalidate, if_pos (show other = grammar from drops)]
  | clear => rfl

/-- What is in the cache stays there unless it is dropped. -/
theorem lookup?_of_not_drops (stays : ¬ event.Drops grammar)
    (found : state.cache.lookup? fingerprint grammar = some entry) :
    next.cache.lookup? fingerprint grammar = some entry := by
  cases step with
  | hit | miss | fail | get => exact found
  | insert _ done =>
    rw [wf.lookup?_add done]
    split
    · rename_i heq
      subst heq
      obtain rfl := Grammar.grammar_compile done
      rw [GrammarCache.add_of_found found]
    · exact found
  | invalidate other =>
    rw [wf.lookup?_invalidate, if_neg (show ¬ other = grammar from stays)]
    exact found
  | clear => exact absurd trivial stays

/-- What is in the cache was there before, or has been inserted with the next number. -/
theorem of_lookup? (found : next.cache.lookup? fingerprint grammar = some entry) :
    state.cache.lookup? fingerprint grammar = some entry ∨
      event.Inserts grammar ∧ entry.number = state.cache.next ∧
        next.cache.next = state.cache.next + 1 := by
  cases step with
  | hit | miss | fail | get => exact .inl found
  | @insert client added compiled wants done =>
    rw [wf.lookup?_add done] at found
    split at found
    · rename_i heq
      subst heq
      obtain rfl := Grammar.grammar_compile done
      cases hfound : state.cache.lookup? fingerprint compiled.grammar with
      | some old =>
        rw [GrammarCache.add_of_found hfound] at found
        exact .inl found
      | none =>
        obtain ⟨hentry, hnext⟩ := GrammarCache.add_of_absent hfound
        rw [hentry] at found
        obtain rfl := Option.some.inj found
        exact .inr ⟨⟨rfl, _, rfl⟩, rfl, hnext⟩
    · exact .inl found
  | invalidate =>
    rw [wf.lookup?_invalidate] at found
    split at found
    · cases found
    · exact .inl found
  | clear => cases found

end Step

/-- **A call that nothing comes between** gives what getting a compiled grammar gives, and leaves
the cache as it does. -/
theorem run_getOrCompile {client : Nat} (idle : state.wanted client = none) (grammar : Grammar) :
    ∃ event rest, Run fingerprint state (event :: rest)
        { state with cache := (state.cache.getOrCompile fingerprint grammar).2 } ∧
      match (state.cache.getOrCompile fingerprint grammar).1 with
      | .ok entry => event.Returns grammar entry
      | .error error => event = .insert client grammar (.error error) := by
  have hidle : Function.update (Function.update state.wanted client (some grammar)) client none =
      state.wanted := by
    rw [Function.update_idem, ← idle, Function.update_eq_self]
  unfold GrammarCache.getOrCompile
  cases hfound : state.cache.lookup? fingerprint grammar with
  | some entry => exact ⟨_, _, .step .refl (.hit idle hfound), rfl, rfl⟩
  | none =>
    have hmiss := Run.step .refl (Step.miss idle hfound)
    have hwants : Function.update state.wanted client (some grammar) client = some grammar :=
      Function.update_self ..
    cases hcompile : grammar.compile with
    | ok compiled =>
      have hinsert := hmiss.step (.insert hwants hcompile)
      rw [hidle] at hinsert
      exact ⟨_, _, hinsert, rfl, rfl⟩
    | error error =>
      have hfail := hmiss.step (.fail hwants hcompile)
      rw [hidle] at hfail
      exact ⟨_, _, hfail, rfl⟩

/-! ### Runs -/

namespace Run

/-- A run can be cut after any event. -/
theorem split {first : SharedCache} {later earlier : List CacheEvent}
    (run : Run fingerprint first (later ++ earlier) state) :
    ∃ middle, Run fingerprint first earlier middle := by
  induction later generalizing state with
  | nil => exact ⟨state, run⟩
  | cons event later ih =>
    cases run with
    | step run _ => exact ih run

/-- One run can go on where another ended. -/
theorem trans {first : SharedCache} {later earlier : List CacheEvent}
    (run : Run fingerprint first earlier state) (more : Run fingerprint state later next) :
    Run fingerprint first (later ++ earlier) next := by
  induction more with
  | refl => exact run
  | step _ step ih => exact .step ih step

theorem wellFormed (run : Run fingerprint start history state) :
    state.cache.WellFormed fingerprint := by
  induction run with
  | refl => exact GrammarCache.wellFormed_of_nil
  | step _ step ih => exact step.wellFormed ih

/-- What has just been returned is there. -/
theorem lookup?_of_last (run : Run fingerprint start (event :: history) state)
    (returned : event.Returns grammar entry) :
    state.cache.lookup? fingerprint grammar = some entry := by
  cases run with
  | step run step => exact step.lookup?_of_returns run.wellFormed returned

/-- **What was returned is still there**, as long as it is not dropped. -/
theorem lookup?_of_returned {later earlier : List CacheEvent}
    (run : Run fingerprint start (later ++ event :: earlier) state)
    (returned : event.Returns grammar entry) (kept : ∀ other ∈ later, ¬ other.Drops grammar) :
    state.cache.lookup? fingerprint grammar = some entry := by
  induction later generalizing state with
  | nil => exact run.lookup?_of_last returned
  | cons last later ih =>
    cases run with
    | step run step =>
      have hkept := List.forall_mem_cons.mp kept
      exact step.lookup?_of_not_drops run.wellFormed hkept.1 (ih run hkept.2)

/-- **What is in the cache has been inserted**, and not been dropped since. -/
theorem kept (run : Run fingerprint start history state)
    (found : state.cache.lookup? fingerprint grammar = some entry) :
    CacheEvent.Kept grammar history := by
  induction run with
  | refl => cases found
  | @step history state event next run step ih =>
    rcases step.of_lookup? run.wellFormed found with hbefore | ⟨hinserts, -⟩
    · obtain ⟨later, inserted, earlier, rfl, hinserts, hkept⟩ := ih hbefore
      refine ⟨event :: later, inserted, earlier, rfl, hinserts,
        List.forall_mem_cons.mpr ⟨fun hdrops => ?_, hkept⟩⟩
      rw [step.lookup?_of_drops run.wellFormed hdrops] at found
      cases found
    · exact ⟨[], event, history, rfl, hinserts, fun _ hmem => nomatch hmem⟩

/-- What was returned has a number that is in use. -/
theorem number_lt {later earlier : List CacheEvent}
    (run : Run fingerprint start (later ++ event :: earlier) state)
    (returned : event.Returns grammar entry) : entry.number < state.cache.next := by
  induction later generalizing state with
  | nil =>
    have hwf := run.wellFormed
    have hfound := run.lookup?_of_last returned
    exact hwf.numbered entry (hwf.lookup?_eq_some_iff.mp hfound).1
  | cons last later ih =>
    cases run with
    | step run step => exact Nat.lt_of_lt_of_le (ih run) step.next_le

/-- **What comes after a drop is new**: no entry is used again. -/
theorem number_lt_of_dropped {later earlier : List CacheEvent} {current : CacheEntry}
    (run : Run fingerprint start (later ++ event :: earlier) state)
    (returned : event.Returns grammar entry) (dropped : ∃ other ∈ later, other.Drops grammar)
    (found : state.cache.lookup? fingerprint grammar = some current) :
    entry.number < current.number := by
  induction later generalizing state with
  | nil =>
    obtain ⟨_, hmem, -⟩ := dropped
    cases hmem
  | cons last later ih =>
    cases run with
    | step run step =>
      rcases step.of_lookup? run.wellFormed found with hbefore | ⟨-, hnumber, -⟩
      · have hnow : ¬ last.Drops grammar := fun hdrops => by
          rw [step.lookup?_of_drops run.wellFormed hdrops] at found
          cases found
        obtain ⟨other, hmem, hdrops⟩ := dropped
        rcases List.mem_cons.mp hmem with rfl | hmem
        · exact absurd hdrops hnow
        · exact ih run ⟨other, hmem, hdrops⟩ hbefore
      · rw [hnumber]
        exact run.number_lt returned

/-- The cache has an entry for the grammars that are kept, and no others. -/
theorem isSome_lookup?_iff (run : Run fingerprint start history state) :
    (state.cache.lookup? fingerprint grammar).isSome = true ↔
      CacheEvent.Kept grammar history := by
  rw [Option.isSome_iff_exists]
  constructor
  · rintro ⟨entry, found⟩
    exact run.kept found
  · rintro ⟨later, event, earlier, rfl, inserts, hkept⟩
    cases event with
    | insert client wanted answer =>
      obtain ⟨rfl, entry, rfl⟩ := inserts
      exact ⟨entry, run.lookup?_of_returned ⟨rfl, rfl⟩ hkept⟩
    | lookUp | get | invalidate | clear => exact inserts.elim

/-- What is returned was compiled from the grammar that was asked for. -/
theorem compile_of_returned {later earlier : List CacheEvent}
    (run : Run fingerprint start (later ++ event :: earlier) state)
    (returned : event.Returns grammar entry) :
    entry.compiled.grammar = grammar ∧ grammar.compile = .ok entry.compiled := by
  obtain ⟨after, hrun⟩ := run.split
  have hfound := hrun.lookup?_of_last returned
  obtain ⟨hmem, rfl⟩ := hrun.wellFormed.lookup?_eq_some_iff.mp hfound
  exact ⟨rfl, hrun.wellFormed.compiled entry hmem⟩

/-- **Getting a compiled grammar is one way to go on**, and the grammar is kept afterwards if it
compiles. -/
theorem getOrCompile (run : Run fingerprint start history state) {client : Nat}
    (idle : state.wanted client = none) (grammar : Grammar) :
    ∃ events, Run fingerprint start (events ++ history)
        { state with cache := (state.cache.getOrCompile fingerprint grammar).2 } ∧
      ∀ entry, (state.cache.getOrCompile fingerprint grammar).1 = .ok entry →
        CacheEvent.Kept grammar (events ++ history) ∧ grammar.compile = .ok entry.compiled := by
  obtain ⟨event, rest, hcall, hanswer⟩ := run_getOrCompile idle grammar
  have hrun := run.trans hcall
  refine ⟨event :: rest, hrun, fun entry hentry => ?_⟩
  rw [hentry] at hanswer
  have hrun : Run fingerprint start ([] ++ event :: (rest ++ history)) _ := hrun
  exact ⟨hrun.kept (hrun.lookup?_of_last hanswer), (hrun.compile_of_returned hanswer).2⟩

/-- **The same entry is returned until the grammar is dropped**, and another one after that. -/
theorem eq_iff_not_dropped {later between earlier : List CacheEvent} {first second : CacheEvent}
    {old current : CacheEntry}
    (run : Run fingerprint start (later ++ second :: (between ++ first :: earlier)) state)
    (returned : first.Returns grammar old) (again : second.Returns grammar current) :
    old = current ↔ ∀ event ∈ between, ¬ event.Drops grammar := by
  obtain ⟨after, hrun⟩ := run.split
  have hfound := hrun.lookup?_of_last again
  have hrun : Run fingerprint start ((second :: between) ++ first :: earlier) after := hrun
  have hnow : ¬ second.Drops grammar := fun hdrops => by
    cases second with
    | lookUp | get | insert => exact hdrops
    | invalidate | clear => exact again
  constructor
  · rintro rfl event hmem hdrops
    exact Nat.lt_irrefl _ (hrun.number_lt_of_dropped returned
      ⟨event, List.mem_cons_of_mem _ hmem, hdrops⟩ hfound)
  · intro hkept
    have hold := hrun.lookup?_of_returned returned (List.forall_mem_cons.mpr ⟨hnow, hkept⟩)
    exact Option.some.inj (hold.symm.trans hfound)

end Run

/-- **A map from grammars to compiled grammars**, as clients see it after a history. -/
structure ActsAsMap (fingerprint : Grammar → UInt64) (history : List CacheEvent)
    (state : SharedCache) : Prop where
  /-- No two entries are for the same grammar. -/
  distinct : (state.cache.entries.map (·.compiled.grammar)).Nodup
  /-- No bucket is left empty. -/
  nonempty : ∀ bucket ∈ state.cache.buckets, bucket.2 ≠ []
  /-- What was ever returned was compiled from the grammar that was asked for. -/
  compiled : ∀ event ∈ history, ∀ grammar entry, event.Returns grammar entry →
    entry.compiled.grammar = grammar ∧ grammar.compile = .ok entry.compiled
  /-- A grammar is found if it was put in and not dropped since. -/
  get : ∀ grammar answer next, Step fingerprint state (.get grammar answer) next →
    (answer.isSome = true ↔ CacheEvent.Kept grammar history)
  invalidate : ∀ grammar removed next, Step fingerprint state (.invalidate grammar removed) next →
    (removed = true ↔ CacheEvent.Kept grammar history)
  size : ∃ grammars : Finset Grammar,
    (∀ grammar, grammar ∈ grammars ↔ CacheEvent.Kept grammar history) ∧
      state.cache.size = grammars.card
  isEmpty : state.cache.isEmpty = true ↔ state.cache.size = 0
  /-- A grammar that does not compile leaves the cache as it is. -/
  failed : ∀ client grammar error next,
    Step fingerprint state (.insert client grammar (.error error)) next →
      grammar.compile = .error error ∧ next.cache = state.cache
  /-- The same entry is returned for a grammar until it is dropped, and another one after that. -/
  same : ∀ later second between first earlier grammar old current,
    history = later ++ second :: (between ++ first :: earlier) →
      first.Returns grammar old → second.Returns grammar current →
        (old = current ↔ ∀ event ∈ between, ¬ event.Drops grammar)

/-- **A shared cache acts as a map**, whatever clients do in whatever order, and even if all
grammars have the same fingerprint. -/
theorem actsAsMap_of_run (run : Run fingerprint start history state) :
    ActsAsMap fingerprint history state where
  distinct := run.wellFormed.nodup_entries
  nonempty := run.wellFormed.nonempty
  compiled event hmem grammar entry returned := by
    obtain ⟨later, earlier, rfl⟩ := List.append_of_mem hmem
    exact run.compile_of_returned returned
  get grammar answer next step := by
    cases step
    exact run.isSome_lookup?_iff
  invalidate grammar removed next step := by
    cases step
    exact GrammarCache.invalidate_eq_true_iff.trans run.isSome_lookup?_iff
  size := by
    obtain ⟨grammars, hmem, hcard⟩ := run.wellFormed.size_eq_card
    exact ⟨grammars, fun grammar => (hmem grammar).trans run.isSome_lookup?_iff, hcard⟩
  isEmpty := run.wellFormed.isEmpty_iff
  failed _ _ _ _ step := by
    cases step with
    | fail _ failed => exact ⟨failed, rfl⟩
  same _ _ _ _ _ _ _ _ heq returned again := by
    subst heq
    exact run.eq_iff_not_dropped returned again

/-- Two clients compile the same grammar, and the second one to add it is given what the first one
has added, though a grammar with the same fingerprint has been added in between. -/
theorem actsAsMap_race :
    ∃ pair sum state,
      let history : List CacheEvent :=
        [.get .pair none, .invalidate .pair true, .insert 1 .pair (.ok pair),
          .insert 2 .sum (.ok sum), .insert 0 .pair (.ok pair), .lookUp 2 .sum none,
          .lookUp 1 .pair none, .lookUp 0 .pair none]
      Run (fun _ => 0) start history state ∧ ActsAsMap (fun _ => 0) history state := by
  have hpair := Grammar.compile_pair
  have hsum := Grammar.compile_sum
  have hlooked : Run (fun _ => 0) start
      [.lookUp 2 .sum none, .lookUp 1 .pair none, .lookUp 0 .pair none]
      ⟨.empty, Function.update (Function.update (Function.update (fun _ => none)
        0 (some .pair)) 1 (some .pair)) 2 (some .sum)⟩ :=
    ((Run.refl.step (.miss rfl rfl)).step (.miss rfl rfl)).step (.miss rfl rfl)
  have hfirst := hlooked.step (@Step.insert _ _ 0 _ _ rfl hpair)
  have hother := hfirst.step (@Step.insert _ _ 2 _ _ rfl hsum)
  have hfound := @Run.lookup?_of_returned _ _ _ _ _ [_] _ hother ⟨rfl, rfl⟩
    (List.forall_mem_singleton.mpr id)
  have hsecond := hother.step (@Step.insert _ _ 1 _ _ rfl hpair)
  rw [GrammarCache.add_of_found (Grammar.grammar_compile hpair ▸ hfound)] at hsecond
  have hdropped := hsecond.step (.invalidate .pair)
  rw [GrammarCache.invalidate_eq_true_iff.mpr (Option.isSome_of_eq_some hfound)] at hdropped
  have hgot := hdropped.step (.get .pair)
  rw [hsecond.wellFormed.lookup?_invalidate, if_pos rfl] at hgot
  exact ⟨_, _, _, hgot, actsAsMap_of_run hgot⟩

end SharedCache

end Syntagm
