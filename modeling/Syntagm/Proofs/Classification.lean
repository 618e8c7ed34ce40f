import Mathlib.Data.List.Basic
import Mathlib.Order.Basic
import Syntagm.Lexicon.Expansion
import Syntagm.Lexicon.TokenRules

/-!
# The token rules are the least set that is closed under the test

A rule passes the test for token rules with the help of other token rules, so more token rules
never make a rule fail.  From no token rules on, round after round, the rules that pass become more;
there are only so many, and what is there in the end is closed.  As nothing is added that does not
pass because of what was there before, it lies in every closed set
(`Grammar.leastTokenRules_tokenRules`).

**In place.**  The rules may as well be looked at one after the other, each with the token rules
that are known by then, and again from the first one on until none is new (`Grammar.Sorts`).  Every
round but the last adds a rule, so this comes to an end, and it leaves a least closed set too.  Of
those there is one, and whether a set is one does not depend on the order of the rules.
-/

namespace Syntagm.Grammar

variable {grammar : Grammar} {tokens others : List String}

/-! ### The test -/

theorem isTokenPart_mono (le : tokens ⊆ others) {allowLiteral : Bool} {part : Expression}
    (h : isTokenPart allowLiteral tokens part = true) :
    isTokenPart allowLiteral others part = true := by
  unfold isTokenPart at h ⊢
  split at h
  · exact h
  · exact List.contains_iff_mem.mpr (le (List.contains_iff_mem.mp h))
  · exact h

/-- **More token rules make no rule fail.** -/
theorem isTokenBody_mono (le : tokens ⊆ others) {allowLiteral : Bool} {body : Expression}
    (h : isTokenBody allowLiteral tokens body = true) :
    isTokenBody allowLiteral others body = true := by
  unfold isTokenBody at h ⊢
  split at h
  · exact List.all_eq_true.mpr fun part hpart =>
      isTokenPart_mono le (List.all_eq_true.mp h part hpart)
  · exact isTokenPart_mono le h

/-- The rule passes the test when `tokens` are the token rules, and it is not the start rule. -/
def Passes (grammar : Grammar) (tokens : List String) (rule : String × Expression) : Prop :=
  grammar.start ≠ some rule.1 ∧ isTokenBody (grammar.allowsLiteral rule.1) tokens rule.2 = true

theorem Passes.mono {rule : String × Expression} (h : grammar.Passes tokens rule)
    (le : tokens ⊆ others) : grammar.Passes others rule :=
  ⟨h.1, isTokenBody_mono le h.2⟩

/-- **A set that is closed under the test**: all rules that pass belong to it. -/
def ClosedUnderTest (grammar : Grammar) (tokens : List String) : Prop :=
  ∀ rule ∈ grammar.rules, grammar.Passes tokens rule → rule.1 ∈ tokens

/-- Token rules that are justified: they are rules other than the start rule, and no closed set does
without them. -/
structure Justified (grammar : Grammar) (tokens : List String) : Prop where
  nonStart : ∀ name ∈ tokens, name ∈ grammar.rules.map (·.1) ∧ grammar.start ≠ some name
  least : ∀ closed, grammar.ClosedUnderTest closed → tokens ⊆ closed

/-- **The least set of rules other than the start rule that is closed under the test.** -/
structure LeastTokenRules (grammar : Grammar) (tokens : List String) : Prop
    extends grammar.Justified tokens where
  closed : grammar.ClosedUnderTest tokens

namespace Justified

theorem nil : grammar.Justified [] :=
  ⟨List.forall_mem_nil _, fun _ _ => List.nil_subset _⟩

/-- A rule that passes with justified token rules is justified. -/
theorem of_passes (h : grammar.Justified tokens) {rule : String × Expression}
    (declared : rule ∈ grammar.rules) (passes : grammar.Passes tokens rule) :
    (rule.1 ∈ grammar.rules.map (·.1) ∧ grammar.start ≠ some rule.1) ∧
      ∀ closed, grammar.ClosedUnderTest closed → rule.1 ∈ closed :=
  ⟨⟨List.mem_map_of_mem declared, passes.1⟩, fun closed hclosed =>
    hclosed rule declared (passes.mono (h.least closed hclosed))⟩

theorem cons (h : grammar.Justified tokens) {rule : String × Expression}
    (declared : rule ∈ grammar.rules) (passes : grammar.Passes tokens rule) :
    grammar.Justified (rule.1 :: tokens) := by
  obtain ⟨hrule, hleast⟩ := h.of_passes declared passes
  exact ⟨List.forall_mem_cons.mpr ⟨hrule, h.nonStart⟩, fun closed hclosed =>
    List.cons_subset.mpr ⟨hleast closed hclosed, h.least closed hclosed⟩⟩

end Justified

/-- **There is one least closed set.** -/
theorem LeastTokenRules.mem_iff (h : grammar.LeastTokenRules tokens)
    (h' : grammar.LeastTokenRules others) (name : String) : name ∈ tokens ↔ name ∈ others :=
  ⟨fun hname => h.least others h'.closed hname, fun hname => h'.least tokens h.closed hname⟩

/-- The order of the rules does not matter. -/
theorem LeastTokenRules.of_perm {rules : List (String × Expression)}
    (h : { grammar with rules := rules }.LeastTokenRules tokens) (perm : rules.Perm grammar.rules) :
    grammar.LeastTokenRules tokens where
  nonStart name hname := (h.nonStart name hname).imp_left (perm.map _).mem_iff.mp
  least closed hclosed := h.least closed fun rule hrule => hclosed rule (perm.mem_iff.mp hrule)
  closed rule hrule := h.closed rule (perm.mem_iff.mpr hrule)

/-! ### Rounds over all rules at once -/

theorem mem_tokenRulesGiven {name : String} : name ∈ grammar.tokenRulesGiven tokens ↔
    ∃ rule ∈ grammar.rules, grammar.Passes tokens rule ∧ rule.1 = name := by
  simp [tokenRulesGiven, Passes, and_assoc]

theorem tokenRulesGiven_mono (le : tokens ⊆ others) :
    (grammar.tokenRulesGiven tokens).Sublist (grammar.tokenRulesGiven others) := by
  refine (List.monotone_filter_right grammar.rules fun rule h => ?_).map _
  rw [Bool.and_eq_true] at h ⊢
  exact h.imp_right (isTokenBody_mono le)

theorem length_tokenRulesGiven_le (grammar : Grammar) (tokens : List String) :
    (grammar.tokenRulesGiven tokens).length ≤ grammar.ruleCount := by
  rw [tokenRulesGiven, List.length_map]
  exact List.length_filter_le ..

theorem Justified.tokenRulesGiven (h : grammar.Justified tokens) :
    grammar.Justified (grammar.tokenRulesGiven tokens) := by
  refine ⟨fun name hname => ?_, fun closed hclosed name hname => ?_⟩ <;>
    obtain ⟨rule, hrule, hpasses, rfl⟩ := mem_tokenRulesGiven.mp hname
  · exact (h.of_passes hrule hpasses).1
  · exact (h.of_passes hrule hpasses).2 closed hclosed

theorem Justified.tokenRulesFrom (h : grammar.Justified tokens) (rounds : Nat) :
    grammar.Justified (grammar.tokenRulesFrom rounds tokens) := by
  induction rounds generalizing tokens with
  | zero => exact h
  | succ rounds ih =>
    rw [Grammar.tokenRulesFrom]
    split
    · exact h
    · exact ih h.tokenRulesGiven

/-- **After as many rounds as there are rules to come, another one adds nothing.** -/
theorem tokenRulesGiven_tokenRulesFrom {rounds : Nat}
    (grows : tokens.Sublist (grammar.tokenRulesGiven tokens))
    (enough : grammar.ruleCount ≤ tokens.length + rounds) :
    grammar.tokenRulesGiven (grammar.tokenRulesFrom rounds tokens) =
      grammar.tokenRulesFrom rounds tokens := by
  induction rounds generalizing tokens with
  | zero =>
    rw [tokenRulesFrom]
    have hlength := Nat.le_trans (grammar.length_tokenRulesGiven_le tokens) enough
    exact (grows.eq_of_length_le hlength).symm
  | succ rounds ih =>
    rw [tokenRulesFrom]
    split
    · assumption
    · rename_i more
      have hlt : tokens.length < (grammar.tokenRulesGiven tokens).length :=
        Nat.lt_of_not_le fun hle => more (grows.eq_of_length_le hle).symm
      exact ih (tokenRulesGiven_mono grows.subset) (by omega)

/-- **The token rules are the least closed set.** -/
theorem leastTokenRules_tokenRules (grammar : Grammar) :
    grammar.LeastTokenRules grammar.tokenRules where
  toJustified := Justified.nil.tokenRulesFrom grammar.ruleCount
  closed rule hrule hpasses := by
    have hfixed : grammar.tokenRulesGiven grammar.tokenRules = grammar.tokenRules :=
      tokenRulesGiven_tokenRulesFrom (List.nil_sublist _) (Nat.le_add_left ..)
    rw [← hfixed]
    exact mem_tokenRulesGiven.mpr ⟨rule, hrule, hpasses, rfl⟩

/-! ### In place -/

/-- Looks at a rule again: it becomes a token rule if it passes the test by now.  Also returns
whether it is new. -/
def revisitRule (grammar : Grammar) (rule : String × Expression) (tokens : List String) :
    List String × Bool :=
  if tokens.contains rule.1 || grammar.start == some rule.1 then (tokens, false)
  else if isTokenBody (grammar.allowsLiteral rule.1) tokens rule.2 then (rule.1 :: tokens, true)
  else (tokens, false)

/-- Looks at the rules of a list again, one after the other, each with the token rules that are
known by then. -/
def revisitRules (grammar : Grammar) :
    (rules : List (String × Expression)) → (tokens : List String) → List String × Bool
  | [], tokens => (tokens, false)
  | rule :: rest, tokens =>
    let (tokens, new) := grammar.revisitRule rule tokens
    let (tokens, more) := grammar.revisitRules rest tokens
    (tokens, new || more)

/-- **Rounds in place**: all rules are looked at in order, and again as long as one was new. -/
inductive Sorts (grammar : Grammar) : List String → List String → Prop where
  | done {known settled} (round : grammar.revisitRules grammar.rules known = (settled, false)) :
      Sorts grammar known settled
  | again {known next settled} (round : grammar.revisitRules grammar.rules known = (next, true))
      (rest : Sorts grammar next settled) : Sorts grammar known settled

theorem unvisited_mono (le : tokens ⊆ others) :
    grammar.unvisited others ≤ grammar.unvisited tokens := by
  refine (List.monotone_filter_right grammar.rules fun rule h => ?_).length_le
  simp only [Bool.not_eq_true', List.contains_eq_mem, decide_eq_false_iff_not] at h ⊢
  exact fun hmem => h (le hmem)

/-- **What looking at some rules again does**: the token rules stay justified, and they are as they
were and closed for these rules, or some rule is new. -/
structure Revisits (grammar : Grammar) (rules : List (String × Expression)) (known : List String)
    (result : List String × Bool) : Prop where
  grows : known ⊆ result.1
  justified : grammar.Justified known → grammar.Justified result.1
  still : result.2 = false → result.1 = known ∧
    ∀ rule ∈ rules, grammar.Passes known rule → rule.1 ∈ known
  fewer : result.2 = true → grammar.unvisited result.1 < grammar.unvisited known

/-- Where no rule is new, the token rules are closed for the rules that were looked at. -/
theorem Revisits.same {rules : List (String × Expression)} {known : List String}
    (closed : ∀ rule ∈ rules, grammar.Passes known rule → rule.1 ∈ known) :
    grammar.Revisits rules known (known, false) :=
  ⟨List.Subset.refl known, id, fun _ => ⟨rfl, closed⟩, nofun⟩

theorem revisits_revisitRule {rule : String × Expression} (declared : rule ∈ grammar.rules)
    (known : List String) :
    grammar.Revisits [rule] known (grammar.revisitRule rule known) := by
  unfold revisitRule
  split
  · rename_i skipped
    refine .same (List.forall_mem_singleton.mpr fun passes => ?_)
    simpa [passes.1] using skipped
  · rename_i looked
    rw [Bool.or_eq_true, not_or, Bool.not_eq_true, beq_iff_eq] at looked
    obtain ⟨hfresh, hstart⟩ := looked
    split
    · rename_i test
      refine ⟨List.subset_cons_self .., fun h => h.cons declared ⟨hstart, test⟩, nofun, fun _ => ?_⟩
      refine unvisited_cons_lt hfresh ?_
      exact List.lookup_isSome_iff.mpr ⟨rule, declared, beq_self_eq_true rule.1⟩
    · rename_i test
      exact .same (List.forall_mem_singleton.mpr fun passes => absurd passes.2 test)

theorem revisits_revisitRules {rules : List (String × Expression)}
    (declared : rules ⊆ grammar.rules) (known : List String) :
    grammar.Revisits rules known (grammar.revisitRules rules known) := by
  induction rules generalizing known with
  | nil => exact .same (List.forall_mem_nil _)
  | cons rule rest ih =>
    obtain ⟨hrule, hrest⟩ := List.cons_subset.mp declared
    have hfirst := revisits_revisitRule hrule known
    have hothers := ih hrest (grammar.revisitRule rule known).1
    refine ⟨List.Subset.trans hfirst.grows hothers.grows, hothers.justified ∘ hfirst.justified,
      fun still => ?_, fun new => ?_⟩
    · obtain ⟨hold, hold'⟩ := Bool.or_eq_false_iff.mp still
      obtain ⟨hsame, hclosed⟩ := hfirst.still hold
      obtain ⟨hsame', hclosed'⟩ := hothers.still hold'
      rw [hsame] at hclosed'
      exact ⟨hsame'.trans hsame, List.forall_mem_cons.mpr
        ⟨List.forall_mem_singleton.mp hclosed, hclosed'⟩⟩
    · rcases Bool.or_eq_true_iff.mp new with hnew | hnew
      · exact Nat.lt_of_le_of_lt (unvisited_mono hothers.grows) (hfirst.fewer hnew)
      · exact Nat.lt_of_lt_of_le (hothers.fewer hnew) (unvisited_mono hfirst.grows)

theorem revisits_of_round {known : List String} {result : List String × Bool}
    (round : grammar.revisitRules grammar.rules known = result) :
    grammar.Revisits grammar.rules known result :=
  round ▸ revisits_revisitRules (List.Subset.refl grammar.rules) known

/-- **The rounds in place come to an end.** -/
theorem exists_sorts (grammar : Grammar) (known : List String) :
    ∃ settled, grammar.Sorts known settled := by
  -- the induction is on the number of the rules that are not known as token rules
  induction hcount : grammar.unvisited known using Nat.strongRecOn generalizing known
  rename_i count ih
  obtain ⟨next, new, hround⟩ : ∃ next new,
    grammar.revisitRules grammar.rules known = (next, new) := ⟨_, _, rfl⟩
  cases new with
  | false => exact ⟨next, .done hround⟩
  | true =>
    obtain ⟨settled, hsorts⟩ := ih _ (hcount ▸ (revisits_of_round hround).fewer rfl) next rfl
    exact ⟨settled, .again hround hsorts⟩

/-- **What they leave is the least closed set.** -/
theorem Sorts.leastTokenRules {known settled : List String} (h : grammar.Sorts known settled)
    (justified : grammar.Justified known) : grammar.LeastTokenRules settled := by
  induction h with
  | @done known settled round =>
    obtain ⟨rfl, hclosed⟩ := (revisits_of_round round).still rfl
    exact ⟨justified, hclosed⟩
  | @again known next settled round _ ih =>
    exact ih ((revisits_of_round round).justified justified)

end Syntagm.Grammar
