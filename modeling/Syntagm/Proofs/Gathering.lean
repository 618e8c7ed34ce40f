import Syntagm.Proofs.Session

/-!
# What a match gathers

A reading lists what it finds in an element, such as the tokens, or the nodes that mark errors.
It gathers nodes of a kind if it finds in them what it finds in their children, one after the
other (`Element.Gathers`).  If it gathers the nodes that rules make, then it does not matter how
the parts of a match are put together:

* a match gives what the tokens of the stream give, from where it starts to where it stops
  (`Evaluates.gathers`);
* a tree that succeeds gives what all tokens of the stream give (`RecoveryScope.gather_finish`).
-/

namespace Syntagm

variable {α : Type} {read : Element → List α}

/-- A reading finds in a node of a kind what it finds in the children. -/
def Element.Gathers (read : Element → List α) (kind : Kind) : Prop :=
  ∀ children, read (.node kind children) = children.flatMap read

/-! ### Fragments -/

/-- What a reading finds in a fragment. -/
def Fragment.gather (read : Element → List α) (fragment : Fragment) : List α :=
  fragment.leading.flatMap read ++ fragment.elements.flatMap read

namespace Fragment

@[simp] theorem gather_blank : blank.gather read = [] := rfl

@[simp] theorem gather_append (first second : Fragment) :
    (first ++ second).gather read = first.gather read ++ second.gather read := by
  by_cases hblank : first = blank
  · rw [hblank, blank_append, gather_blank, List.nil_append]
  · rw [append_of_ne_blank hblank]
    simp [gather, List.append_assoc]

theorem gather_closed {rule : Rule} (gathers : Element.Gathers read rule.kind)
    (fragment : Fragment) : (Engine.closed rule fragment).gather read = fragment.gather read := by
  unfold Engine.closed
  split
  · rfl
  · simp [gather, wrap, gathers fragment.elements]

end Fragment

/-! ### Stretches of a stream -/

/-- What a reading finds in a token of a stream: in front of it, and in itself. -/
def StreamToken.gather (read : Element → List α) (token : StreamToken) : List α :=
  token.leading.flatMap read ++ token.element.toList.flatMap read

/-- What a reading finds in a stretch of a stream. -/
def gatherBetween (read : Element → List α) (tokens : Array StreamToken) (start stop : Nat) :
    List α :=
  (tokens.extract start stop).toList.flatMap (StreamToken.gather read)

section Between
variable {tokens : Array StreamToken}

@[simp] theorem gatherBetween_self (position : Nat) :
    gatherBetween read tokens position position = [] := by
  simp [gatherBetween]

theorem gatherBetween_append {start middle stop : Nat} (le : start ≤ middle)
    (le' : middle ≤ stop) :
    gatherBetween read tokens start middle ++ gatherBetween read tokens middle stop =
      gatherBetween read tokens start stop := by
  rw [gatherBetween, gatherBetween, ← List.flatMap_append, ← Array.toList_append,
    Array.extract_append_extract, Nat.min_eq_left le, Nat.max_eq_right le']
  rfl

theorem gatherBetween_succ {position : Nat} {token : StreamToken}
    (found : tokens[position]? = some token) :
    gatherBetween read tokens position (position + 1) = token.gather read := by
  obtain ⟨hlt, rfl⟩ := Array.getElem?_eq_some_iff.mp found
  rw [gatherBetween, Array.toList_extract, List.extract_eq_take_drop, Nat.add_sub_cancel_left,
    List.drop_eq_getElem_cons (by simpa using hlt)]
  simp

end Between

/-! ### Matches -/

/-- What a goal starts with: a match to be made longer, or nothing. -/
def Goal.before : Goal → Fragment
  | .grow _ _ fragment => fragment
  | _ => .blank

/-- What holds of the kind of the nodes that a goal makes itself, if it makes any. -/
def Goal.Makes (p : Kind → Prop) : Goal → Prop
  | .grow rule _ _ | .body rule _ => p rule.kind
  | _ => True

section Matches
variable {compiled : CompiledGrammar} {tokens : Array StreamToken} {goal : Goal}
  {position : Nat} {result : Option Match} {seen : Observation}

/-- In a match of nothing nothing is found. -/
theorem gather_blank (position : Nat) :
    ∀ found, some (Match.blank position) = some found →
      found.fragment.gather read = [] ++ gatherBetween read tokens position found.stop := by
  rintro _ ⟨⟩
  simp [Match.blank]

/-- Two matches one after the other give what the whole stretch gives. -/
theorem gather_prepend {first second : Goal} {head : Match} {along after : Observation}
    (hhead : Evaluates compiled tokens first position (some head) along)
    (hrest : Evaluates compiled tokens second head.stop result after)
    (gathers : ∀ found, some head = some found →
      found.fragment.gather read = [] ++ gatherBetween read tokens position found.stop)
    (gathers' : ∀ found, result = some found →
      found.fragment.gather read = [] ++ gatherBetween read tokens head.stop found.stop) :
    ∀ found, result.map (head ++ ·) = some found →
      found.fragment.gather read = [] ++ gatherBetween read tokens position found.stop := by
  intro found hfound
  obtain ⟨part, hpart, rfl⟩ := Option.map_eq_some_iff.mp hfound
  show (head.fragment ++ part.fragment).gather read =
    [] ++ gatherBetween read tokens position part.stop
  rw [Fragment.gather_append, gathers head rfl, gathers' part hpart, List.nil_append,
    List.nil_append, gatherBetween_append (hhead.confined.le_stop head rfl)
      (hrest.confined.le_stop part hpart), List.nil_append]

/-- **A match gives what the stretch that it takes gives**, behind what it started with. -/
theorem Evaluates.gathers (h : Evaluates compiled tokens goal position result seen)
    (rules : ∀ (number : Nat) (rule : Rule), compiled.program.rules[number]? = some rule →
      Element.Gathers read rule.kind) (makes : goal.Makes (Element.Gathers read)) :
    ∀ found, result = some found →
      found.fragment.gather read =
        goal.before.gather read ++ gatherBetween read tokens position found.stop := by
  induction h with
  | @token op position kind token view found =>
    rintro _ ⟨⟩
    rw [Engine.tokenMatch, gatherBetween_succ (Option.filter_eq_some_iff.mp found).1]
    rfl
  | otherToken | allFail | firstNil | tailNil | noBase | noRule | tooDeep =>
    intro _ h
    cases h
  | seq _ _ ih => exact ih trivial
  | choice _ _ ih => exact ih trivial
  | repetition _ _ ih => exact ih trivial
  | @optional _ position _ result _ _ _ ih =>
    cases result with
    | none => exact gather_blank position
    | some found => exact ih trivial
  | @blank _ position => exact gather_blank position
  | callOp _ _ ih => exact ih trivial
  | @allNil _ position => exact gather_blank position
  | allCons head rest ihHead ihRest =>
    exact gather_prepend head rest (ihHead trivial) (ihRest trivial)
  | firstPruned _ _ ih => exact ih trivial
  | firstFound _ _ ih => exact ih trivial
  | firstNext _ _ _ _ ih => exact ih trivial
  | @manyEnd _ _ position _ _ ih =>
    split
    · exact gather_blank position
    · intro _ h
      cases h
  | @manyEmpty least _ position _ _ _ _ ih =>
    rcases least with _ | _ | least
    · exact gather_blank position
    · exact ih trivial
    · intro _ h
      cases h
  | manyMore round _ rest ihRound ihRest =>
    exact gather_prepend round rest (ihRound trivial) (ihRest trivial)
  | tailFound _ _ ih => exact ih trivial
  | tailNext _ _ _ _ ih => exact ih trivial
  | growEnd =>
    rintro _ ⟨⟩
    simp [Goal.before]
  | @growMore _ _ fragment position next _ _ _ tail moved rest ihTail ihRest =>
    intro found hfound
    -- what was matched so far becomes a node in front of the tail
    have hnext := ihTail trivial next rfl
    rw [ihRest makes found hfound]
    simp only [Goal.before, Fragment.gather_append, Fragment.gather_closed makes, hnext,
      Fragment.gather_blank, List.nil_append, List.append_assoc]
    rw [gatherBetween_append (Nat.le_of_lt moved) (rest.confined.le_stop found hfound)]
  | plain _ _ ih => exact ih trivial
  | @base _ _ _ _ _ entryFound _ _ _ _ entry rest ihEntry ihRest =>
    intro found hfound
    rw [ihRest makes found hfound]
    simp only [Goal.before, ihEntry trivial entryFound rfl, Fragment.gather_blank,
      List.nil_append]
    rw [gatherBetween_append (entry.confined.le_stop entryFound rfl)
      (rest.confined.le_stop found hfound)]
  | @call number rule _ _ _ _ lookup _ ih =>
    intro found hfound
    obtain ⟨part, hpart, rfl⟩ := Option.map_eq_some_iff.mp hfound
    have hgathers := rules number rule lookup
    rw [Engine.closedMatch, Fragment.gather_closed hgathers]
    exact ih hgathers part hpart

end Matches

/-! ### Trees -/

theorem CompiledGrammar.startKind_eq {compiled : CompiledGrammar} {rule : Rule}
    (start : compiled.program.rules[compiled.start]? = some rule) :
    compiled.startKind = rule.kind := by
  simp [startKind, start]

namespace RecoveryScope

variable {scope : RecoveryScope} {fragment : Fragment} {state : RecoveryState}

/-- **A tree made of a whole stream** gives what the tokens of the stream give. -/
theorem gather_finish
    (rules : ∀ (number : Nat) (rule : Rule), scope.compiled.program.rules[number]? = some rule →
      Element.Gathers read rule.kind)
    (matched : scope.Matched fragment state.tokens) :
    read (scope.finish fragment state) =
      state.tokens.toList.flatMap (StreamToken.gather read) := by
  obtain ⟨rule, stop, seen, hrule, hevaluates, hstop⟩ := matched.start
  obtain ⟨waiting, hlast⟩ := matched.last
  have hgathers := rules _ _ hrule
  have hfragment : fragment.gather read = gatherBetween read state.tokens 0 stop :=
    hevaluates.gathers rules hgathers _ rfl
  -- the match stops at the last token, and what waits in front of that goes behind the match
  have htoken : state.tokens[stop]? = some (scope.source.realToken scope.source.size waiting) := by
    rw [← hlast, Array.back?_eq_getElem?, ← hstop, Nat.add_sub_cancel]
  have hend : (scope.source.realToken scope.source.size waiting).gather read =
      (((state.tokens.back?).map (·.leading)).getD []).flatMap read := by
    have hnone : scope.source.element? scope.source.size = none := by
      simp [Source.element?, Source.size]
    simp [hlast, StreamToken.gather, Source.realToken, hnone]
  have hall : gatherBetween read state.tokens 0 (stop + 1) =
      state.tokens.toList.flatMap (StreamToken.gather read) := by
    rw [gatherBetween, hstop, Array.extract_size]
  rw [finish, CompiledGrammar.startKind_eq hrule, hgathers, List.flatMap_append,
    List.flatMap_append, ← hend, ← gatherBetween_succ htoken]
  show fragment.gather read ++ _ = _
  rw [hfragment, gatherBetween_append (Nat.zero_le _) (Nat.le_succ _), hall]

end RecoveryScope

end Syntagm
