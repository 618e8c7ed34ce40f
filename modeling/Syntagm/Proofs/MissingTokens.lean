import Syntagm.Proofs.Lossless
import Syntagm.Proofs.Reading
import Syntagm.Proofs.Sites

/-!
# Where tokens are missing in a tree

Repairs put tokens in, and the tree has a node for each of them.  A tree is read from the left for
its landmarks, the significant tokens and these nodes (`Element.landmarks`), so that the nodes in
front of each token can be counted (`Element.missingBefore`).

The landmarks of a stream are those of its tokens.  What is left out still counts as tokens there,
so a node stands in front of the same token in the tree as the repair names
(`Source.Lays.landmarks_eq`).  Repairs may be dropped, so the nodes in front of a token are at most
as many as the repairs that put tokens in there (`RecoveryScope.missingBefore_finish_le`).
-/

namespace Syntagm

/-! ### Landmarks -/

/-- What counts in a tree: a significant token, or a node for a token that the input lacks. -/
inductive Landmark where
  | token
  | missing
  deriving DecidableEq, Repr

/-- How many tokens are missing in front of the token `place`.  Where that is the number of tokens,
these are the ones missing behind all tokens. -/
def Landmark.missingBefore : (place : Nat) → List Landmark → Nat
  | _, [] => 0
  | 0, .token :: _ => 0
  | 0, .missing :: rest => missingBefore 0 rest + 1
  | place + 1, .token :: rest => missingBefore place rest
  | place + 1, .missing :: rest => missingBefore (place + 1) rest

namespace Landmark

/-- Behind tokens the places are counted from there on. -/
theorem missingBefore_replicate (count place : Nat) (rest : List Landmark) :
    missingBefore place (List.replicate count .token ++ rest) =
      if place < count then 0 else missingBefore (place - count) rest := by
  induction count generalizing place with
  | zero => rfl
  | succ count ih =>
    rw [List.replicate_succ, List.cons_append]
    cases place with
    | zero => rfl
    | succ place =>
      rw [missingBefore, ih, Nat.add_sub_add_right]
      simp only [Nat.add_lt_add_iff_right]

theorem missingBefore_of_not_mem {landmarks : List Landmark} (none : .missing ∉ landmarks)
    (place : Nat) : missingBefore place landmarks = 0 := by
  have heq : landmarks = List.replicate landmarks.length .token := by
    refine List.eq_replicate_of_mem fun landmark hmem => ?_
    cases landmark with
    | token => rfl
    | missing => exact absurd hmem none
  rw [heq, ← List.append_nil (List.replicate _ _), missingBefore_replicate]
  split
  · rfl
  · cases place - landmarks.length <;> rfl

end Landmark

namespace Element

mutual

/-- The landmarks of an element, from the left. -/
def landmarks (compiled : CompiledGrammar) : Element → List Landmark
  | .token kind _ => if compiled.isTrivia kind then [] else [.token]
  | .node kind children =>
    if kind = Kind.missing then [.missing] else landmarksOfAll compiled children

/-- The landmarks of the elements of a list. -/
def landmarksOfAll (compiled : CompiledGrammar) : List Element → List Landmark
  | [] => []
  | first :: rest => landmarks compiled first ++ landmarksOfAll compiled rest

end

/-- How many nodes for missing tokens stand in front of a significant token of a tree, or in front
of the end of the input. -/
def missingBefore (compiled : CompiledGrammar) (place : Nat) (root : Element) : Nat :=
  Landmark.missingBefore place (root.landmarks compiled)

variable {compiled : CompiledGrammar}

theorem landmarksOfAll_eq_flatMap (elements : List Element) :
    landmarksOfAll compiled elements = elements.flatMap (landmarks compiled) := by
  induction elements with
  | nil => rfl
  | cons first rest ih => rw [landmarksOfAll, ih, List.flatMap_cons]

theorem gathers_landmarks {kind : Kind} (plain : kind ≠ Kind.missing) :
    Gathers (landmarks compiled) kind := by
  intro children
  rw [landmarks, if_neg plain, landmarksOfAll_eq_flatMap]

theorem landmarks_of_isTrivia {element : Element} (trivia : element.isTrivia compiled = true) :
    element.landmarks compiled = [] := by
  cases element with
  | token kind text => rw [landmarks, if_pos (show compiled.isTrivia kind = true from trivia)]
  | node => cases trivia

/-- A token is nothing that is missing. -/
theorem missing_not_mem_landmarks {element : Element} (token : element.isNode = false) :
    .missing ∉ element.landmarks compiled := by
  cases element with
  | token kind text =>
    rw [landmarks]
    split <;> simp
  | node => cases token

end Element

open Element (landmarks)

/-! ### Streams -/

/-- Whether a token of a stream is put in, in front of a significant token. -/
def StreamToken.isPutIn (place : Nat) (token : StreamToken) : Bool :=
  !token.isReal && token.site == place

namespace Source

variable {source : Source} {compiled : CompiledGrammar} {allowed : Kind → Prop}

namespace Sorted

variable (sorted : source.Sorted compiled)
include sorted

theorem landmarks_trivia (index : Nat) : (source.trivia index).flatMap (landmarks compiled) = [] :=
  List.flatMap_eq_nil_iff.mpr fun element hmem =>
    Element.landmarks_of_isTrivia (sorted.trivia_at index element hmem)

theorem landmarks_element {token : SourceToken} (mem : token ∈ source.tokens) :
    token.element.landmarks compiled = [.token] := by
  rw [SourceToken.element, landmarks, if_neg (by simp [sorted.tokens token mem])]

/-- Tokens count as such, and what stands between them does not. -/
theorem landmarks_place {stretch : List SourceToken}
    (inside : ∀ token ∈ stretch, token ∈ source.tokens) :
    (stretch.flatMap place).flatMap (landmarks compiled) =
      List.replicate stretch.length .token := by
  induction stretch with
  | nil => rfl
  | cons token rest ih =>
    obtain ⟨hmem, hrest⟩ := List.forall_mem_cons.mp inside
    have htrivia : token.trivia.flatMap (landmarks compiled) = [] :=
      List.flatMap_eq_nil_iff.mpr fun element h =>
        Element.landmarks_of_isTrivia (sorted.trivia token hmem element h)
    rw [List.flatMap_cons, List.flatMap_append, ih hrest, place, List.flatMap_append, htrivia,
      List.flatMap_singleton, sorted.landmarks_element hmem, List.nil_append, List.length_cons,
      List.replicate_succ]
    rfl

/-- What is left out still counts. -/
theorem landmarks_errorNode {start count : Nat} (inside : start + count ≤ source.size) :
    (source.errorNode start count).landmarks compiled = List.replicate count .token := by
  have hsub : ∀ token ∈ (source.tokens.toList.drop start).take count, token ∈ source.tokens :=
    fun token hmem => Array.mem_toList_iff.mp (List.mem_of_mem_drop (List.mem_of_mem_take hmem))
  have hlength : ((source.tokens.toList.drop start).take count).length = count := by
    have hsize : source.tokens.toList.length = source.size := rfl
    rw [List.length_take, List.length_drop, hsize]
    omega
  rw [errorNode, Element.gathers_landmarks (by decide)]
  generalize (source.tokens.toList.drop start).take count = stretch at hsub hlength
  rw [← hlength]
  cases stretch with
  | nil => rfl
  | cons first rest =>
    obtain ⟨hfirst, hrest⟩ := List.forall_mem_cons.mp hsub
    have hplaces := sorted.landmarks_place hrest
    show (first.element :: rest.flatMap place).flatMap (landmarks compiled) = _
    rw [List.flatMap_cons, hplaces, sorted.landmarks_element hfirst, List.length_cons,
      List.replicate_succ]
    rfl

end Sorted

/-- **The landmarks of a stream**, behind those that wait in front of it: in front of each
significant token those tokens are missing that are put in there. -/
theorem Lays.landmarks_eq (sorted : source.Sorted compiled) {index : Nat} {pending : List Lead}
    {tokens : List StreamToken} (h : source.Lays allowed index pending tokens) :
    ∃ behind, tokens.flatMap (StreamToken.gather (landmarks compiled)) =
        (source.leading pending).flatMap (landmarks compiled) ++ behind ∧
      ∀ place, Landmark.missingBefore place behind =
        tokens.countP (StreamToken.isPutIn (index + place)) := by
  induction h with
  | stop => exact ⟨[], rfl, fun place => by cases place <;> rfl⟩
  | @take index pending others le tail ih =>
    obtain ⟨behind, hbehind, hmissing⟩ := ih
    rw [show source.leading [] = [] from rfl, List.flatMap_nil, List.nil_append] at hbehind
    have htoken : (source.realToken index pending).gather (landmarks compiled) =
        (source.leading pending).flatMap (landmarks compiled) ++
          (source.element? index).toList.flatMap (landmarks compiled) := by
      rw [StreamToken.gather, realToken, leading_append, List.flatMap_append]
      show _ ++ (source.trivia index ++ []).flatMap _ ++ _ = _
      rw [List.append_nil, sorted.landmarks_trivia, List.append_nil]
    have hreal (place : Nat) : (source.realToken index pending).isPutIn place = false := rfl
    refine ⟨(source.element? index).toList.flatMap (landmarks compiled) ++ behind, ?_, ?_⟩
    · rw [List.flatMap_cons, htoken, hbehind, List.append_assoc]
    intro place
    rw [List.countP_cons_of_neg (by simp [hreal])]
    rcases Nat.lt_or_ge index source.size with hlt | hge
    · obtain ⟨token, hlookup, -⟩ := drop_eq_cons hlt
      have helement : (source.element? index).toList.flatMap (landmarks compiled) = [.token] := by
        rw [element?, hlookup, Option.map_some, Option.toList_some, List.flatMap_singleton]
        exact sorted.landmarks_element (Array.mem_of_getElem? hlookup)
      rw [helement, List.singleton_append]
      cases place with
      | zero =>
        -- all other tokens stand at later places
        refine (List.countP_eq_zero.mpr fun token hmem => ?_).symm
        have hlow := (tail.site_le token hmem).1
        simp only [StreamToken.isPutIn, Bool.and_eq_true, beq_iff_eq, not_and]
        omega
      | succ place =>
        rw [Landmark.missingBefore, hmissing]
        congr 2
        omega
    · -- behind the end of the input nothing is laid
      obtain rfl : index = source.size := by omega
      have hnone : source.element? source.size = none := by simp [element?, size]
      rw [hnone, Option.toList_none, List.flatMap_nil, List.nil_append]
      cases tail with
      | stop =>
        rw [List.flatMap_nil] at hbehind
        subst hbehind
        cases place <;> rfl
      | take le _ => omega
      | putIn le _ _ => omega
      | leaveOut lt le _ => omega
  | @putIn index pending others kind le fits tail ih =>
    obtain ⟨behind, hbehind, hmissing⟩ := ih
    rw [show source.leading [] = [] from rfl, List.flatMap_nil, List.nil_append] at hbehind
    refine ⟨.missing :: behind, ?_, fun place => ?_⟩
    · rw [List.flatMap_cons, hbehind, StreamToken.gather, insertedToken, Option.toList_some,
        List.flatMap_singleton, missingNode, Element.landmarks, if_pos rfl, List.append_assoc,
        List.singleton_append]
    · rw [List.countP_cons, ← hmissing]
      cases place with
      | zero => simp [StreamToken.isPutIn, insertedToken, Landmark.missingBefore]
      | succ place => simp [StreamToken.isPutIn, insertedToken, Landmark.missingBefore]
  | @leaveOut index pending others stop lt le tail ih =>
    obtain ⟨behind, hbehind, hmissing⟩ := ih
    refine ⟨List.replicate (stop - index) .token ++ behind, ?_, fun place => ?_⟩
    · have hnode := sorted.landmarks_errorNode (show index + (stop - index) ≤ source.size by omega)
      have hskipped : source.leading [.trivia index, .skipped index stop] =
          source.trivia index ++ [source.errorNode index (stop - index)] := by simp [leading]
      rw [hbehind, leading_append, List.flatMap_append, hskipped, List.flatMap_append,
        sorted.landmarks_trivia, List.flatMap_singleton, hnode, List.nil_append, List.append_assoc]
    · rw [Landmark.missingBefore_replicate, hmissing]
      split
      · -- nothing is put in between the tokens that are left out
        refine (List.countP_eq_zero.mpr fun token hmem => ?_).symm
        have hlow := (tail.site_le token hmem).1
        simp only [StreamToken.isPutIn, Bool.and_eq_true, beq_iff_eq, not_and]
        omega
      · congr 2
        omega

/-- **What repairs put in** in front of a token is at most what they say, as some are dropped. -/
theorem Walks.countP_le (place : Nat) {index : Nat} {pending : List Lead} {repairs : List Repair}
    {tokens : List StreamToken} (h : source.Walks index pending repairs tokens) :
    tokens.countP (StreamToken.isPutIn place) ≤ Repair.insertionsAt repairs place := by
  induction h with
  | stop => exact Nat.zero_le _
  | take _ _ _ ih =>
    rw [List.countP_cons_of_neg (by simp [StreamToken.isPutIn, realToken])]
    exact ih
  | drop _ _ _ ih => exact ih.trans (List.sublist_cons_self _ _).countP_le
  | putIn _ _ ih =>
    rw [List.countP_cons, Repair.insertionsAt, List.countP_cons]
    refine Nat.add_le_add ih (Nat.le_of_eq ?_)
    simp [StreamToken.isPutIn, insertedToken]
  | leaveOut _ _ _ ih | leaveNothing _ _ _ ih =>
    rw [Repair.insertionsAt_skip]
    exact ih

end Source

/-! ### Trees -/

namespace RecoveryScope

variable {scope : RecoveryScope} {grammar : Grammar} {repairs : List Repair}

/-- **The tree of a stream has no more nodes for missing tokens** in front of a significant token
than the repairs put in there. -/
theorem missingBefore_finish_le (realizes : scope.compiled.Realizes grammar)
    (sorted : scope.source.Sorted scope.compiled) {fragment : Fragment} {state : RecoveryState}
    (matched : scope.Matched fragment state.tokens)
    (tokens : state.tokens = scope.source.stream repairs) (place : Nat) :
    (scope.finish fragment state).missingBefore scope.compiled place ≤
      Repair.insertionsAt repairs place := by
  have hgather := @gather_finish _ (landmarks scope.compiled) scope fragment state
    (fun _ _ lookup => Element.gathers_landmarks (realizes.kind_ne_missing lookup)) matched
  obtain ⟨behind, hbehind, hmissing⟩ :=
    (Source.lays_stream_any scope.source repairs).landmarks_eq sorted
  rw [← tokens, ← hgather] at hbehind
  rw [Element.missingBefore, hbehind]
  show Landmark.missingBefore place ([] ++ behind) ≤ _
  rw [List.nil_append, hmissing, Nat.zero_add]
  exact (Source.walks_streamFrom 0 [] repairs).countP_le place

/-- A tree that is given up has no node for a missing token. -/
theorem missingBefore_abandon (realizes : scope.compiled.Realizes grammar)
    (sorted : scope.source.Sorted scope.compiled) (errors : List Diagnostic)
    (current : Option (Nat × Outcome)) (state : RecoveryState) (place : Nat) :
    (scope.abandon errors current state).tree.missingBefore scope.compiled place = 0 := by
  refine Landmark.missingBefore_of_not_mem ?_ place
  show .missing ∉ (Element.node scope.compiled.startKind
    [.node Kind.error scope.source.elements]).landmarks scope.compiled
  rw [Element.gathers_landmarks (startKind_ne_missing realizes), List.flatMap_singleton,
    Element.gathers_landmarks (by decide), List.mem_flatMap]
  rintro ⟨element, hmem, hmissing⟩
  refine Element.missing_not_mem_landmarks ?_ hmissing
  rcases List.mem_append.mp hmem with hmem | hmem
  · obtain ⟨token, htoken, helement⟩ := List.mem_flatMap.mp hmem
    exact sorted.isNode_place (Array.mem_toList_iff.mp htoken) element helement
  · exact Source.Sorted.isNode_eq_false (sorted.trailing element hmem)

end RecoveryScope

end Syntagm
