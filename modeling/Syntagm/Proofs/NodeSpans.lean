import Syntagm.Proofs.Memoization
import Syntagm.Proofs.Skeleton

/-!
# Where nodes start and end

A node ends where the last significant token in it ends.  It starts where the first one starts, if
no element without text stands at its start.

Both come from how fragments are put together.  What stands in front of the first token of a match
is kept apart from the elements of the match, so it is in front of the node that these become.  It
goes among the elements only behind another element (`Fragment.Tight`).  If that element has text,
then the node starts with it.  If it has none, because a rule has matched nothing or because a token
is missing, then the node starts there, and with it the trivia that follow (`Grammar.emptyPart`).

At the end of a match there is a token of the text, or a token that was put in.  What a token that
was put in has in front of it ends with tokens that were left out, and not with trivia
(`Source.Lays.tight`).
-/

namespace Syntagm

/-! ### Elements -/

namespace Element

/-- Whether an element is a significant token with text. -/
def isShown (compiled : CompiledGrammar) : Element → Bool
  | .token kind text => !compiled.isTrivia kind && !text.isEmpty
  | .node .. => false

mutual

/-- The last token in an element that has text. -/
def lastToken? : Element → Option Element
  | .token kind text => if text.isEmpty then none else some (.token kind text)
  | .node _ children => lastTokenOfAll? children

/-- The last token in the elements of a list that has text. -/
def lastTokenOfAll? : List Element → Option Element
  | [] => none
  | first :: rest => (lastTokenOfAll? rest).or (lastToken? first)

end

theorem lastTokenOfAll?_append (first second : List Element) :
    lastTokenOfAll? (first ++ second) = (lastTokenOfAll? second).or (lastTokenOfAll? first) := by
  induction first with
  | nil => simp [lastTokenOfAll?]
  | cons element first ih =>
    rw [List.cons_append, lastTokenOfAll?, ih, lastTokenOfAll?, Option.or_assoc]

theorem lastTokenOfAll?_singleton (element : Element) :
    lastTokenOfAll? [element] = lastToken? element := by
  rw [lastTokenOfAll?, lastTokenOfAll?, Option.none_or]

section Tight
variable (compiled : CompiledGrammar)

/-- The first one of some elements is a node or a significant token with text. -/
def StartsTight (elements : List Element) : Prop :=
  ∀ first, elements.head? = some first → first.isNode = true ∨ first.isShown compiled = true

/-- The last token with text in some elements is none of trivia. -/
def EndsTight (elements : List Element) : Prop :=
  ∀ last, lastTokenOfAll? elements = some last → last.isTrivia compiled = false

/-- **An element is tight** if the children of each node in it that has text start and end without
trivia. -/
inductive Tight : Element → Prop where
  | token (kind text) : Tight (.token kind text)
  | node {kind children} (starts : lengthOfAll children ≠ 0 → StartsTight compiled children)
      (ends : EndsTight compiled children) (inner : ∀ child ∈ children, Tight child) :
      Tight (.node kind children)

end Tight

variable {compiled : CompiledGrammar}

theorem Tight.of_isNode {element : Element} (h : element.isNode = false) :
    element.Tight compiled := by
  cases element with
  | token kind text => exact .token kind text
  | node => cases h

namespace EndsTight

variable {first second : List Element}

theorem nil : EndsTight compiled [] := fun _ h => nomatch h

theorem append (h : EndsTight compiled first) (h' : EndsTight compiled second) :
    EndsTight compiled (first ++ second) := by
  intro last hlast
  rw [lastTokenOfAll?_append, Option.or_eq_some_iff] at hlast
  rcases hlast with hlast | ⟨-, hlast⟩
  · exact h' last hlast
  · exact h last hlast

/-- Behind a list that has text, the elements in front do not count. -/
theorem append_of_ne_none (h : EndsTight compiled second) (shown : lastTokenOfAll? second ≠ none) :
    EndsTight compiled (first ++ second) := by
  intro last hlast
  rw [lastTokenOfAll?_append, Option.or_eq_some_iff] at hlast
  rcases hlast with hlast | ⟨hnone, -⟩
  · exact h last hlast
  · exact absurd hnone shown

theorem of_append (h : EndsTight compiled (first ++ second)) : EndsTight compiled second := by
  intro last hlast
  exact h last (by rw [lastTokenOfAll?_append, hlast, Option.some_or])

end EndsTight

/-- A tight node ends without trivia. -/
theorem Tight.endsTight {element : Element} (h : element.Tight compiled)
    (node : element.isNode = true) (last : Element) (found : lastToken? element = some last) :
    last.isTrivia compiled = false := by
  cases h with
  | token => cases node
  | node _ ends _ => exact ends last found

/-! ### The tokens of an element -/

/-- The significant tokens with text in an element at a place. -/
def shownFrom (compiled : CompiledGrammar) (depth start : Nat) (element : Element) : List Placed :=
  (outlineFrom depth start element).filter (·.element.isShown compiled)

/-- The significant tokens with text in the elements of a list. -/
def shownOfAll (compiled : CompiledGrammar) (depth start : Nat) (elements : List Element) :
    List Placed :=
  (outlineOfAll depth start elements).filter (·.element.isShown compiled)

theorem shownFrom_token (depth start : Nat) (kind : Kind) (text : List Char) :
    shownFrom compiled depth start (.token kind text) =
      if isShown compiled (.token kind text) then [⟨depth, start, .token kind text⟩] else [] := by
  rw [shownFrom, outlineFrom, List.filter_cons]
  rfl

theorem shownFrom_node (depth start : Nat) (kind : Kind) (children : List Element) :
    shownFrom compiled depth start (.node kind children) =
      shownOfAll compiled (depth + 1) start children := by
  rw [shownFrom, outlineFrom, List.filter_cons_of_neg (by simp [isShown])]
  rfl

theorem shownOfAll_cons (depth start : Nat) (first : Element) (rest : List Element) :
    shownOfAll compiled depth start (first :: rest) = shownFrom compiled depth start first ++
      shownOfAll compiled depth (start + first.length) rest := by
  rw [shownOfAll, outlineOfAll, List.filter_append]
  rfl

mutual

/-- What has no token with text takes no bytes. -/
theorem length_of_lastToken? (depth start : Nat) : ∀ element : Element,
    lastToken? element = none →
      shownFrom compiled depth start element = [] ∧ element.length = 0
  | .token kind text, h => by
    rw [lastToken?] at h
    split at h
    · rename_i hempty
      obtain rfl := List.isEmpty_iff.mp hempty
      exact ⟨by simp [shownFrom_token, isShown], rfl⟩
    · cases h
  | .node _ children, h => by
    rw [lastToken?] at h
    rw [shownFrom_node, length]
    exact length_of_lastTokenOfAll? (depth + 1) start children h

theorem length_of_lastTokenOfAll? (depth start : Nat) : ∀ elements : List Element,
    lastTokenOfAll? elements = none →
      shownOfAll compiled depth start elements = [] ∧ lengthOfAll elements = 0
  | [], _ => ⟨rfl, rfl⟩
  | first :: rest, h => by
    rw [lastTokenOfAll?, Option.or_eq_none_iff] at h
    obtain ⟨hfirst, hlength⟩ := length_of_lastToken? depth start first h.2
    obtain ⟨hrest, hlength'⟩ :=
      length_of_lastTokenOfAll? depth (start + first.length) rest h.1
    rw [shownOfAll_cons, hfirst, hrest, lengthOfAll, hlength, hlength']
    exact ⟨rfl, rfl⟩

end

mutual

/-- Where the last token with text is significant, it stands at the end. -/
theorem getLast?_shownFrom (depth start : Nat) : ∀ (element : Element) {last : Element},
    lastToken? element = some last → last.isTrivia compiled = false →
      ∃ placed, (shownFrom compiled depth start element).getLast? = some placed ∧
        placed.range.stop = start + element.length
  | .token kind text, last, h, significant => by
    rw [lastToken?] at h
    split at h
    · cases h
    · rename_i hfull
      obtain rfl := Option.some.inj h
      refine ⟨⟨depth, start, .token kind text⟩, ?_, rfl⟩
      have htrivia : compiled.isTrivia kind = false := significant
      rw [shownFrom_token, if_pos (by simpa [isShown, htrivia] using hfull)]
      rfl
  | .node _ children, last, h, significant => by
    rw [lastToken?] at h
    rw [shownFrom_node, length]
    exact getLast?_shownOfAll (depth + 1) start children h significant

theorem getLast?_shownOfAll (depth start : Nat) : ∀ (elements : List Element) {last : Element},
    lastTokenOfAll? elements = some last → last.isTrivia compiled = false →
      ∃ placed, (shownOfAll compiled depth start elements).getLast? = some placed ∧
        placed.range.stop = start + lengthOfAll elements
  | [], _, h, _ => nomatch h
  | first :: rest, last, h, significant => by
    rw [lastTokenOfAll?, Option.or_eq_some_iff] at h
    rw [shownOfAll_cons, lengthOfAll]
    rcases h with hrest | ⟨hnone, hfirst⟩
    · obtain ⟨placed, hplaced, hstop⟩ :=
        getLast?_shownOfAll depth (start + first.length) rest hrest significant
      refine ⟨placed, ?_, by rw [hstop, Nat.add_assoc]⟩
      rw [List.getLast?_append, hplaced, Option.some_or]
    -- the elements behind the first one take no bytes
    · obtain ⟨placed, hplaced, hstop⟩ := getLast?_shownFrom depth start first hfirst significant
      obtain ⟨hempty, hlength⟩ :=
        @length_of_lastTokenOfAll? compiled depth (start + first.length) rest hnone
      exact ⟨placed, by rw [hempty, List.append_nil, hplaced], by rw [hstop, hlength]; rfl⟩

end

/-- **A tight element starts with a significant token**, unless a node without text stands at its
start. -/
theorem Tight.head?_shownFrom (depth start : Nat) : ∀ {element : Element},
    element.Tight compiled → element.isNode = true ∨ element.isShown compiled = true →
      (∀ inner ∈ outlineFrom depth start element, inner.start = start →
        inner.element.isNode = true → inner.element.length ≠ 0) →
        ∃ placed, (shownFrom compiled depth start element).head? = some placed ∧
          placed.start = start
  | .token kind text, _, begins, _ => by
    have hshown : isShown compiled (.token kind text) = true := begins.resolve_left nofun
    refine ⟨⟨depth, start, .token kind text⟩, ?_, rfl⟩
    rw [shownFrom_token, if_pos hshown]
    rfl
  | .node kind [], _, _, full => by
    have hlength := full ⟨depth, start, .node kind []⟩
      (by rw [outlineFrom]; exact List.mem_cons_self) rfl rfl
    exact absurd rfl hlength
  | .node kind (first :: rest), .node starts _ inner, _, full => by
    have hlength : (Element.node kind (first :: rest)).length ≠ 0 :=
      full ⟨depth, start, .node kind (first :: rest)⟩
        (by rw [outlineFrom]; exact List.mem_cons_self) rfl rfl
    rw [length] at hlength
    obtain ⟨placed, hplaced, hstart⟩ := Tight.head?_shownFrom (depth + 1) start
      (inner first List.mem_cons_self) (starts hlength first rfl) fun below hmem => full below (by
        rw [outlineFrom, outlineOfAll]
        exact List.mem_cons_of_mem _ (List.mem_append_left _ hmem))
    refine ⟨placed, ?_, hstart⟩
    rw [shownFrom_node, shownOfAll_cons, List.head?_append, hplaced, Option.some_or]

mutual

/-- All that is in a tight element is tight. -/
theorem Tight.outlineFrom {depth start : Nat} : ∀ {element : Element},
    element.Tight compiled → ∀ placed ∈ outlineFrom depth start element,
      placed.element.Tight compiled
  | .token kind text, h, placed, hmem => by
    simp only [Element.outlineFrom, List.mem_singleton] at hmem
    rw [hmem]
    exact h
  | .node _ children, .node starts ends inner, placed, hmem => by
    simp only [Element.outlineFrom, List.mem_cons] at hmem
    rcases hmem with rfl | hmem
    · exact .node starts ends inner
    · exact tight_outlineOfAll inner placed hmem

theorem tight_outlineOfAll {depth start : Nat} : ∀ {elements : List Element},
    (∀ element ∈ elements, element.Tight compiled) →
      ∀ placed ∈ outlineOfAll depth start elements, placed.element.Tight compiled
  | [], _, _, hmem => nomatch hmem
  | first :: rest, h, placed, hmem => by
    obtain ⟨hfirst, hrest⟩ := List.forall_mem_cons.mp h
    simp only [outlineOfAll, List.mem_append] at hmem
    rcases hmem with hmem | hmem
    · exact hfirst.outlineFrom placed hmem
    · exact tight_outlineOfAll hrest placed hmem

end

end Element

open Element (EndsTight StartsTight lastToken? lastTokenOfAll?)

/-! ### Fragments -/

/-- **A fragment is tight**: it has something in front of its elements only if it has elements,
these do not start with trivia, and the whole does not end with trivia. -/
structure Fragment.Tight (compiled : CompiledGrammar) (fragment : Fragment) : Prop where
  leading_eq_nil : fragment.elements = [] → fragment.leading = []
  starts : StartsTight compiled fragment.elements
  ends : EndsTight compiled (fragment.leading ++ fragment.elements)
  inner : ∀ element ∈ fragment.leading ++ fragment.elements, element.Tight compiled

namespace Fragment.Tight

variable {compiled : CompiledGrammar} {first second : Fragment}

theorem blank : Fragment.blank.Tight compiled where
  leading_eq_nil _ := rfl
  starts _ h := nomatch h
  ends := .nil
  inner _ h := nomatch h

theorem append (h : first.Tight compiled) (h' : second.Tight compiled) :
    (first ++ second).Tight compiled := by
  by_cases hblank : first = .blank
  · rwa [hblank, Fragment.blank_append]
  · -- what stands in front of the second fragment goes behind an element of the first one
    obtain ⟨element, rest, helements⟩ : ∃ element rest, first.elements = element :: rest := by
      refine List.exists_cons_of_ne_nil fun hnil => hblank ?_
      have hleading := h.leading_eq_nil hnil
      cases first
      exact congr (congrArg Fragment.mk hleading) hnil
    have hwhole : first.leading ++ (first.elements ++ second.leading ++ second.elements) =
        (first.leading ++ first.elements) ++ (second.leading ++ second.elements) := by
      simp only [List.append_assoc]
    rw [Fragment.append_of_ne_blank hblank]
    refine ⟨fun hnil => ?_, ?_, ?_, ?_⟩
    · simp [helements] at hnil
    · have hstarts := h.starts
      simp only [helements, List.cons_append] at hstarts ⊢
      exact hstarts
    · rw [hwhole]
      exact h.ends.append h'.ends
    · rw [hwhole]
      exact List.forall_mem_append.mpr ⟨h.inner, h'.inner⟩

/-- **A rule makes a tight node** of a tight fragment. -/
theorem closed (h : first.Tight compiled) (rule : Rule) :
    (Engine.closed rule first).Tight compiled := by
  unfold Engine.closed
  split
  · exact h
  · obtain ⟨hleading, helements⟩ := List.forall_mem_append.mp h.inner
    refine ⟨fun hnil => (nomatch hnil), fun element heq => ?_, fun last hlast => ?_, ?_⟩
    · obtain rfl := Option.some.inj heq
      exact .inl rfl
    · refine h.ends last ?_
      rw [← hlast, Fragment.wrap, Element.lastTokenOfAll?_append, Element.lastTokenOfAll?_append,
        Element.lastTokenOfAll?_singleton, lastToken?]
    · exact List.forall_mem_append.mpr ⟨hleading, List.forall_mem_singleton.mpr
        (.node (fun _ => h.starts) h.ends.of_append helements)⟩

end Fragment.Tight

/-! ### Matches -/

/-- A property of fragments that is kept when they are put together and closed. -/
structure Fragment.Kept (p : Fragment → Prop) : Prop where
  blank : p .blank
  append : ∀ {first second : Fragment}, p first → p second → p (first ++ second)
  closed : ∀ (rule : Rule) {fragment : Fragment}, p fragment → p (Engine.closed rule fragment)

theorem Fragment.kept_tight (compiled : CompiledGrammar) : Kept (Fragment.Tight compiled) where
  blank := .blank
  append h h' := h.append h'
  closed rule _ h := h.closed rule

section Matches
variable {p : Fragment → Prop} {compiled : CompiledGrammar} {tokens : Array StreamToken}
  {goal : Goal} {position : Nat} {result : Option Match} {seen : Observation}

theorem Fragment.Kept.matchBlank (kept : Fragment.Kept p) (position : Nat) :
    ∀ found, some (Match.blank position) = some found → p found.fragment := by
  rintro _ ⟨⟩
  exact kept.blank

theorem Fragment.Kept.prepend (kept : Fragment.Kept p) {head : Match} (first : p head.fragment)
    (rest : ∀ found, result = some found → p found.fragment) :
    ∀ found, result.map (head ++ ·) = some found → p found.fragment := by
  intro found hfound
  obtain ⟨part, hpart, rfl⟩ := Option.map_eq_some_iff.mp hfound
  exact kept.append first (rest part hpart)

/-- **What tokens have and putting together keeps, matches have**, if what they started with has
it. -/
theorem Evaluates.keeps (kept : Fragment.Kept p)
    (single : ∀ op token, compiled.program.view op = .token token.kind → token ∈ tokens →
      p ⟨token.leading, token.element.toList⟩)
    (h : Evaluates compiled tokens goal position result seen) (before : p goal.before) :
    ∀ found, result = some found → p found.fragment := by
  induction h with
  | @token op position kind token view found =>
    rintro _ ⟨⟩
    obtain ⟨hfound, hkind⟩ := Option.filter_eq_some_iff.mp found
    obtain rfl := of_decide_eq_true hkind
    exact single op token view (Array.mem_of_getElem? hfound)
  | otherToken | allFail | firstNil | tailNil | noBase | noRule | tooDeep =>
    intro _ h
    cases h
  | seq _ _ ih => exact ih kept.blank
  | choice _ _ ih => exact ih kept.blank
  | repetition _ _ ih => exact ih kept.blank
  | @optional _ position _ result _ _ _ ih =>
    cases result with
    | none => exact kept.matchBlank position
    | some found => exact ih kept.blank
  | @blank _ position => exact kept.matchBlank position
  | callOp _ _ ih => exact ih kept.blank
  | @allNil _ position => exact kept.matchBlank position
  | allCons _ _ ihHead ihRest => exact kept.prepend (ihHead kept.blank _ rfl) (ihRest kept.blank)
  | firstPruned _ _ ih => exact ih kept.blank
  | firstFound _ _ ih => exact ih kept.blank
  | firstNext _ _ _ _ ih => exact ih kept.blank
  | @manyEnd _ _ position _ _ ih =>
    split
    · exact kept.matchBlank position
    · intro _ h
      cases h
  | @manyEmpty least _ position _ _ _ _ ih =>
    rcases least with _ | _ | least
    · exact kept.matchBlank position
    · exact ih kept.blank
    · intro _ h
      cases h
  | manyMore _ _ _ ihRound ihRest =>
    exact kept.prepend (ihRound kept.blank _ rfl) (ihRest kept.blank)
  | tailFound _ _ ih => exact ih kept.blank
  | tailNext _ _ _ _ ih => exact ih kept.blank
  | growEnd =>
    rintro _ ⟨⟩
    exact before
  | growMore _ _ _ ihTail ihRest =>
    -- what was matched so far becomes a node in front of the tail
    exact ihRest (kept.append (kept.closed _ before) (ihTail kept.blank _ rfl))
  | plain _ _ ih => exact ih kept.blank
  | base _ _ _ ihEntry ihRest => exact ihRest (ihEntry kept.blank _ rfl)
  | call _ _ ih =>
    intro found hfound
    obtain ⟨part, hpart, rfl⟩ := Option.map_eq_some_iff.mp hfound
    exact kept.closed _ (ih kept.blank part hpart)

end Matches

/-! ### Streams -/

/-- The match of a token is tight, if its kind is not reserved, and so is what is in front of it. -/
structure StreamToken.Tight (compiled : CompiledGrammar) (token : StreamToken) : Prop where
  leading : ∀ element ∈ token.leading, element.Tight compiled
  fragment : token.kind.isReserved = false →
    Fragment.Tight compiled ⟨token.leading, token.element.toList⟩

namespace Source

variable {compiled : CompiledGrammar} {source : Source}

/-- The significant tokens of a source have text. -/
def Spelled (source : Source) : Prop := ∀ token ∈ source.tokens, token.text ≠ []

theorem Spelled.lastToken? (spelled : source.Spelled) {token : SourceToken}
    (hmem : token ∈ source.tokens) : Element.lastToken? token.element = some token.element := by
  rw [SourceToken.element, Element.lastToken?, if_neg (by simpa using spelled token hmem)]

variable (sorted : source.Sorted compiled) (spelled : source.Spelled)
include sorted spelled

theorem isShown_element {token : SourceToken} (hmem : token ∈ source.tokens) :
    token.element.isShown compiled = true := by
  simp [SourceToken.element, Element.isShown, sorted.tokens token hmem, spelled token hmem]

/-- A significant token ends without trivia, and has text. -/
theorem endsTight_element {token : SourceToken} (hmem : token ∈ source.tokens) :
    EndsTight compiled [token.element] ∧ lastTokenOfAll? [token.element] ≠ none := by
  rw [EndsTight, Element.lastTokenOfAll?_singleton, spelled.lastToken? hmem]
  refine ⟨fun last hlast => ?_, Option.some_ne_none _⟩
  obtain rfl := Option.some.inj hlast
  exact sorted.tokens token hmem

theorem endsTight_flatMap_place {tokens : List SourceToken}
    (sub : ∀ token ∈ tokens, token ∈ source.tokens) :
    EndsTight compiled (tokens.flatMap place) := by
  induction tokens with
  | nil => exact .nil
  | cons first rest ih =>
    obtain ⟨hfirst, hrest⟩ := List.forall_mem_cons.mp sub
    obtain ⟨hends, hshown⟩ := endsTight_element sorted spelled hfirst
    exact (hends.append_of_ne_none hshown).append (ih hrest)

/-- **The node around tokens that are left out** starts and ends without trivia. -/
theorem tight_errorNode (start count : Nat) :
    (source.errorNode start count).Tight compiled := by
  have hsub : ∀ token ∈ (source.tokens.toList.drop start).take count, token ∈ source.tokens :=
    fun token hmem => Array.mem_toList_iff.mp (List.mem_of_mem_drop (List.mem_of_mem_take hmem))
  rw [errorNode]
  generalize (source.tokens.toList.drop start).take count = stretch at hsub
  cases stretch with
  | nil => exact .node (absurd rfl) .nil (List.forall_mem_nil _)
  | cons first rest =>
    obtain ⟨hfirst, hrest⟩ := List.forall_mem_cons.mp hsub
    refine .node (fun _ element heq => ?_) ?_ ?_
    · obtain rfl := Option.some.inj heq
      exact .inr (isShown_element sorted spelled hfirst)
    · exact (endsTight_element sorted spelled hfirst).1.append
        (endsTight_flatMap_place sorted spelled hrest)
    · refine List.forall_mem_cons.mpr ⟨.token _ _, fun child hmem => ?_⟩
      obtain ⟨token, htoken, hchild⟩ := List.mem_flatMap.mp hmem
      exact .of_isNode (sorted.isNode_place (hrest token htoken) child hchild)

/-- What stands in front of a token of a stream is tight. -/
theorem tight_leading (lead : List Lead) :
    ∀ element ∈ source.leading lead, element.Tight compiled := by
  intro element hmem
  obtain ⟨one, -, hone⟩ := List.mem_flatMap.mp hmem
  cases one with
  | trivia index => exact .of_isNode (Sorted.isNode_eq_false (sorted.trivia_at index element hone))
  | skipped start stop =>
    obtain rfl := List.mem_singleton.mp hone
    exact tight_errorNode sorted spelled start (stop - start)

/-- What is left out ends without trivia. -/
theorem endsTight_leading (pending : List Lead) {index stop : Nat} (lt : index < stop)
    (le : stop ≤ source.size) :
    EndsTight compiled (source.leading (pending ++ [.trivia index, .skipped index stop])) := by
  obtain ⟨token, htoken, hdrop⟩ := drop_eq_cons (show index < source.size by omega)
  obtain ⟨count, hcount⟩ : ∃ count, stop - index = count + 1 := ⟨stop - index - 1, by omega⟩
  have hmem : token ∈ source.tokens := Array.mem_of_getElem? htoken
  have hnode : lastTokenOfAll? [source.errorNode index (stop - index)] ≠ none := by
    have hfirst := (endsTight_element sorted spelled hmem).2
    rw [Element.lastTokenOfAll?_singleton, errorNode, hcount, hdrop, List.take_succ_cons,
      Element.lastToken?, lastTokenOfAll?, ← Element.lastTokenOfAll?_singleton]
    exact fun hnone => hfirst (Option.or_eq_none_iff.mp hnone).2
  have hends : EndsTight compiled [source.errorNode index (stop - index)] := fun last hlast => by
    rw [Element.lastTokenOfAll?_singleton] at hlast
    exact (tight_errorNode sorted spelled index (stop - index)).endsTight rfl last hlast
  have hleading : source.leading (pending ++ [.trivia index, .skipped index stop]) =
      (source.leading pending ++ source.trivia index) ++
        [source.errorNode index (stop - index)] := by
    rw [leading_append, List.append_assoc]
    rfl
  rw [hleading]
  exact hends.append_of_ne_none hnode

theorem tight_realToken (index : Nat) (pending : List Lead) :
    (source.realToken index pending).Tight compiled := by
  refine ⟨tight_leading sorted spelled _, fun hreserved => ?_⟩
  obtain ⟨token, htoken, hkind, helement⟩ := token_of_kind hreserved
  have hmem := Array.mem_of_getElem? htoken
  obtain ⟨hends, hshown⟩ := endsTight_element sorted spelled hmem
  simp only [realToken, helement, Option.toList_some]
  refine ⟨fun hnil => absurd hnil (List.cons_ne_nil _ _), fun element heq => ?_,
    hends.append_of_ne_none hshown, List.forall_mem_append.mpr
      ⟨tight_leading sorted spelled _, List.forall_mem_singleton.mpr (.token _ _)⟩⟩
  obtain rfl := Option.some.inj heq
  exact .inr (isShown_element sorted spelled hmem)

theorem tight_insertedToken (site : Nat) (kind : Kind) {pending : List Lead}
    (ends : EndsTight compiled (source.leading pending)) :
    (source.insertedToken site kind pending).Tight compiled := by
  have hnone : lastTokenOfAll? [missingNode kind] = none := rfl
  have hends : EndsTight compiled [missingNode kind] := fun last hlast =>
    nomatch hnone.symm.trans hlast
  have hmissing : (missingNode kind).Tight compiled := by
    refine .node (absurd rfl) hends fun child hmem => ?_
    obtain rfl := List.mem_singleton.mp hmem
    exact .token kind []
  refine ⟨tight_leading sorted spelled _, fun _ => ⟨fun hnil => absurd hnil (List.cons_ne_nil _ _),
    fun element heq => ?_, ends.append hends,
    List.forall_mem_append.mpr ⟨tight_leading sorted spelled _,
      List.forall_mem_singleton.mpr hmissing⟩⟩⟩
  obtain rfl := Option.some.inj heq
  exact .inl rfl

/-- **The tokens of a stream are tight.**  What waits in front of a token that is put in has been
left out. -/
theorem Lays.tight {allowed : Kind → Prop} {index : Nat} {pending : List Lead}
    {tokens : List StreamToken} (h : source.Lays allowed index pending tokens)
    (waiting : EndsTight compiled (source.leading pending)) :
    ∀ token ∈ tokens, token.Tight compiled := by
  induction h with
  | stop => exact fun token hmem => (nomatch hmem)
  | take _ _ ih => exact List.forall_mem_cons.mpr ⟨tight_realToken sorted spelled _ _, ih .nil⟩
  | putIn _ _ _ ih =>
    exact List.forall_mem_cons.mpr ⟨tight_insertedToken sorted spelled _ _ waiting, ih .nil⟩
  | leaveOut lt le _ ih => exact ih (endsTight_leading sorted spelled _ lt le)

end Source

namespace Source

theorem text_of_mem_collect (trivia : List Element) (tokens : List (Token × List Char))
    (full : ∀ one ∈ tokens, one.2 ≠ []) : ∀ token ∈ (collect trivia tokens).1, token.text ≠ [] := by
  induction tokens generalizing trivia with
  | nil => exact fun token hmem => (nomatch hmem)
  | cons first others ih =>
    obtain ⟨hfirst, hothers⟩ := List.forall_mem_cons.mp full
    rw [collect]
    split
    · exact ih _ hothers
    · exact List.forall_mem_cons.mpr ⟨hfirst, ih _ hothers⟩

end Source

/-- The texts of tokens that are not empty are not empty. -/
theorem Tokens.Tiles.ne_nil {offset : Nat} {text : List Char} {tokens : List Token}
    {parts : List (List Char)} (h : Tokens.Tiles offset text tokens parts)
    (full : ∀ token ∈ tokens, token.range.start < token.range.stop) :
    ∀ part ∈ parts, part ≠ [] := by
  induction h with
  | nil => exact fun part hmem => (nomatch hmem)
  | @cons offset token part rest tokens parts range _ ih =>
    obtain ⟨hfirst, hothers⟩ := List.forall_mem_cons.mp full
    refine List.forall_mem_cons.mpr ⟨?_, ih hothers⟩
    rintro rfl
    rw [range] at hfirst
    exact absurd hfirst (Nat.lt_irrefl _)

/-- **The significant tokens of a text have text.** -/
theorem Source.spelled_tokenize (compiled : CompiledGrammar) (text : List Char) :
    (ofTokens text (compiled.tokenize text)).Spelled := by
  obtain ⟨parts, hparts⟩ := compiled.tiles_tokensFrom 0 .origin text
  have hfull := hparts.ne_nil (compiled.start_lt_stop 0 .origin text)
  intro token hmem
  refine text_of_mem_collect [] _ (fun one hone => ?_) token (List.mem_toArray.mp hmem)
  have hcut := (List.of_mem_zip hone).2
  rw [CompiledGrammar.tokenize, hparts.cut] at hcut
  exact hfull one.2 hcut

/-! ### Trees -/

namespace RecoveryScope

variable {scope : RecoveryScope} {grammar : Grammar}

/-- **In a tree made of a whole stream** all but the root is tight. -/
theorem tight_finish (realizes : scope.compiled.Realizes grammar)
    (sorted : scope.source.Sorted scope.compiled) (spelled : scope.source.Spelled)
    {fragment : Fragment} {state : RecoveryState}
    (matched : scope.Matched fragment state.tokens) :
    ∀ child ∈ (scope.finish fragment state).children, child.Tight scope.compiled := by
  obtain ⟨rule, stop, seen, -, hevaluates, -⟩ := matched.start
  obtain ⟨repairs, -, htokens⟩ := matched.repairs
  obtain ⟨waiting, hlast⟩ := matched.last
  have hstream : ∀ token ∈ state.tokens, token.Tight scope.compiled := fun token hmem =>
    Source.Lays.tight sorted spelled (Source.lays_stream_any scope.source repairs) .nil token
      (Array.mem_toList_iff.mpr (htokens ▸ hmem))
  have hfragment : fragment.Tight scope.compiled :=
    hevaluates.keeps (Fragment.kept_tight scope.compiled) (fun op token view hmem =>
      (hstream token hmem).fragment (realizes.owns_of_view view).not_reserved) .blank _ rfl
  rw [finish, hlast]
  exact List.forall_mem_append.mpr ⟨hfragment.inner, Source.tight_leading sorted spelled _⟩

/-- In the tree of a session that does not give up, all but the root is tight. -/
theorem tight_recover (realizes : scope.compiled.Realizes grammar)
    (proper : scope.source.Proper) (sorted : scope.source.Sorted scope.compiled)
    (spelled : scope.source.Spelled) {seed : Memo}
    (right : seed.Valid scope.compiled (scope.source.stream []))
    (kept : ∀ error ∈ (scope.recover seed).errors, error.recovery ≠ some .abandoned) :
    ∀ child ∈ (scope.recover seed).tree.children, child.Tight scope.compiled := by
  have hsettled := settled_recover realizes right
  generalize scope.recover seed = recovered at hsettled kept ⊢
  cases hsettled with
  | success _ _ ran hfragment =>
    exact tight_finish realizes sorted spelled (ran.matched realizes proper hfragment)
  | abandoned => exact absurd rfl (kept _ (List.mem_singleton.mpr rfl))

end RecoveryScope

namespace Parser

variable {parser : Parser} {grammar : Grammar}

open Element (shownFrom outlineFrom)

/-- What is below the root of a tree is tight if the children of the root are. -/
theorem tight_of_below {compiled : CompiledGrammar} {root : Element}
    (children : ∀ child ∈ root.children, child.Tight compiled) {placed : Element.Placed}
    (hmem : placed ∈ root.outline) (below : placed.depth ≠ 0) : placed.element.Tight compiled := by
  cases root with
  | token kind text =>
    rw [Element.outline, outlineFrom, List.mem_singleton] at hmem
    exact absurd (by rw [hmem]) below
  | node kind inner =>
    rw [Element.outline, outlineFrom, List.mem_cons] at hmem
    rcases hmem with rfl | hmem
    · exact absurd rfl below
    · exact Element.tight_outlineOfAll children placed hmem

/-- **Where nodes start and end**, unless parsing gave up.  A node below the root ends where the
last significant token with text in it ends.  It starts where the first one starts, unless a node
without text stands at its start. -/
theorem tight_parse (done : grammar.compile = .ok parser.compiled) (text : List Char)
    (kept : ∀ diagnostic ∈ (parser.parse text).diagnostics,
      diagnostic.recovery ≠ some .abandoned) :
    ∀ placed ∈ (parser.parse text).tree.outline, placed.depth ≠ 0 →
      placed.element.isNode = true →
        (∀ last, (shownFrom parser.compiled placed.depth placed.start placed.element).getLast? =
          some last → last.range.stop = placed.range.stop) ∧
        ∀ first, (shownFrom parser.compiled placed.depth placed.start placed.element).head? =
          some first → first.range.start = placed.range.start ∨
            ∃ inner ∈ outlineFrom placed.depth placed.start placed.element,
              inner.start = placed.start ∧ inner.element.isNode = true ∧
                inner.element.length = 0 := by
  have realizes := Grammar.realizes_compile done
  have hchildren := @RecoveryScope.tight_recover
    (parser.scope text (parser.compiled.tokenize text)) grammar realizes
    (Source.proper_ofTokens text (kind_ne_of_tokenize realizes text))
    (Source.sorted_tokenize realizes text) (Source.spelled_tokenize parser.compiled text) ∅
    Memo.valid_empty fun error hmem => kept error
      (List.mem_mergeSort.mpr (List.mem_append_right _ hmem))
  intro placed hmem below hnode
  have htight : placed.element.Tight parser.compiled := tight_of_below hchildren hmem below
  refine ⟨fun last hlast => ?_, fun first hfirst => ?_⟩
  · cases htoken : lastToken? placed.element with
    | none =>
      have hnone := (@Element.length_of_lastToken? parser.compiled placed.depth placed.start _
        htoken).1
      rw [hnone] at hlast
      cases hlast
    | some token =>
      have hends := htight.endsTight hnode token htoken
      obtain ⟨found, hfound, hstop⟩ :=
        Element.getLast?_shownFrom placed.depth placed.start placed.element htoken hends
      obtain rfl := Option.some.inj (hlast.symm.trans hfound)
      exact hstop
  · by_cases hempty : ∃ inner ∈ outlineFrom placed.depth placed.start placed.element,
        inner.start = placed.start ∧ inner.element.isNode = true ∧ inner.element.length = 0
    · exact .inr hempty
    · obtain ⟨found, hfound, hstart⟩ := htight.head?_shownFrom placed.depth placed.start
        (.inl hnode)
        fun inner hmem hstart hnode hlength => hempty ⟨inner, hmem, hstart, hnode, hlength⟩
      obtain rfl := Option.some.inj (hfirst.symm.trans hfound)
      exact .inl hstart

end Parser

/-! ### A part that is empty -/

/-- A grammar with a rule that may match nothing in front of a token. -/
def Grammar.emptyPart : Grammar :=
  { Grammar.empty "emptyPart" with
    rules := [
      ("s", .seq [.literal "x", .reference "a"]),
      ("a", .seq [.reference "b", .literal "y"]),
      ("b", .optional (.literal "z")),
      ("blank", .literal " ")]
    start := some "s"
    extras := ["blank"] }

/-- What it is compiled to. -/
def CompiledGrammar.emptyPart : CompiledGrammar := Grammar.emptyPart.compile.toOption.getD default

theorem Grammar.compile_emptyPart : Grammar.emptyPart.compile = .ok CompiledGrammar.emptyPart :=
  Grammar.compile_eq_getD (by with_unfolding_all decide)

namespace Parser

open Element (shownFrom)

/-- The node of the rule `a`.  The blank in it stands behind the empty node. -/
def partNode : Element :=
  .node ⟨10⟩ [.node ⟨11⟩ [], .token ⟨5⟩ [' '], .token ⟨7⟩ ['y']]

/-- The text has no errors, and this is its tree. -/
theorem parse_emptyPart :
    ((ofCompiled .emptyPart).parse ['x', ' ', 'y']).diagnostics = [] ∧
      ((ofCompiled .emptyPart).parse ['x', ' ', 'y']).tree =
        .node ⟨9⟩ [.token ⟨6⟩ ['x'], partNode] := by
  let scope := (ofCompiled .emptyPart).scope ['x', ' ', 'y']
    (CompiledGrammar.emptyPart.tokenize ['x', ' ', 'y'])
  have hlexed : (CompiledGrammar.emptyPart.tokenize ['x', ' ', 'y']).diagnostics = [] := by
    with_unfolding_all decide
  have hrun : (scope.run [] ⟨scope.source.stream [], ∅, 1, [], false⟩).1.fragment =
      some ⟨[], [.token ⟨6⟩ ['x'], partNode]⟩ := by
    rw [RecoveryScope.run, Engine.run_blank rfl (Memo.blank_empty.filter _)
      (by with_unfolding_all decide)]
    with_unfolding_all decide
  have hlast : ((scope.run [] ⟨scope.source.stream [], ∅, 1, [], false⟩).2.tokens.back?).map
      (·.leading) = some [] := by with_unfolding_all decide
  have hkind : CompiledGrammar.emptyPart.startKind = ⟨9⟩ := by with_unfolding_all decide
  have hrecover := @RecoveryScope.recover_of_success scope ∅ (by decide) _ hrun
  have hnone : (CompiledGrammar.emptyPart.tokenize ['x', ' ', 'y']).diagnostics ++
      (scope.recover ∅).errors = [] := by rw [hlexed, hrecover]; rfl
  refine ⟨(congrArg (List.mergeSort · _) hnone).trans List.mergeSort_nil, ?_⟩
  have htree : (scope.recover ∅).tree = .node ⟨9⟩ [.token ⟨6⟩ ['x'], partNode] := by
    rw [hrecover, RecoveryScope.succeed, RecoveryScope.finish, hlast]
    exact congrArg (Element.node · _) hkind
  exact htree

theorem partNode_mem_outline :
    ⟨1, 1, partNode⟩ ∈ ((ofCompiled .emptyPart).parse ['x', ' ', 'y']).tree.outline := by
  rw [parse_emptyPart.2]
  exact .tail _ (.tail _ (.head _))

/-- The node ends where its last significant token does. -/
theorem tight_parse_emptyPart :
    let parse := (ofCompiled .emptyPart).parse ['x', ' ', 'y']
    (∀ diagnostic ∈ parse.diagnostics, diagnostic.recovery ≠ some .abandoned) ∧
      ∃ placed ∈ parse.tree.outline, placed.depth ≠ 0 ∧ placed.element.isNode = true ∧
        ∃ last, (shownFrom .emptyPart placed.depth placed.start placed.element).getLast? =
          some last ∧ last.range.stop = placed.range.stop := by
  intro parse
  have hkept : ∀ diagnostic ∈ parse.diagnostics, diagnostic.recovery ≠ some .abandoned := by
    rw [parse_emptyPart.1]
    exact List.forall_mem_nil _
  have hlast : (shownFrom .emptyPart 1 1 partNode).getLast? = some ⟨2, 2, .token ⟨7⟩ ['y']⟩ := by
    with_unfolding_all rfl
  have htight := @tight_parse (ofCompiled .emptyPart) .emptyPart Grammar.compile_emptyPart
    ['x', ' ', 'y'] hkept _ partNode_mem_outline (by decide) rfl
  exact ⟨hkept, _, partNode_mem_outline, by decide, rfl, _, hlast, htight.1 _ hlast⟩

/-- **A part that is empty keeps the trivia behind it inside.**  The text has no errors, and the
node starts in front of its first significant token. -/
theorem start_ne_emptyPart : Grammar.emptyPart.compile = .ok .emptyPart ∧
    ((ofCompiled .emptyPart).parse ['x', ' ', 'y']).diagnostics = [] ∧
      ∃ placed ∈ ((ofCompiled .emptyPart).parse ['x', ' ', 'y']).tree.outline,
        placed.element.isNode = true ∧ placed.range.start = 1 ∧
          (shownFrom .emptyPart placed.depth placed.start placed.element).map (·.range.start) =
            [2] :=
  ⟨Grammar.compile_emptyPart, parse_emptyPart.1, _, partNode_mem_outline, rfl, rfl,
    by with_unfolding_all decide⟩

end Parser

end Syntagm
