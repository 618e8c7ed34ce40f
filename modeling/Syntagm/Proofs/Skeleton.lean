import Syntagm.Proofs.CheckedParsing
import Syntagm.Proofs.Lockstep
import Syntagm.Proofs.Reading
import Syntagm.Proofs.Sites

/-!
# Trivia and texts of tokens do not count

Two texts may differ in everything but the kinds of their significant tokens: in spaces, in
comments, and in how the tokens are spelled.  Their trees then have the same skeleton, which is what
is left without trivia and without the texts of tokens (`Element.skeleton`), and the same errors are
reported at the same significant tokens (`Parser.parse_of_sameKinds`).

Trivia does go into fragments, and an empty fragment is put together with others in another way than
one that holds only trivia.  But no match of a token is empty, so two fragments with the same
skeleton are both empty or both not (`Fragment.SameSkeleton`), and the sessions for the two texts
are in step.
-/

namespace Syntagm

/-! ### Rebuilding trees -/

namespace Element

section Rebuild
variable (token : Kind → List Char → List Element) (node : Kind → List Element → List Element)

mutual

/-- What becomes of an element when all tokens and nodes in it are replaced, inner ones first. -/
def rebuild : Element → List Element
  | .token kind text => token kind text
  | .node kind children => node kind (rebuildAll children)

/-- What becomes of the elements of a list. -/
def rebuildAll : List Element → List Element
  | [] => []
  | first :: rest => rebuild first ++ rebuildAll rest

end

variable {token node}

theorem rebuildAll_append (first second : List Element) :
    rebuildAll token node (first ++ second) =
      rebuildAll token node first ++ rebuildAll token node second := by
  induction first with
  | nil => rfl
  | cons head tail ih => rw [List.cons_append, rebuildAll, rebuildAll, ih, List.append_assoc]

theorem rebuildAll_singleton (element : Element) :
    rebuildAll token node [element] = rebuild token node element := by
  rw [rebuildAll, rebuildAll, List.append_nil]

/-- Trivia goes away if its tokens do. -/
theorem rebuildAll_of_isTrivia {compiled : CompiledGrammar}
    (drops : ∀ kind text, compiled.isTrivia kind = true → token kind text = [])
    {elements : List Element} (trivia : ∀ element ∈ elements, element.isTrivia compiled = true) :
    rebuildAll token node elements = [] := by
  induction elements with
  | nil => rfl
  | cons first rest ih =>
    obtain ⟨hfirst, hrest⟩ := List.forall_mem_cons.mp trivia
    cases first with
    | token kind text => rw [rebuildAll, rebuild, drops kind text hfirst, ih hrest, List.nil_append]
    | node => cases hfirst

end Rebuild

/-! ### Skeletons -/

/-- **The skeleton** of an element: its nodes, and its tokens without trivia and texts. -/
def skeleton (compiled : CompiledGrammar) : Element → List Element :=
  rebuild (fun kind _ => if compiled.isTrivia kind then [] else [.token kind []])
    fun kind children => [.node kind children]

def skeletonAll (compiled : CompiledGrammar) : List Element → List Element :=
  rebuildAll (fun kind _ => if compiled.isTrivia kind then [] else [.token kind []])
    fun kind children => [.node kind children]

variable {compiled : CompiledGrammar}

theorem skeleton_node (kind : Kind) (children : List Element) :
    skeleton compiled (.node kind children) = [.node kind (skeletonAll compiled children)] := by
  rw [skeleton, rebuild]
  rfl

theorem skeletonAll_append (first second : List Element) :
    skeletonAll compiled (first ++ second) =
      skeletonAll compiled first ++ skeletonAll compiled second :=
  rebuildAll_append first second

theorem skeletonAll_singleton (element : Element) :
    skeletonAll compiled [element] = skeleton compiled element :=
  rebuildAll_singleton element

theorem skeletonAll_of_isTrivia {elements : List Element}
    (trivia : ∀ element ∈ elements, element.isTrivia compiled = true) :
    skeletonAll compiled elements = [] :=
  rebuildAll_of_isTrivia (fun _ _ h => if_pos h) trivia

end Element

open Element (skeleton skeletonAll)

variable {compiled : CompiledGrammar}

/-- Fragments with the same skeleton, both empty or both not. -/
structure Fragment.SameSkeleton (compiled : CompiledGrammar) (first second : Fragment) : Prop where
  leading : skeletonAll compiled first.leading = skeletonAll compiled second.leading
  elements : skeletonAll compiled first.elements = skeletonAll compiled second.elements
  isBlank : first.isBlank = second.isBlank

namespace Fragment

theorem isBlank_append (first second : Fragment) :
    (first ++ second).isBlank = (first.isBlank && second.isBlank) := by
  by_cases hblank : first = blank
  · rw [hblank, blank_append]
    rfl
  · have hshown : first.isBlank = false := Bool.eq_false_iff.mpr (mt isBlank_iff.mp hblank)
    rw [append_of_ne_blank hblank, hshown, Bool.false_and]
    simp only [isBlank, Bool.and_eq_false_imp] at hshown ⊢
    intro hleading
    have helements : first.elements ≠ [] := List.isEmpty_eq_false_iff.mp (hshown hleading)
    simp [helements]

theorem congruent_sameSkeleton : Congruent (SameSkeleton compiled) where
  blank := ⟨rfl, rfl, rfl⟩
  append {first first' second second'} h h' := by
    have hblank : (first ++ second).isBlank = (first' ++ second').isBlank := by
      rw [isBlank_append, isBlank_append, h.isBlank, h'.isBlank]
    have hboth : first = blank ↔ first' = blank := by
      rw [← isBlank_iff, ← isBlank_iff, h.isBlank]
    by_cases hempty : first = blank
    · rw [hempty, hboth.mp hempty, blank_append, blank_append]
      exact h'
    · rw [append_of_ne_blank hempty, append_of_ne_blank (mt hboth.mpr hempty)] at hblank ⊢
      refine ⟨h.leading, ?_, hblank⟩
      simp only [Element.skeletonAll_append, h.elements, h'.leading, h'.elements]

/-- A rule closes fragments with the same skeleton in the same way. -/
theorem SameSkeleton.closed {first second : Fragment} (h : first.SameSkeleton compiled second)
    (rule : Rule) :
    (Engine.closed rule first).SameSkeleton compiled (Engine.closed rule second) := by
  unfold Engine.closed
  split
  · exact h
  · refine ⟨h.leading, ?_, ?_⟩
    · show skeletonAll compiled [_] = skeletonAll compiled [_]
      rw [Element.skeletonAll_singleton, Element.skeletonAll_singleton, Element.skeleton_node,
        Element.skeleton_node, h.elements]
    · simp [Fragment.isBlank, wrap]

end Fragment

theorem CompiledGrammar.alike_sameSkeleton (compiled : CompiledGrammar) :
    compiled.Alike (Fragment.SameSkeleton compiled) compiled where
  congruent := Fragment.congruent_sameSkeleton
  view _ := rfl
  rules rule := by
    cases compiled.program.rules[rule]? with
    | none => exact .none
    | some body => exact .some ⟨rfl, fun h => h.closed body⟩
  analysis := rfl
  start := rfl

/-! ### Sources -/

namespace Source

variable {source other : Source}

namespace Sorted

theorem skeletonAll_trivia (sorted : source.Sorted compiled) (index : Nat) :
    skeletonAll compiled (source.trivia index) = [] :=
  Element.skeletonAll_of_isTrivia (sorted.trivia_at index)

theorem skeleton_element (sorted : source.Sorted compiled) {token : SourceToken}
    (hmem : token ∈ source.tokens) :
    skeleton compiled token.element = [.token token.kind []] := by
  rw [skeleton, SourceToken.element, Element.rebuild, if_neg (by simp [sorted.tokens token hmem])]

theorem skeletonAll_place (sorted : source.Sorted compiled) {token : SourceToken}
    (hmem : token ∈ source.tokens) :
    skeletonAll compiled (place token) = [.token token.kind []] := by
  rw [place, Element.skeletonAll_append, Element.skeletonAll_of_isTrivia (sorted.trivia token hmem),
    Element.skeletonAll_singleton, sorted.skeleton_element hmem, List.nil_append]

/-- Significant tokens with the trivia in front of them are what their kinds say. -/
theorem skeletonAll_flatMap_place (sorted : source.Sorted compiled) {tokens : List SourceToken}
    (sub : ∀ token ∈ tokens, token ∈ source.tokens) :
    skeletonAll compiled (tokens.flatMap place) =
      (tokens.map (·.kind)).map fun kind => .token kind [] := by
  induction tokens with
  | nil => rfl
  | cons first rest ih =>
    obtain ⟨hfirst, hrest⟩ := List.forall_mem_cons.mp sub
    rw [List.flatMap_cons, Element.skeletonAll_append, sorted.skeletonAll_place hfirst, ih hrest]
    rfl

theorem skeleton_errorNode (sorted : source.Sorted compiled) (start count : Nat) :
    skeleton compiled (source.errorNode start count) =
      [.node Kind.error
        (((source.kinds.drop start).take count).map fun kind => .token kind [])] := by
  have hsub : ∀ token ∈ (source.tokens.toList.drop start).take count, token ∈ source.tokens :=
    fun token hmem => Array.mem_toList_iff.mp (List.mem_of_mem_drop (List.mem_of_mem_take hmem))
  rw [errorNode, kinds, ← List.map_drop, ← List.map_take]
  generalize (source.tokens.toList.drop start).take count = stretch at hsub ⊢
  rw [Element.skeleton_node]
  cases stretch with
  | nil => rfl
  | cons first rest =>
    obtain ⟨hfirst, hrest⟩ := List.forall_mem_cons.mp hsub
    have hplaces := sorted.skeletonAll_flatMap_place hrest
    show [Element.node _ (skeletonAll compiled ([first.element] ++ rest.flatMap place))] = _
    rw [Element.skeletonAll_append, hplaces, Element.skeletonAll_singleton,
      sorted.skeleton_element hfirst]
    rfl

theorem skeletonAll_elements (sorted : source.Sorted compiled) :
    skeletonAll compiled source.elements = source.kinds.map fun kind => .token kind [] := by
  have hplaces := sorted.skeletonAll_flatMap_place
    fun token hmem => Array.mem_toList_iff.mp hmem
  show skeletonAll compiled (source.tokens.toList.flatMap place ++ source.trailing) = _
  rw [Element.skeletonAll_append, hplaces, Element.skeletonAll_of_isTrivia sorted.trailing,
    List.append_nil, kinds]

end Sorted

/-- What stands in front of a token has the skeleton that the kinds say. -/
theorem Resembles.skeletonAll_leading (resembles : source.Resembles other)
    (sorted : source.Sorted compiled) (sorted' : other.Sorted compiled) (lead : List Lead) :
    skeletonAll compiled (source.leading lead) = skeletonAll compiled (other.leading lead) := by
  induction lead with
  | nil => rfl
  | cons first rest ih =>
    simp only [leading, List.flatMap_cons, Element.skeletonAll_append] at ih ⊢
    rw [ih]
    cases first with
    | trivia index => simp only [sorted.skeletonAll_trivia, sorted'.skeletonAll_trivia]
    | skipped start stop =>
      have hkinds : source.kinds = other.kinds := resembles
      simp only [Element.skeletonAll_singleton, sorted.skeleton_errorNode,
        sorted'.skeleton_errorNode, hkinds]

/-- **Counterparts have the same skeleton**, and if an operation matches them, neither is the end
of the input. -/
theorem Counterparts.alike (resembles : source.Resembles other) {grammar : Grammar}
    (realizes : compiled.Realizes grammar) (sorted : source.Sorted compiled)
    (sorted' : other.Sorted compiled) {token token' : StreamToken}
    (h : source.Counterparts other token token') :
    token.Alike (Fragment.SameSkeleton compiled) compiled.program token' where
  kind := h.kind resembles
  fragment op view := by
    have hreserved := (realizes.owns_of_view view).not_reserved
    have hleading : skeletonAll compiled token.leading = skeletonAll compiled token'.leading := by
      obtain ⟨hone, htwo⟩ := h.leading
      rw [hone, htwo]
      exact resembles.skeletonAll_leading sorted sorted' token.lead
    cases h with
    | inserted site kind pending => exact ⟨hleading, rfl, by simp [Fragment.isBlank, insertedToken]⟩
    | real index pending =>
      have hreserved : (source.kind index).isReserved = false := hreserved
      obtain ⟨one, hone, hkind, helement⟩ := token_of_kind hreserved
      obtain ⟨two, htwo, hkind', helement'⟩ := token_of_kind (resembles.kind index ▸ hreserved)
      have hsame : one.kind = two.kind := by rw [← hkind, ← hkind', resembles.kind index]
      refine ⟨hleading, ?_, ?_⟩
      · simp only [realToken, helement, helement', Option.toList_some,
          Element.skeletonAll_singleton, sorted.skeleton_element (Array.mem_of_getElem? hone),
          sorted'.skeleton_element (Array.mem_of_getElem? htwo), hsame]
      · simp [Fragment.isBlank, realToken, helement, helement']

/-- The source of a text is sorted by the grammar that cuts it into tokens. -/
theorem sorted_tokenize {grammar : Grammar} (realizes : compiled.Realizes grammar)
    (text : List Char) : (ofTokens text (compiled.tokenize text)).Sorted compiled := by
  refine sorted_ofTokens text fun token hmem => ?_
  exact (compiled.kind_tokensFrom realizes.owned 0 .origin text token hmem).2

theorem kinds_ofTokens (text : List Char) :
    (ofTokens text (compiled.tokenize text)).kinds =
      (compiled.tokenize text).significant.map (·.kind) :=
  map_ofTokens (·.kind) (·.kind) (fun _ _ _ => rfl) text _

end Source

/-! ### Reports -/

/-- **Reports of the same error in two texts**: the same code, the same expected tokens and the same
recovery, at the same significant token.  What cannot be parsed at all is reported for the text as a
whole. -/
structure Diagnostic.Corresponds (source other : Source) (error error' : Diagnostic) : Prop where
  code : error.code = error'.code
  expected : error.expected = error'.expected
  recovery : error.recovery = error'.recovery
  site : (∃ site, error.range = source.range site ∧ error'.range = other.range site) ∨
    error.code = .unparsable ∧ error.range = error'.range

namespace RecoveryScope.Lockstep

variable {Like : Fragment → Fragment → Prop} {one two : RecoveryScope}

theorem corresponds (h : Lockstep Like one two) {error error' : Diagnostic}
    (reports : Reports Like one two error error') :
    error.Corresponds one.source two.source error' := by
  induction reports with
  | untried => exact ⟨rfl, rfl, rfl, .inr ⟨rfl, rfl⟩⟩
  | abandoned _ ih => exact ⟨ih.code, ih.expected, rfl, ih.site⟩
  | @failure site outcome outcome' alike recovery =>
    have hcode : one.failureCode site recovery = two.failureCode site recovery := by
      simp only [failureCode, h.sources.kind]
    have hexpected : outcome.expected.map one.kindName = outcome'.expected.map two.kindName := by
      rw [alike.expected, funext h.kindName]
    refine ⟨?_, ?_, rfl, .inl ⟨site, rfl, rfl⟩⟩
    · unfold report
      rw [alike.overflow, hcode]
      by_cases hdeep : outcome'.overflow.isSome
      · simp only [if_pos hdeep]
      · simp only [if_neg hdeep]
        rfl
    · unfold report
      rw [alike.overflow, hexpected]
      by_cases hdeep : outcome'.overflow.isSome
      · simp only [if_pos hdeep]
      · simp only [if_neg hdeep]
        rfl

/-- **Trees of sessions in step have the same skeleton.** -/
theorem skeleton_eq (h : Lockstep (Fragment.SameSkeleton compiled) one two)
    (sorted : one.source.Sorted compiled) (sorted' : two.source.Sorted compiled)
    (root : one.compiled.startKind = two.compiled.startKind) {tree tree' : Element}
    (trees : Trees (Fragment.SameSkeleton compiled) one two tree tree') :
    skeleton compiled tree = skeleton compiled tree' := by
  cases trees with
  | finished alike together =>
    obtain ⟨lead, htrailing, htrailing'⟩ := h.trailing together
    simp only [finish, Element.skeleton_node, Element.skeletonAll_append, root, alike.leading,
      alike.elements, htrailing, htrailing', h.sources.skeletonAll_leading sorted sorted']
  | abandoned =>
    have hkinds : one.source.kinds = two.source.kinds := h.sources
    simp only [Element.skeleton_node, Element.skeletonAll_singleton, root,
      sorted.skeletonAll_elements, sorted'.skeletonAll_elements, hkinds]

end RecoveryScope.Lockstep

namespace Parser

/-- What is parsed of a text. -/
def source (parser : Parser) (text : List Char) : Source :=
  Source.ofTokens text (parser.compiled.tokenize text)

/-- The errors that are found in a text once it is cut into tokens, as they are repaired. -/
def syntaxErrors (parser : Parser) (text : List Char) : List Diagnostic :=
  ((parser.scope text (parser.compiled.tokenize text)).recover ∅).errors

end Parser

end Syntagm
