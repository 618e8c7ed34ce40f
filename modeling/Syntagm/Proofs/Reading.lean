import Syntagm.Parse.Parser
import Syntagm.Proofs.Generation
import Syntagm.Proofs.Lossless

/-!
# How trees read as derivations

The children of a node read as symbols of a right-hand side (`CompiledGrammar.reading`):
trivia and what was left out read as nothing, and what stands for a token that the text lacks
reads as that token.

A node is **derived** if it is one of the nodes that repairs make, or if its children read as
what the body of its rule generates (`Derived`).  Trees are put together from parts whose
leading elements read as nothing (`Quiet`) and whose elements may be children of rule nodes
(`Sits`).  The tokens of a stream are such parts (`Source.Lays.reads`).
-/

namespace Syntagm

namespace CompiledGrammar

/-- The symbol that an element reads as, if any. -/
def symbol? (compiled : CompiledGrammar) : Element → Option Symbol
  | .token kind _ => if compiled.isTrivia kind then none else some (.token kind)
  | .node kind children =>
    if kind = Kind.error then none
    else if kind = Kind.missing then children.head?.map fun inner => .token inner.kind
    else some (.node kind)

/-- The symbols that elements read as. -/
def reading (compiled : CompiledGrammar) (elements : List Element) : List Symbol :=
  elements.filterMap compiled.symbol?

variable {compiled : CompiledGrammar}

@[simp] theorem reading_nil : compiled.reading [] = [] := rfl

@[simp] theorem reading_append (first second : List Element) :
    compiled.reading (first ++ second) = compiled.reading first ++ compiled.reading second :=
  List.filterMap_append

theorem reading_node {kind : Kind} (shown : kind.isReserved = false) (children : List Element) :
    compiled.reading [.node kind children] = [.node kind] := by
  have herror : kind ≠ Kind.error := fun heq => by rw [heq] at shown; cases shown
  have hmissing : kind ≠ Kind.missing := fun heq => by rw [heq] at shown; cases shown
  simp [reading, symbol?, herror, hmissing]

theorem reading_missingNode (kind : Kind) :
    compiled.reading [Source.missingNode kind] = [.token kind] := by
  have hne : Kind.missing ≠ Kind.error := by decide
  simp [reading, symbol?, Source.missingNode, hne, Element.kind]

theorem reading_eq_nil_of_isTrivia {elements : List Element}
    (h : ∀ element ∈ elements, element.isTrivia compiled = true) :
    compiled.reading elements = [] := by
  refine List.filterMap_eq_nil_iff.mpr fun element hmem => ?_
  have hone := h element hmem
  cases element with
  | token kind text =>
    have : compiled.isTrivia kind = true := hone
    simp [symbol?, this]
  | node kind children => cases hone

end CompiledGrammar

/-! ### Derived trees -/

/-- **A node is derived**: its children read as what the body of its rule generates, and none
of them is a token that no terminal matches.  Repairs make two more kinds of node, one for a
token that the text lacks and one around tokens that are left out. -/
inductive Derived (grammar : Grammar) (compiled : CompiledGrammar) :
    Kind → List Element → Prop where
  | rule {number : Nat} {rule : Rule} {body children}
      (lookup : compiled.program.rules[number]? = some rule)
      (declared : (Program.syntacticRules grammar grammar.tokenRules)[number]? =
        some (rule.name, body))
      (generates : Generates grammar compiled body (compiled.reading children))
      (known : ∀ text, .token Kind.unknown text ∉ children) :
      Derived grammar compiled rule.kind children
  | lacking {kind} (fits : kind.isReserved = false) :
      Derived grammar compiled Kind.missing [.token kind []]
  | leftOut {children} (tokens : ∀ child ∈ children, child.isNode = false) :
      Derived grammar compiled Kind.error children

/-- **A tree is derived** if all nodes in it are. -/
inductive Element.Derives (grammar : Grammar) (compiled : CompiledGrammar) : Element → Prop where
  | token (kind text) : Derives grammar compiled (.token kind text)
  | node {kind children} (root : Derived grammar compiled kind children)
      (inner : ∀ child ∈ children, Derives grammar compiled child) :
      Derives grammar compiled (.node kind children)

/-- An element that may be a child of a node of a rule. -/
structure Sits (grammar : Grammar) (compiled : CompiledGrammar) (element : Element) : Prop where
  derives : element.Derives grammar compiled
  known : ∀ text, element ≠ .token Kind.unknown text

/-- Elements that may stand anywhere: they read as nothing. -/
structure Quiet (grammar : Grammar) (compiled : CompiledGrammar) (elements : List Element) :
    Prop where
  reading : compiled.reading elements = []
  sits : ∀ element ∈ elements, Sits grammar compiled element

/-- What the elements of a fragment read as, behind what stands in front of them. -/
structure Fragment.Reads (grammar : Grammar) (compiled : CompiledGrammar) (fragment : Fragment)
    (symbols : List Symbol) : Prop where
  leading : Quiet grammar compiled fragment.leading
  reading : compiled.reading fragment.elements = symbols
  sits : ∀ element ∈ fragment.elements, Sits grammar compiled element

/-- The match of a token reads as that token, if its kind is not reserved. -/
structure StreamToken.Reads (grammar : Grammar) (compiled : CompiledGrammar)
    (token : StreamToken) : Prop where
  leading : Quiet grammar compiled token.leading
  element : token.kind.isReserved = false → Fragment.Reads grammar compiled
    ⟨token.leading, token.element.toList⟩ [.token token.kind]

section Trees
variable {grammar : Grammar} {compiled : CompiledGrammar}

namespace Element

theorem Derives.of_isNode {element : Element} (h : element.isNode = false) :
    element.Derives grammar compiled := by
  cases element with
  | token kind text => exact .token kind text
  | node => cases h

mutual

/-- All nodes in a derived tree are derived. -/
theorem Derives.outlineFrom {depth start : Nat} : ∀ {element : Element},
    element.Derives grammar compiled → ∀ placed ∈ outlineFrom depth start element,
      ∀ kind children, placed.element = .node kind children → Derived grammar compiled kind children
  | .token _ _, _, placed, hmem, kind, children, heq => by
    simp only [Element.outlineFrom, List.mem_singleton] at hmem
    rw [hmem] at heq
    cases heq
  | .node _ all, .node root inner, placed, hmem, kind, children, heq => by
    simp only [Element.outlineFrom, List.mem_cons] at hmem
    rcases hmem with rfl | hmem
    · cases heq
      exact root
    · exact derived_outlineOfAll inner placed hmem kind children heq

theorem derived_outlineOfAll {depth start : Nat} : ∀ {elements : List Element},
    (∀ element ∈ elements, element.Derives grammar compiled) →
      ∀ placed ∈ outlineOfAll depth start elements,
        ∀ kind children, placed.element = .node kind children →
          Derived grammar compiled kind children
  | [], _, _, hmem, _, _, _ => nomatch hmem
  | first :: rest, h, placed, hmem, kind, children, heq => by
    obtain ⟨hfirst, hrest⟩ := List.forall_mem_cons.mp h
    simp only [outlineOfAll, List.mem_append] at hmem
    rcases hmem with hmem | hmem
    · exact hfirst.outlineFrom placed hmem kind children heq
    · exact derived_outlineOfAll hrest placed hmem kind children heq

end

end Element

theorem Sits.node {kind : Kind} {children : List Element}
    (root : Derived grammar compiled kind children)
    (inner : ∀ child ∈ children, child.Derives grammar compiled) :
    Sits grammar compiled (.node kind children) :=
  ⟨.node root inner, fun _ heq => (nomatch heq)⟩

theorem sits_missingNode {kind : Kind} (fits : kind.isReserved = false) :
    Sits grammar compiled (Source.missingNode kind) := by
  refine .node (.lacking fits) fun child hmem => ?_
  obtain rfl := List.mem_singleton.mp hmem
  exact .token kind []

/-- A node around tokens that are left out. -/
theorem sits_error {children : List Element} (tokens : ∀ child ∈ children, child.isNode = false) :
    Sits grammar compiled (.node Kind.error children) :=
  .node (.leftOut tokens) fun child hmem => .of_isNode (tokens child hmem)

namespace Quiet

theorem nil : Quiet grammar compiled [] := ⟨rfl, fun _ h => (nomatch h)⟩

theorem append {first second : List Element} (h : Quiet grammar compiled first)
    (h' : Quiet grammar compiled second) : Quiet grammar compiled (first ++ second) where
  reading := by rw [CompiledGrammar.reading_append, h.reading, h'.reading, List.nil_append]
  sits := List.forall_mem_append.mpr ⟨h.sits, h'.sits⟩

theorem error {children : List Element} (tokens : ∀ child ∈ children, child.isNode = false) :
    Quiet grammar compiled [.node Kind.error children] where
  reading := by simp [CompiledGrammar.reading, CompiledGrammar.symbol?]
  sits := List.forall_mem_singleton.mpr (sits_error tokens)

end Quiet

namespace Fragment.Reads

variable {first second : Fragment} {symbols others : List Symbol}

theorem blank : Fragment.blank.Reads grammar compiled [] where
  leading := .nil
  reading := rfl
  sits _ h := nomatch h

theorem append (h : first.Reads grammar compiled symbols)
    (h' : second.Reads grammar compiled others) :
    (first ++ second).Reads grammar compiled (symbols ++ others) := by
  by_cases hblank : first = .blank
  · -- the second fragment is taken as it is, and the first one reads as nothing
    subst hblank
    have hnil : symbols = [] := h.reading.symm
    rwa [hnil, List.nil_append, Fragment.blank_append]
  · rw [Fragment.append_of_ne_blank hblank]
    refine ⟨h.leading, ?_, ?_⟩
    · simp only [CompiledGrammar.reading_append, h.reading, h'.leading.reading, h'.reading,
        List.append_nil]
    · exact List.forall_mem_append.mpr
        ⟨List.forall_mem_append.mpr ⟨h.sits, h'.leading.sits⟩, h'.sits⟩

/-- None of the elements is a token that no terminal matches. -/
theorem known (h : first.Reads grammar compiled symbols) (text : List Char) :
    .token Kind.unknown text ∉ first.elements :=
  fun hmem => (h.sits _ hmem).known text rfl

theorem wrap {kind : Kind} (h : first.Reads grammar compiled symbols)
    (shown : kind.isReserved = false) (root : Derived grammar compiled kind first.elements) :
    (first.wrap kind).Reads grammar compiled [.node kind] where
  leading := h.leading
  reading := CompiledGrammar.reading_node shown _
  sits := List.forall_mem_singleton.mpr (.node root fun child hmem => (h.sits child hmem).derives)

end Fragment.Reads

/-! ### Sources -/

/-- The significant tokens of a source are none of trivia, and what stands between them is. -/
structure Source.Sorted (compiled : CompiledGrammar) (source : Source) : Prop where
  tokens : ∀ token ∈ source.tokens, compiled.isTrivia token.kind = false
  trivia : ∀ token ∈ source.tokens, ∀ element ∈ token.trivia, element.isTrivia compiled = true
  trailing : ∀ element ∈ source.trailing, element.isTrivia compiled = true

theorem isTrivia_unknown (owned : compiled.lexicon.Owned compiled.kinds) :
    compiled.isTrivia Kind.unknown = false := by
  by_contra htrivia
  have hextra : compiled.lexicon.extras.contains Kind.unknown = true := by
    simpa [CompiledGrammar.isTrivia, Lexicon.isExtra, Kind.unknown, Kind.endMarker] using htrivia
  have hreserved := (owned.extras _ hextra).not_reserved
  cases hreserved

/-- Trivia may stand anywhere. -/
theorem Quiet.of_isTrivia (owned : compiled.lexicon.Owned compiled.kinds) {elements : List Element}
    (h : ∀ element ∈ elements, element.isTrivia compiled = true) :
    Quiet grammar compiled elements where
  reading := CompiledGrammar.reading_eq_nil_of_isTrivia h
  sits element hmem := by
    have hone := h element hmem
    cases element with
    | token kind text =>
      refine ⟨.token kind text, fun other heq => ?_⟩
      obtain ⟨rfl, -⟩ := Element.token.inj heq
      have htrivia : compiled.isTrivia Kind.unknown = true := hone
      rw [isTrivia_unknown owned] at htrivia
      cases htrivia
    | node => cases hone

namespace Source

variable {source : Source}

theorem sorted_collect {trivia : List Element} (tokens : List (Token × List Char))
    (kinds : ∀ one ∈ tokens, one.1.isExtra = compiled.isTrivia one.1.kind)
    (before : ∀ element ∈ trivia, element.isTrivia compiled = true) :
    (∀ token ∈ (collect trivia tokens).1, compiled.isTrivia token.kind = false ∧
      ∀ element ∈ token.trivia, element.isTrivia compiled = true) ∧
    ∀ element ∈ (collect trivia tokens).2, element.isTrivia compiled = true := by
  induction tokens generalizing trivia with
  | nil => exact ⟨fun token hmem => (nomatch hmem), before⟩
  | cons first others ih =>
    obtain ⟨token, text⟩ := first
    obtain ⟨hfirst, hothers⟩ := List.forall_mem_cons.mp kinds
    rw [collect]
    split
    · rename_i hextra
      exact ih hothers (List.forall_mem_append.mpr
        ⟨before, List.forall_mem_singleton.mpr (hfirst.symm.trans hextra)⟩)
    · rename_i hextra
      obtain ⟨htokens, htrailing⟩ := ih hothers (List.forall_mem_nil _)
      refine ⟨List.forall_mem_cons.mpr ⟨⟨?_, before⟩, htokens⟩, htrailing⟩
      exact hfirst.symm.trans (Bool.eq_false_iff.mpr hextra)

/-- **The source of a text is sorted** by the grammar that its tokens are made with. -/
theorem sorted_ofTokens (text : List Char) {tokens : Tokens}
    (kinds : ∀ token ∈ tokens.list, token.isExtra = compiled.isTrivia token.kind) :
    (ofTokens text tokens).Sorted compiled := by
  have hkinds : ∀ one ∈ tokens.list.zip (Tokens.cut text tokens.list),
      one.1.isExtra = compiled.isTrivia one.1.kind :=
    fun one hmem => kinds one.1 (List.of_mem_zip hmem).1
  obtain ⟨htokens, htrailing⟩ := sorted_collect _ hkinds (List.forall_mem_nil _)
  exact ⟨fun token hmem => (htokens token (List.mem_toArray.mp hmem)).1,
    fun token hmem => (htokens token (List.mem_toArray.mp hmem)).2, htrailing⟩

namespace Sorted

theorem trivia_at (sorted : source.Sorted compiled) (index : Nat) :
    ∀ element ∈ source.trivia index, element.isTrivia compiled = true := by
  unfold Source.trivia
  cases htoken : source.tokens[index]? with
  | none => exact sorted.trailing
  | some token => exact sorted.trivia token (Array.mem_of_getElem? htoken)

theorem isNode_eq_false {element : Element} (h : element.isTrivia compiled = true) :
    element.isNode = false := by
  cases element with
  | token => rfl
  | node => cases h

/-- What is left out are tokens. -/
theorem isNode_place (sorted : source.Sorted compiled) {token : SourceToken}
    (hmem : token ∈ source.tokens) : ∀ child ∈ place token, child.isNode = false :=
  List.forall_mem_append.mpr ⟨fun child h => isNode_eq_false (sorted.trivia token hmem child h),
    List.forall_mem_singleton.mpr rfl⟩

theorem quiet_errorNode (sorted : source.Sorted compiled) (start count : Nat) :
    Quiet grammar compiled [source.errorNode start count] := by
  refine .error ?_
  have hsub : ∀ token ∈ (source.tokens.toList.drop start).take count, token ∈ source.tokens :=
    fun token hmem => Array.mem_toList_iff.mp (List.mem_of_mem_drop (List.mem_of_mem_take hmem))
  generalize (source.tokens.toList.drop start).take count = stretch at hsub
  cases stretch with
  | nil => exact fun child hmem => (nomatch hmem)
  | cons first rest =>
    refine List.forall_mem_cons.mpr ⟨rfl, fun child hmem => ?_⟩
    obtain ⟨token, htoken, hchild⟩ := List.mem_flatMap.mp hmem
    exact sorted.isNode_place (hsub token (List.mem_cons_of_mem _ htoken)) child hchild

/-- What stands in front of a token of a stream may stand anywhere. -/
theorem quiet_leading (owned : compiled.lexicon.Owned compiled.kinds)
    (sorted : source.Sorted compiled) (lead : List Lead) :
    Quiet grammar compiled (source.leading lead) := by
  induction lead with
  | nil => exact .nil
  | cons first rest ih =>
    rw [leading, List.flatMap_cons]
    refine .append ?_ ih
    cases first with
    | trivia index => exact .of_isTrivia owned (sorted.trivia_at index)
    | skipped start stop => exact sorted.quiet_errorNode start (stop - start)

end Sorted

/-! ### Streams -/

theorem reads_insertedToken (owned : compiled.lexicon.Owned compiled.kinds)
    (sorted : source.Sorted compiled) (site : Nat) (kind : Kind) (pending : List Lead) :
    (source.insertedToken site kind pending).Reads grammar compiled where
  leading := sorted.quiet_leading owned pending
  element fits := ⟨sorted.quiet_leading owned pending, CompiledGrammar.reading_missingNode kind,
    List.forall_mem_singleton.mpr (sits_missingNode fits)⟩

/-- A place whose kind is not reserved is that of a token. -/
theorem token_of_kind {index : Nat} (h : (source.kind index).isReserved = false) :
    ∃ token, source.tokens[index]? = some token ∧ source.kind index = token.kind ∧
      source.element? index = some token.element := by
  simp only [kind, element?] at h ⊢
  cases htoken : source.tokens[index]? with
  | none =>
    rw [htoken] at h
    cases h
  | some token => exact ⟨token, rfl, rfl, rfl⟩

theorem reads_realToken (owned : compiled.lexicon.Owned compiled.kinds)
    (sorted : source.Sorted compiled) (index : Nat) (pending : List Lead) :
    (source.realToken index pending).Reads grammar compiled := by
  have hleading : Quiet grammar compiled (source.leading (pending ++ [.trivia index])) :=
    sorted.quiet_leading owned _
  refine ⟨hleading, fun hreserved => ?_⟩
  obtain ⟨token, htoken, hkind, helement⟩ := token_of_kind hreserved
  have htrivia := sorted.tokens token (Array.mem_of_getElem? htoken)
  refine ⟨hleading, ?_, ?_⟩
  · simp only [realToken, hkind, helement, Option.toList_some]
    simp [CompiledGrammar.reading, CompiledGrammar.symbol?, SourceToken.element, htrivia]
  · simp only [realToken, helement, Option.toList_some]
    refine List.forall_mem_singleton.mpr ⟨.token _ _, fun text heq => ?_⟩
    obtain ⟨hunknown, -⟩ := Element.token.inj heq
    have hreserved : token.kind.isReserved = false := hkind ▸ hreserved
    rw [hunknown] at hreserved
    cases hreserved

/-- **The tokens of a stream read as tokens**, whatever repairs made of them. -/
theorem Lays.reads (owned : compiled.lexicon.Owned compiled.kinds)
    (sorted : source.Sorted compiled) {allowed : Kind → Prop} {index : Nat}
    {pending : List Lead} {tokens : List StreamToken}
    (h : source.Lays allowed index pending tokens) :
    ∀ token ∈ tokens, token.Reads grammar compiled := by
  induction h with
  | stop => exact fun token hmem => (nomatch hmem)
  | take _ _ ih => exact List.forall_mem_cons.mpr ⟨reads_realToken owned sorted _ _, ih⟩
  | putIn _ _ _ ih =>
    exact List.forall_mem_cons.mpr ⟨reads_insertedToken owned sorted _ _ _, ih⟩
  | leaveOut _ _ _ ih => exact ih

end Source

end Trees

end Syntagm
