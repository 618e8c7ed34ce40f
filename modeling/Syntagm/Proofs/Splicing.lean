import Syntagm.Proofs.Derivation
import Syntagm.Proofs.Hiding
import Syntagm.Proofs.Pruning
import Syntagm.Proofs.Skeleton

/-!
# A hidden rule only splices

If a rule is hidden, its nodes are gone from every tree, and their children stand where they stood
(`Element.splice`).  Everything else stays as it is: the same errors are found and repaired in the
same way, also where calls nest too deep (`Parser.parse_markHidden`).

There is one difference more.  What stands in front of a match of nothing stays in front of its
node, but without a node there is nothing it could stand in front of, and it goes to what comes
next.  This moves trivia and the error nodes around what was left out, so trees are compared
without them (`Element.bare`).  What stands in front of a fragment is never anything else, so
fragments of the two grammars are alike as soon as their elements are (`Fragment.Spliced`).
-/

namespace Syntagm

namespace Element

/-- A reading of elements that takes them one after the other. -/
structure Serial (read : List Element → List Element) : Prop where
  nil : read [] = []
  append : ∀ first second, read (first ++ second) = read first ++ read second

theorem Serial.comp {read read' : List Element → List Element} (h : Serial read)
    (h' : Serial read') : Serial fun elements => read (read' elements) where
  nil := by rw [h'.nil, h.nil]
  append first second := by rw [h'.append, h.append]

/-- An element with every node of some kinds replaced by its children. -/
def splice (hides : Kind → Bool) : Element → List Element :=
  rebuild (fun kind text => [.token kind text])
    fun kind children => if hides kind then children else [.node kind children]

def spliceAll (hides : Kind → Bool) : List Element → List Element :=
  rebuildAll (fun kind text => [.token kind text])
    fun kind children => if hides kind then children else [.node kind children]

/-- An element without trivia and without error nodes. -/
def bare (compiled : CompiledGrammar) : Element → List Element :=
  rebuild (fun kind text => if compiled.isTrivia kind then [] else [.token kind text])
    fun kind children => if kind = Kind.error then [] else [.node kind children]

def bareAll (compiled : CompiledGrammar) : List Element → List Element :=
  rebuildAll (fun kind text => if compiled.isTrivia kind then [] else [.token kind text])
    fun kind children => if kind = Kind.error then [] else [.node kind children]

variable {compiled : CompiledGrammar} {hides : Kind → Bool}

theorem serial_spliceAll : Serial (spliceAll hides) := ⟨rfl, rebuildAll_append⟩

theorem spliceAll_singleton (element : Element) :
    spliceAll hides [element] = splice hides element :=
  rebuildAll_singleton element

theorem splice_node_of_hides {kind : Kind} (h : hides kind = true) (children : List Element) :
    splice hides (.node kind children) = spliceAll hides children :=
  if_pos h

theorem splice_node {kind : Kind} (h : hides kind = false) (children : List Element) :
    splice hides (.node kind children) = [.node kind (spliceAll hides children)] :=
  if_neg (Bool.eq_false_iff.mp h)

/-- Where there are no nodes there is nothing to splice. -/
theorem spliceAll_of_not_isNode {elements : List Element}
    (tokens : ∀ element ∈ elements, element.isNode = false) :
    spliceAll hides elements = elements := by
  induction elements with
  | nil => rfl
  | cons first rest ih =>
    obtain ⟨hfirst, hrest⟩ := List.forall_mem_cons.mp tokens
    cases first with
    | token kind text =>
      show Element.token kind text :: spliceAll hides rest = _
      rw [ih hrest]
    | node => cases hfirst

theorem serial_bareAll : Serial (bareAll compiled) := ⟨rfl, rebuildAll_append⟩

theorem bareAll_singleton (element : Element) :
    bareAll compiled [element] = bare compiled element :=
  rebuildAll_singleton element

theorem bare_node {kind : Kind} (h : kind ≠ Kind.error) (children : List Element) :
    bare compiled (.node kind children) = [.node kind (bareAll compiled children)] :=
  if_neg h

theorem bare_error (children : List Element) : bare compiled (.node Kind.error children) = [] := by
  rw [bare, rebuild, if_pos rfl]

theorem bareAll_of_isTrivia {elements : List Element}
    (trivia : ∀ element ∈ elements, element.isTrivia compiled = true) :
    bareAll compiled elements = [] :=
  rebuildAll_of_isTrivia (fun _ _ h => if_pos h) trivia

end Element

open Element (splice spliceAll bare bareAll)

/-- Whether nodes of a kind are those of the rule of this name. -/
def CompiledGrammar.isKindOf (compiled : CompiledGrammar) (name : String) (kind : Kind) : Bool :=
  compiled.program.rules.any fun rule => rule.name == name && rule.kind == kind

namespace CompiledGrammar.Realizes

variable {compiled : CompiledGrammar} {grammar : Grammar} (realizes : compiled.Realizes grammar)
  {name : String}
include realizes

/-- Kinds of rules are told apart by the rules. -/
theorem eq_of_kind {number other : Nat} {rule rule' : Rule}
    (lookup : compiled.program.rules[number]? = some rule)
    (lookup' : compiled.program.rules[other]? = some rule') (same : rule.kind = rule'.kind) :
    rule = rule' := by
  obtain ⟨base, -, hkinds⟩ := realizes.kinds
  rw [hkinds number rule lookup, hkinds other rule' lookup'] at same
  obtain rfl : number = other := Nat.add_left_cancel (Kind.mk.inj same)
  exact Option.some.inj (lookup.symm.trans lookup')

theorem isKindOf_iff {number : Nat} {rule : Rule}
    (lookup : compiled.program.rules[number]? = some rule) :
    compiled.isKindOf name rule.kind = true ↔ rule.name = name := by
  rw [isKindOf, Array.any_eq_true]
  constructor
  · rintro ⟨other, hlt, hsame⟩
    simp only [Bool.and_eq_true, beq_iff_eq] at hsame
    rw [realizes.eq_of_kind lookup (Array.getElem?_eq_getElem hlt) hsame.2.symm]
    exact hsame.1
  · intro hname
    obtain ⟨hlt, heq⟩ := Array.getElem?_eq_some_iff.mp lookup
    exact ⟨number, hlt, by simp [heq, hname]⟩

theorem isKindOf_of_isReserved (name : String) {kind : Kind} (reserved : kind.isReserved = true) :
    compiled.isKindOf name kind = false := by
  rw [isKindOf, Array.any_eq_false]
  intro number hlt
  simp only [Bool.and_eq_true, beq_iff_eq, not_and]
  exact fun _ => realizes.kind_ne (Array.getElem?_eq_getElem hlt) reserved

end CompiledGrammar.Realizes

/-! ### Fragments -/

section Fragments
variable {compiled : CompiledGrammar} {hides : Kind → Bool}

/-- **Fragments with and without the nodes of a rule**: what stands in front is nothing but trivia
and error nodes, and the elements are the same once they are spliced. -/
structure Fragment.Spliced (compiled : CompiledGrammar) (hides : Kind → Bool)
    (shown hidden : Fragment) : Prop where
  leading : bareAll compiled (spliceAll hides shown.leading) = []
  leading' : bareAll compiled hidden.leading = []
  elements : bareAll compiled (spliceAll hides shown.elements) = bareAll compiled hidden.elements

namespace Fragment

/-- Fragments in front of which nothing is read are read one after the other. -/
theorem read_append {read : List Element → List Element} (serial : Element.Serial read)
    {first second : Fragment} (quiet : read first.leading = [])
    (quiet' : read second.leading = []) :
    read (first ++ second).leading = [] ∧
      read (first ++ second).elements = read first.elements ++ read second.elements := by
  by_cases hblank : first = blank
  · subst hblank
    have hnil : read blank.elements = [] := serial.nil
    rw [blank_append, hnil, List.nil_append]
    exact ⟨quiet', rfl⟩
  · rw [append_of_ne_blank hblank]
    refine ⟨quiet, ?_⟩
    rw [serial.append, serial.append, quiet', List.append_nil]

theorem congruent_spliced : Congruent (Spliced compiled hides) where
  blank := ⟨rfl, rfl, rfl⟩
  append {first first' second second'} h h' := by
    obtain ⟨hleading, helements⟩ :=
      read_append (Element.serial_bareAll.comp Element.serial_spliceAll) h.leading h'.leading
    obtain ⟨hleading', helements'⟩ := read_append Element.serial_bareAll h.leading' h'.leading'
    refine ⟨hleading, hleading', ?_⟩
    rw [helements, helements', h.elements, h'.elements]

/-- A rule that is hidden closes a match as the elements of its node. -/
theorem Spliced.closed {grammar : Grammar} (realizes : compiled.Realizes grammar) {name : String}
    {number : Nat} {rule : Rule} (lookup : compiled.program.rules[number]? = some rule)
    {fragment other : Fragment} (h : fragment.Spliced compiled (compiled.isKindOf name) other) :
    (Engine.closed rule fragment).Spliced compiled (compiled.isKindOf name)
      (Engine.closed (rule.hide name) other) := by
  have herror : rule.kind ≠ Kind.error := realizes.kind_ne lookup rfl
  unfold Engine.closed
  by_cases hname : rule.name = name
  · have hkind := (realizes.isKindOf_iff lookup).mpr hname
    have hhidden : (rule.hide name).hidden = true := by rw [Rule.hide, if_pos hname]
    rw [if_pos hhidden]
    split
    · exact h
    · refine ⟨h.leading, h.leading', ?_⟩
      show bareAll compiled (spliceAll _ [_]) = _
      rw [Element.spliceAll_singleton, Element.splice_node_of_hides hkind, h.elements]
  · have hkind : compiled.isKindOf name rule.kind = false :=
      Bool.eq_false_iff.mpr (mt (realizes.isKindOf_iff lookup).mp hname)
    have hsame : rule.hide name = rule := by rw [Rule.hide, if_neg hname]
    rw [hsame]
    split
    · exact h
    · refine ⟨h.leading, h.leading', ?_⟩
      show bareAll compiled (spliceAll _ [_]) = bareAll compiled [_]
      rw [Element.spliceAll_singleton, Element.splice_node hkind, Element.bareAll_singleton,
        Element.bareAll_singleton, Element.bare_node herror, Element.bare_node herror, h.elements]

end Fragment

theorem CompiledGrammar.alike_spliced {grammar : Grammar} (realizes : compiled.Realizes grammar)
    (name : String) (kinds : KindTable) :
    compiled.Alike (Fragment.Spliced compiled (compiled.isKindOf name))
      (compiled.hide name kinds) where
  congruent := Fragment.congruent_spliced
  view _ := rfl
  rules number := by
    have hrules : (compiled.hide name kinds).program = compiled.program.hide name := rfl
    rw [hrules, Program.getElem?_rules_hide]
    cases hrule : compiled.program.rules[number]? with
    | none => exact .none
    | some rule => exact .some ⟨(rule.body_hide name).symm, fun h => h.closed realizes hrule⟩
  analysis := rfl
  start := rfl

end Fragments

/-! ### Streams -/

namespace Source

variable {source : Source} {compiled : CompiledGrammar} {grammar : Grammar} {name : String}

theorem Counterparts.eq {token token' : StreamToken} (h : source.Counterparts source token token') :
    token = token' := by
  cases h <;> rfl

/-- What stands in front of a token is nothing but trivia and error nodes. -/
theorem read_leading {read : List Element → List Element} (serial : Element.Serial read)
    (trivia : ∀ index, read (source.trivia index) = [])
    (skipped : ∀ children, read [.node Kind.error children] = []) (lead : List Lead) :
    read (source.leading lead) = [] := by
  induction lead with
  | nil => exact serial.nil
  | cons first rest ih =>
    rw [leading, List.flatMap_cons, serial.append]
    refine List.append_eq_nil_iff.mpr ⟨?_, ih⟩
    cases first with
    | trivia index => exact trivia index
    | skipped start stop => exact skipped _

theorem Sorted.bareAll_leading (sorted : source.Sorted compiled) (lead : List Lead) :
    bareAll compiled (source.leading lead) = [] := by
  refine read_leading Element.serial_bareAll ?_ ?_ lead
  · exact fun index => Element.bareAll_of_isTrivia (sorted.trivia_at index)
  · intro children
    rw [Element.bareAll_singleton, Element.bare_error]

theorem Sorted.bareAll_splice_leading (realizes : compiled.Realizes grammar)
    (sorted : source.Sorted compiled) (lead : List Lead) :
    bareAll compiled (spliceAll (compiled.isKindOf name) (source.leading lead)) = [] := by
  refine read_leading (Element.serial_bareAll.comp Element.serial_spliceAll) ?_ ?_ lead
  · intro index
    have htrivia := sorted.trivia_at index
    have htokens : ∀ element ∈ source.trivia index, element.isNode = false :=
      fun element hmem => Sorted.isNode_eq_false (htrivia element hmem)
    rw [Element.spliceAll_of_not_isNode htokens, Element.bareAll_of_isTrivia htrivia]
  · intro children
    have herror : compiled.isKindOf name Kind.error = false :=
      realizes.isKindOf_of_isReserved name rfl
    rw [Element.spliceAll_singleton, Element.splice_node herror, Element.bareAll_singleton,
      Element.bare_error]

/-- The element of a token has no node in it that could be spliced. -/
theorem Counterparts.splice_element (realizes : compiled.Realizes grammar)
    {token token' : StreamToken} (h : source.Counterparts source token token') :
    spliceAll (compiled.isKindOf name) token.element.toList = token.element.toList := by
  cases h with
  | real index pending =>
    refine Element.spliceAll_of_not_isNode fun element hmem => ?_
    obtain ⟨one, -, rfl⟩ := Option.map_eq_some_iff.mp (Option.mem_toList.mp hmem)
    rfl
  | inserted site kind pending =>
    have hmissing : compiled.isKindOf name Kind.missing = false :=
      realizes.isKindOf_of_isReserved name rfl
    show spliceAll _ [.node Kind.missing [.token kind []]] = _
    rw [Element.spliceAll_singleton, Element.splice_node hmissing,
      Element.spliceAll_of_not_isNode (List.forall_mem_singleton.mpr rfl)]
    rfl

theorem Counterparts.spliced (realizes : compiled.Realizes grammar)
    (sorted : source.Sorted compiled) {token token' : StreamToken}
    (h : source.Counterparts source token token') :
    token.Alike (Fragment.Spliced compiled (compiled.isKindOf name)) compiled.program token' := by
  obtain rfl := h.eq
  obtain ⟨hleading, -⟩ := h.leading
  refine ⟨rfl, fun _ _ => ⟨?_, ?_, ?_⟩⟩
  · rw [hleading]
    exact sorted.bareAll_splice_leading realizes token.lead
  · rw [hleading]
    exact sorted.bareAll_leading token.lead
  · exact congrArg (bareAll compiled) (h.splice_element realizes)

end Source

/-! ### Sessions -/

namespace RecoveryScope.Lockstep

variable {one two : RecoveryScope} {grammar : Grammar}

/-- Sessions in step for the same source give equal reports. -/
theorem eq_of_reports {Like : Fragment → Fragment → Prop} (h : Lockstep Like one two)
    (same : one.source = two.source) {error error' : Diagnostic}
    (reports : Reports Like one two error error') : error = error' := by
  induction reports with
  | untried => rfl
  | abandoned _ ih => rw [ih]
  | failure site alike recovery =>
    simp only [report, alike.overflow, alike.expected, funext h.kindName, failureCode, foundAt,
      same]

/-- **Trees of sessions in step are the same once they are spliced.** -/
theorem splice_eq {name : String} (realizes : one.compiled.Realizes grammar)
    (h : Lockstep (Fragment.Spliced one.compiled (one.compiled.isKindOf name)) one two)
    (sorted : one.source.Sorted one.compiled) (same : one.source = two.source)
    (shown : grammar.start ≠ some name)
    (root : one.compiled.startKind = two.compiled.startKind) {tree tree' : Element}
    (trees : Trees (Fragment.Spliced one.compiled (one.compiled.isKindOf name)) one two tree
      tree') :
    bareAll one.compiled (splice (one.compiled.isKindOf name) tree) =
      bare one.compiled tree' := by
  obtain ⟨start, hstart, hname⟩ := realizes.start
  have hroot : one.compiled.startKind = start.kind := CompiledGrammar.startKind_eq hstart
  have hshown : one.compiled.isKindOf name one.compiled.startKind = false := by
    rw [hroot, Bool.eq_false_iff]
    intro hkind
    rw [(realizes.isKindOf_iff hstart).mp hkind] at hname
    exact shown hname
  have herror : one.compiled.startKind ≠ Kind.error := by
    rw [hroot]
    exact realizes.kind_ne hstart rfl
  cases trees with
  | finished alike together =>
    obtain ⟨lead, htrailing, htrailing'⟩ := h.trailing together
    rw [finish, finish, ← root, htrailing, htrailing', ← same, Element.splice_node hshown,
      Element.bareAll_singleton, Element.bare_node herror, Element.bare_node herror]
    simp only [Element.serial_spliceAll.append, Element.serial_bareAll.append, alike.leading,
      alike.leading', alike.elements, sorted.bareAll_leading,
      sorted.bareAll_splice_leading realizes]
  | abandoned =>
    have hkind : one.compiled.isKindOf name Kind.error = false :=
      realizes.isKindOf_of_isReserved name rfl
    rw [← root, Element.splice_node hshown, Element.spliceAll_singleton, Element.splice_node hkind,
      Element.bareAll_singleton, Element.bare_node herror, Element.bare_node herror,
      Element.bareAll_singleton, Element.bareAll_singleton, Element.bare_error, Element.bare_error]

end RecoveryScope.Lockstep

/-! ### Parsing -/

/-- Rules that are lowered are declared, and no terminals. -/
theorem Grammar.of_mem_ruleNames {grammar : Grammar} {name : String}
    (h : name ∈ grammar.ruleNames) :
    name ∉ grammar.tokenRules ∧ grammar.declares name = true := by
  obtain ⟨⟨other, body⟩, hmem, rfl⟩ := List.mem_map.mp h
  obtain ⟨hrule, hsyntactic⟩ := List.mem_filter.mp hmem
  exact ⟨by simpa using hsyntactic, List.lookup_isSome_iff.mpr ⟨_, hrule, beq_self_eq_true _⟩⟩

namespace Parser

/-- Parsing with a rule hidden gives the same errors, and the same tree once it is spliced. -/
theorem parse_hide {grammar : Grammar} {compiled : CompiledGrammar} {name : String}
    (done : grammar.compile = .ok compiled) (shown : grammar.start ≠ some name) {kinds : KindTable}
    (same : kinds.displays = compiled.kinds.displays) (options : ParserOptions)
    (text : List Char) :
    ((Parser.mk (compiled.hide name kinds) options).parse text).diagnostics =
        ((Parser.mk compiled options).parse text).diagnostics ∧
      ((Parser.mk (compiled.hide name kinds) options).parse text).tree.bare compiled =
        bareAll compiled
          (((Parser.mk compiled options).parse text).tree.splice (compiled.isKindOf name)) ∧
      ∀ arithmetic,
        ((Parser.mk (compiled.hide name kinds) options).parse? arithmetic text).isSome =
          ((Parser.mk compiled options).parse? arithmetic text).isSome := by
  have realizes := Grammar.realizes_compile done
  have sorted := Source.sorted_tokenize realizes text
  have htokens : (compiled.hide name kinds).tokenize text = compiled.tokenize text :=
    @CompiledGrammar.tokenize_eq_of_lexicon compiled (compiled.hide name kinds) rfl text
  have hroot : compiled.startKind = (compiled.hide name kinds).startKind := by
    have hprogram : (compiled.hide name kinds).program = compiled.program.hide name := rfl
    have hstart : (compiled.hide name kinds).start = compiled.start := rfl
    rw [CompiledGrammar.startKind, CompiledGrammar.startKind, hprogram, hstart,
      Program.getElem?_rules_hide, Option.map_map]
    cases compiled.program.rules[compiled.start]? with
    | none => rfl
    | some rule => exact (rule.kind_hide name).symm
  have lockstep : RecoveryScope.Lockstep
      (Fragment.Spliced compiled (compiled.isKindOf name))
      ((Parser.mk compiled options).scope text (compiled.tokenize text))
      ((Parser.mk (compiled.hide name kinds) options).scope text (compiled.tokenize text)) := {
    options := rfl
    sources := rfl
    grammars := compiled.alike_spliced realizes name kinds
    sync := rfl
    names := fun kind => (KindTable.display_eq same kind).symm
    tokens := fun counterparts => counterparts.spliced realizes sorted }
  obtain ⟨htree, herrors, hstrayed⟩ := lockstep.recover Memo.Alike.empty
  have hequal := List.forall₂_eq_eq_eq ▸ herrors.imp fun _ _ => lockstep.eq_of_reports rfl
  refine ⟨?_, ?_, fun arithmetic => ?_⟩
  · rw [parse, parse]
    simp only [parseWith, conclude, htokens]
    rw [hequal]
  · rw [parse, parse]
    simp only [parseWith, htokens]
    exact (@RecoveryScope.Lockstep.splice_eq ((Parser.mk compiled options).scope text _)
      ((Parser.mk (compiled.hide name kinds) options).scope text _) grammar name realizes lockstep
      sorted rfl shown hroot _ _ htree).symm
  · rw [parse?, parse?]
    simp only [htokens]
    exact (isSome_parseWith?_eq hstrayed).symm

end Parser

end Syntagm
