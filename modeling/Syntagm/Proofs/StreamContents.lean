import Syntagm.Proofs.Lossless
import Syntagm.Proofs.Sites

/-!
# What a stream consists of

Whatever repairs are laid over a source, in whatever order: the tokens of the source are all in the
stream that results, once and in their order, and between them there is a node for each insertion
that takes effect (`Source.faithful_stream`).

**Which insertions take effect.**  Going through the repairs, a place of the source is reached that
all later repairs have to respect: what is put in or left out in front of it is dropped, and what
comes behind the end of the input holds up everything after it (`Repair.applied`).

**The end.**  Only the last token of a stream is the end of the input, as long as neither the source
nor a repair has a token of that kind.
-/

namespace Syntagm

/-! ### Elements laid out flat -/

namespace Element

mutual

/-- The tokens of an element, in order.  A node for a token that the text lacks stays as it is. -/
def flat : Element → List Element
  | .token kind text => [.token kind text]
  | .node kind children => if kind = Kind.missing then [.node kind children] else flatOfAll children

/-- The tokens of the elements of a list. -/
def flatOfAll : List Element → List Element
  | [] => []
  | first :: rest => flat first ++ flatOfAll rest

end

theorem flatOfAll_eq_flatMap (elements : List Element) :
    flatOfAll elements = elements.flatMap flat := by
  induction elements with
  | nil => rfl
  | cons first rest ih => rw [flatOfAll, ih, List.flatMap_cons]

theorem gathers_flat {kind : Kind} (h : kind ≠ Kind.missing) : Gathers flat kind := by
  intro children
  rw [flat, if_neg h, flatOfAll_eq_flatMap]

/-- A token is its own layout. -/
theorem flat_of_isNode_eq_false {element : Element} (token : element.isNode = false) :
    element.flat = [element] := by
  cases element with
  | token => rw [flat]
  | node => cases token

@[simp] theorem flat_missingNode (kind : Kind) :
    (Source.missingNode kind).flat = [Source.missingNode kind] := by
  rw [Source.missingNode, flat, if_pos rfl]

/-- Tokens are their own layout. -/
theorem flatMap_flat_of_tokens {elements : List Element}
    (tokens : ∀ element ∈ elements, element.isNode = false) : elements.flatMap flat = elements := by
  induction elements with
  | nil => rfl
  | cons first rest ih =>
    obtain ⟨hfirst, hrest⟩ := List.forall_mem_cons.mp tokens
    rw [List.flatMap_cons, flat_of_isNode_eq_false hfirst, ih hrest, List.singleton_append]

/-- What a node holds of some sort its children hold. -/
theorem gathers_flat_filter {kind : Kind} (h : kind ≠ Kind.missing) (p : Element → Bool) :
    Gathers (fun element => element.flat.filter p) kind := by
  intro children
  show (flat _).filter p = _
  rw [gathers_flat h, List.filter_flatMap]

end Element

open Element (flat)

/-- What a token of a stream holds of some sort. -/
theorem StreamToken.filter_gather_flat (token : StreamToken) (p : Element → Bool) :
    (token.gather flat).filter p = token.gather fun element => element.flat.filter p := by
  rw [gather, List.filter_append, List.filter_flatMap, List.filter_flatMap]
  rfl

namespace Source

variable {source : Source} {allowed : Kind → Prop}

/-! ### The elements of a source -/

/-- **All elements of a source are tokens.** -/
def Level (source : Source) : Prop := ∀ element ∈ source.elements, element.isNode = false

theorem elements_ofTokens (text : List Char) (tokens : Tokens) :
    (ofTokens text tokens).elements =
      (tokens.list.zip (Tokens.cut text tokens.list)).map fun one => .token one.1.kind one.2 := by
  have hcollect := collect_elements [] (tokens.list.zip (Tokens.cut text tokens.list))
  rwa [List.nil_append] at hcollect

theorem level_ofTokens (text : List Char) (tokens : Tokens) : (ofTokens text tokens).Level := by
  intro element hmem
  rw [elements_ofTokens] at hmem
  obtain ⟨one, -, rfl⟩ := List.mem_map.mp hmem
  rfl

namespace Level

variable (level : source.Level)
include level

theorem isNode_place {token : SourceToken} (hmem : token ∈ source.tokens) :
    ∀ element ∈ place token, element.isNode = false := fun element helement =>
  level element (List.mem_append_left _
    (List.mem_flatMap.mpr ⟨token, Array.mem_toList_iff.mpr hmem, helement⟩))

theorem isNode_trivia (index : Nat) : ∀ element ∈ source.trivia index, element.isNode = false := by
  intro element hmem
  unfold trivia at hmem
  cases htoken : source.tokens[index]? with
  | none =>
    rw [htoken] at hmem
    exact level element (List.mem_append_right _ hmem)
  | some token =>
    rw [htoken] at hmem
    exact level.isNode_place (Array.mem_of_getElem? htoken) element (List.mem_append_left _ hmem)

/-- Only tokens are left out. -/
theorem isNode_errorNode (start count : Nat) :
    ∀ element ∈ (source.errorNode start count).children, element.isNode = false := by
  have hsub : ∀ token ∈ (source.tokens.toList.drop start).take count, token ∈ source.tokens :=
    fun token hmem => Array.mem_toList_iff.mp (List.mem_of_mem_drop (List.mem_of_mem_take hmem))
  unfold errorNode Element.children
  generalize (source.tokens.toList.drop start).take count = stretch at hsub
  cases stretch with
  | nil => exact List.forall_mem_nil _
  | cons first rest =>
    refine List.forall_mem_cons.mpr ⟨rfl, fun element hmem => ?_⟩
    obtain ⟨token, htoken, helement⟩ := List.mem_flatMap.mp hmem
    exact level.isNode_place (hsub token (List.mem_cons_of_mem _ htoken)) element helement

/-- In front of a token of a stream nothing is missing. -/
theorem isNode_flat_leading (lead : List Lead) :
    ∀ element ∈ (source.leading lead).flatMap flat, element.isNode = false := by
  induction lead with
  | nil => exact List.forall_mem_nil _
  | cons first rest ih =>
    rw [leading, List.flatMap_cons, List.flatMap_append]
    refine List.forall_mem_append.mpr ⟨?_, ih⟩
    cases first with
    | trivia index =>
      have htrivia := level.isNode_trivia index
      show ∀ element ∈ (source.trivia index).flatMap flat, _
      rwa [Element.flatMap_flat_of_tokens htrivia]
    | skipped start stop =>
      have hchildren := level.isNode_errorNode start (stop - start)
      have herror : (source.errorNode start (stop - start)).flat =
          (source.errorNode start (stop - start)).children := by
        rw [errorNode, Element.gathers_flat (by decide)]
        exact Element.flatMap_flat_of_tokens hchildren
      show ∀ element ∈ [source.errorNode start (stop - start)].flatMap flat, _
      rwa [List.flatMap_singleton, herror]

/-- **A token of a stream has a node for a missing token** if and only if it is put in. -/
theorem filter_isNode_flat {token : StreamToken} (holds : source.Holds token) :
    (token.gather flat).filter (·.isNode) =
      if token.isReal then [] else [missingNode token.kind] := by
  have hleading : (token.leading.flatMap flat).filter (·.isNode) = [] := by
    rw [holds.leading, List.filter_eq_nil_iff]
    exact fun element hmem => by simp [level.isNode_flat_leading token.lead element hmem]
  rw [StreamToken.gather, List.filter_append, hleading, List.nil_append, holds.element]
  split
  · unfold element?
    cases source.tokens[token.site]? with
    | none => rfl
    | some one => simp [SourceToken.element, flat, Element.isNode]
  · rw [Option.toList_some, List.flatMap_singleton, Element.flat_missingNode]
    rfl

end Level

/-- **The nodes for missing tokens in a stream** are those of the tokens that are put in. -/
theorem Lays.filter_isNode_flat (level : source.Level) {index : Nat} {pending : List Lead}
    {tokens : List StreamToken} (h : source.Lays allowed index pending tokens) :
    (tokens.flatMap (StreamToken.gather flat)).filter (·.isNode) =
      (tokens.filter (!·.isReal)).map (missingNode ·.kind) := by
  have holds := h.holds
  clear h
  induction tokens with
  | nil => rfl
  | cons token rest ih =>
    obtain ⟨htoken, hrest⟩ := List.forall_mem_cons.mp holds
    rw [List.flatMap_cons, List.filter_append, level.filter_isNode_flat htoken, ih hrest]
    cases hreal : token.isReal <;> simp [hreal]

/-- **The tokens in a stream** are those of the source. -/
theorem Lays.filter_isToken_flat (level : source.Level) {tokens : List StreamToken}
    (h : source.Lays allowed 0 [] tokens) :
    (tokens.flatMap (StreamToken.gather flat)).filter (!·.isNode) = source.elements := by
  have hunread (kind : Kind) : (missingNode kind).flat.filter (!·.isNode) = [] := by
    rw [Element.flat_missingNode]
    rfl
  have hgather := h.gather_eq (Element.gathers_flat_filter (by decide) (!·.isNode)) hunread
    (Nat.zero_le _)
  have hnothing : source.leading [] = [] := rfl
  rw [hnothing, List.flatMap_nil, List.nil_append, rest_zero, ← List.filter_flatMap,
    Element.flatMap_flat_of_tokens level,
    List.filter_eq_self.mpr fun element hmem => by simp [level element hmem]] at hgather
  rw [List.filter_flatMap, ← hgather]
  exact List.flatMap_congr fun token _ => token.filter_gather_flat (!·.isNode)

end Source

/-! ### Insertions that take effect -/

/-- **The insertions that take effect**, by place and kind, where the tokens in front of `index` are
done with.  A repair behind the end of the input is never reached, and neither are those after
it. -/
def Repair.applied (size index : Nat) : List Repair → List (Nat × Kind)
  | [] => []
  | .insert site kind :: rest =>
    if size < site then []
    else if site < index then applied size index rest
    else (site, kind) :: applied size site rest
  | .skip start stop :: rest =>
    if size < start then []
    else if start < index then applied size index rest
    else applied size (max start (min stop size)) rest

namespace Repair

theorem applied_of_lt {size index : Nat} (past : size < index) (repairs : List Repair) :
    applied size index repairs = [] := by
  induction repairs with
  | nil => rfl
  | cons repair rest ih =>
    cases repair with
    | insert site kind =>
      rw [applied, ih]
      split
      · rfl
      · rw [if_pos (by omega)]
    | skip start stop =>
      rw [applied, ih]
      split
      · rfl
      · rw [if_pos (by omega)]

/-- A token of the source in front of the next repair makes no difference. -/
theorem applied_succ {size index : Nat} {repair : Repair} (before : index < repair.site)
    (rest : List Repair) :
    applied size (index + 1) (repair :: rest) = applied size index (repair :: rest) := by
  cases repair with
  | insert site kind =>
    have hsite : index < site := before
    simp only [applied, if_neg (Nat.not_lt.mpr hsite), if_neg (Nat.lt_asymm hsite)]
  | skip start stop =>
    have hstart : index < start := before
    simp only [applied, if_neg (Nat.not_lt.mpr hstart), if_neg (Nat.lt_asymm hstart)]

/-- A repair that is left behind has no effect. -/
theorem applied_cons_of_lt {size index : Nat} {repair : Repair} (inside : index ≤ size)
    (behind : repair.site < index) (rest : List Repair) :
    applied size index (repair :: rest) = applied size index rest := by
  cases repair with
  | insert site kind =>
    have hsite : site < index := behind
    rw [applied, if_neg (by omega), if_pos hsite]
  | skip start stop =>
    have hstart : start < index := behind
    rw [applied, if_neg (by omega), if_pos hstart]

end Repair

namespace Source

variable {source : Source}

/-- **What is put in are the insertions that take effect**, each at its place. -/
theorem Walks.filter_eq_applied {index : Nat} {pending : List Lead} {repairs : List Repair}
    {tokens : List StreamToken} (h : source.Walks index pending repairs tokens) :
    (tokens.filter (!·.isReal)).map (fun token => (token.site, token.kind)) =
      Repair.applied source.size index repairs := by
  induction h with
  | stop outside => rw [Repair.applied_of_lt outside, List.filter_nil, List.map_nil]
  | @take index pending repairs rest _ early _ ih =>
    rw [List.filter_cons_of_neg (by simp [realToken]), ih]
    cases repairs with
    | nil => rfl
    | cons repair others => exact Repair.applied_succ (early repair rfl) others
  | drop le late _ ih => rw [ih, Repair.applied_cons_of_lt le late]
  | putIn le _ ih =>
    rw [List.filter_cons_of_pos (by simp [insertedToken]), List.map_cons, ih, Repair.applied,
      if_neg (Nat.not_lt.mpr le), if_neg (Nat.lt_irrefl _)]
    rfl
  | leaveOut lt inside _ ih =>
    rw [ih, Repair.applied, if_neg (Nat.lt_asymm inside), if_neg (Nat.lt_irrefl _),
      Nat.max_eq_right (by omega)]
  | leaveNothing le nothing _ ih =>
    rw [ih, Repair.applied, if_neg (Nat.not_lt.mpr le), if_neg (Nat.lt_irrefl _),
      Nat.max_eq_left (by omega)]

/-- **A stream is finite**: no repair makes it longer by more than one token. -/
theorem Walks.length_le {index : Nat} {pending : List Lead} {repairs : List Repair}
    {tokens : List StreamToken} (h : source.Walks index pending repairs tokens) :
    tokens.length ≤ source.size + 1 - index + repairs.length := by
  induction h with
  | stop => exact Nat.zero_le _
  | take le _ _ ih =>
    rw [List.length_cons]
    omega
  | drop | putIn | leaveOut | leaveNothing =>
    simp only [List.length_cons] at *
    omega

/-! ### Streams of texts -/

/-- **A stream is faithful to its source**, whatever repairs are laid over it and in whatever order.
It is finite.  Its last token, and no other one, is the end of the input, behind all tokens of the
source.  Sites never decrease.  Laid out flat, it holds the tokens of the text, each of them once
and in their order, and beside them one node for each insertion that takes effect.  Two tokens that
follow each other and that no repair has touched are tokens that follow each other in the source. -/
theorem faithful_stream (text : List Char) {tokens : Tokens}
    (kinds : ∀ token ∈ tokens.list, token.kind ≠ Kind.endOfInput) {repairs : List Repair}
    (inserted : ∀ repair ∈ repairs, repair.Inserts (· ≠ Kind.endOfInput)) :
    let source := ofTokens text tokens
    let stream := (source.stream repairs).toList
    let contents := stream.flatMap (StreamToken.gather flat)
    stream.length ≤ source.size + 1 + repairs.length ∧
      (∃ front last, stream = front ++ [last] ∧ last.kind = Kind.endOfInput ∧
        last.site = source.size ∧ last.element = none ∧
        ∀ token ∈ front, token.kind ≠ Kind.endOfInput) ∧
      stream.Pairwise (fun first second => first.site ≤ second.site) ∧
      contents.filter (!·.isNode) =
        (tokens.list.zip (Tokens.cut text tokens.list)).map
          (fun one => Element.token one.1.kind one.2) ∧
      contents.filter (·.isNode) =
        (Repair.applied source.size 0 repairs).map (fun one => missingNode one.2) ∧
      (stream.filter (!·.isReal)).map (fun token => (token.site, token.kind)) =
        Repair.applied source.size 0 repairs ∧
      stream.IsChain fun first second => first.isRepaired = false → second.isRepaired = false →
        second.site = first.site + 1 := by
  intro source stream contents
  have hwalks : source.Walks 0 [] repairs stream := walks_streamFrom 0 [] repairs
  have hlays : source.Lays (· ≠ Kind.endOfInput) 0 [] stream := lays_stream inserted
  have hlevel : source.Level := level_ofTokens text tokens
  have happlied : (stream.filter (!·.isReal)).map (fun token => (token.site, token.kind)) =
      Repair.applied source.size 0 repairs := hwalks.filter_eq_applied
  refine ⟨hwalks.length_le, ?_, hlays.sites, ?_, ?_, happlied,
    hlays.neighbours (.inl rfl)⟩
  · obtain ⟨front, waiting, heq, hfront⟩ := hlays.ends (Nat.zero_le _)
    refine ⟨front, _, heq, kind_size, rfl, ?_, fun token hmem => ?_⟩
    · simp [realToken, element?, size]
    · rcases hfront token hmem with hkind | ⟨place, hplace, hkind⟩
      · exact hkind
      · rw [hkind]
        exact (proper_ofTokens text kinds).kind_ne hplace
  · rw [← elements_ofTokens]
    exact hlays.filter_isToken_flat hlevel
  · rw [hlays.filter_isNode_flat hlevel, ← happlied, List.map_map]
    rfl

/-- Two words with a blank between them, and repairs out of order: of three insertions one comes too
late, and what is left out reaches behind the end of the input. -/
theorem faithful_stream_words :
    let tokens : Tokens :=
      ⟨[⟨⟨5⟩, ⟨0, 1⟩, .origin, false, none⟩, ⟨⟨6⟩, ⟨1, 2⟩, ⟨0, 1⟩, true, none⟩,
        ⟨⟨5⟩, ⟨2, 3⟩, ⟨0, 2⟩, false, none⟩], 3⟩
    let repairs : List Repair := [.insert 1 ⟨7⟩, .skip 1 9, .insert 0 ⟨7⟩, .insert 2 ⟨8⟩]
    let source := ofTokens ['a', ' ', 'b'] tokens
    let stream := (source.stream repairs).toList
    let contents := stream.flatMap (StreamToken.gather flat)
    (∀ token ∈ tokens.list, token.kind ≠ Kind.endOfInput) ∧
      (∀ repair ∈ repairs, repair.Inserts (· ≠ Kind.endOfInput)) ∧
      Repair.applied source.size 0 repairs = [(1, ⟨7⟩), (2, ⟨8⟩)] ∧
      contents.filter (!·.isNode) = [.token ⟨5⟩ ['a'], .token ⟨6⟩ [' '], .token ⟨5⟩ ['b']] ∧
      contents.filter (·.isNode) = [missingNode ⟨7⟩, missingNode ⟨8⟩] ∧
      stream.length ≤ 7 ∧ (∃ front last, stream = front ++ [last] ∧
        last.kind = Kind.endOfInput ∧ last.site = 2 ∧ last.element = none ∧
        ∀ token ∈ front, token.kind ≠ Kind.endOfInput) := by
  intro tokens repairs source stream contents
  have hkinds : ∀ token ∈ tokens.list, token.kind ≠ Kind.endOfInput := by decide
  have hinserted : ∀ repair ∈ repairs, repair.Inserts (· ≠ Kind.endOfInput) := by
    simp [repairs, Repair.Inserts, Kind.endOfInput]
  obtain ⟨hlength, hend, -, htokens, hnodes, -⟩ :=
    faithful_stream ['a', ' ', 'b'] hkinds hinserted
  exact ⟨hkinds, hinserted, rfl, htokens, hnodes, hlength, hend⟩

end Source

end Syntagm
