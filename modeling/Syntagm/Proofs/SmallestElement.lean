import Syntagm.Proofs.Lossless
import Syntagm.Tree.Query

/-!
# The smallest element at an offset

The search for the element at an offset goes from the root to a child that is there, and on to a
child of that one.  It looks at one child only on each level, and still no element of the tree that
is at the offset is shorter than the one it ends at (`Element.smallest_deepestAt`): of the children
at an offset at most the last one has bytes, and if one without bytes stands in front of it, nothing
is shorter than that one.

There is one exception.  An element without bytes may stand at the very end of an element that has
some (`Element.Hidden`).  That one ends in front of the offset, so the search does not enter it, and
the element at its end is passed over (`Parser.at?_parse_branch`).
-/

namespace Syntagm.Element

variable {offset : Nat}

/-! ### Being at an offset -/

/-- An element is at an offset if it holds the byte there, or has no bytes and stands there. -/
theorem isAt_iff {start : Nat} {element : Element} :
    isAt offset start element = true ↔
      start ≤ offset ∧ offset < start + element.length ∨
        element.length = 0 ∧ start = offset := by
  have hcontains : (Text.Range.ofLength start element.length).contains offset = true ↔
      start ≤ offset ∧ offset < start + element.length := decide_eq_true_iff
  have hempty : (Text.Range.ofLength start element.length).isEmpty = true ↔ element.length = 0 := by
    simp [Text.Range.isEmpty, Text.Range.ofLength]
  simp only [isAt, Bool.or_eq_true, Bool.and_eq_true, hcontains, hempty, beq_iff_eq]

mutual

/-- What is in an element takes bytes of it only. -/
theorem within_outlineFrom (depth start : Nat) : ∀ element : Element,
    ∀ placed ∈ outlineFrom depth start element, start ≤ placed.start ∧
      placed.start + placed.element.length ≤ start + element.length
  | .token kind text, placed, hmem => by
    rw [outlineFrom, List.mem_singleton] at hmem
    subst hmem
    exact ⟨Nat.le_refl _, Nat.le_refl _⟩
  | .node kind children, placed, hmem => by
    rw [outlineFrom, List.mem_cons] at hmem
    rcases hmem with rfl | hmem
    · exact ⟨Nat.le_refl _, Nat.le_refl _⟩
    · exact within_outlineOfAll (depth + 1) start children placed hmem

/-- What is in the elements of a list takes bytes of them only. -/
theorem within_outlineOfAll (depth start : Nat) : ∀ elements : List Element,
    ∀ placed ∈ outlineOfAll depth start elements, start ≤ placed.start ∧
      placed.start + placed.element.length ≤ start + lengthOfAll elements
  | [], placed, hmem => by cases hmem
  | first :: rest, placed, hmem => by
    rw [outlineOfAll, List.mem_append] at hmem
    rw [lengthOfAll]
    rcases hmem with hmem | hmem
    · have hfirst := within_outlineFrom depth start first placed hmem
      omega
    · have hrest := within_outlineOfAll depth (start + first.length) rest placed hmem
      omega

end

/-! ### What is hidden -/

/-- **An element that is hidden at an offset**: it has no bytes, and it is inside an element that
has some and ends at the offset. -/
structure Hidden (offset : Nat) (outline : List Placed) (placed : Placed) : Prop where
  empty : placed.element.length = 0
  within : ∃ outer ∈ outline, 0 < outer.element.length ∧ outer.range.stop = offset ∧
    placed ∈ outlineFrom outer.depth outer.start outer.element

theorem Hidden.mono {few many : List Placed} (subset : few ⊆ many) {placed : Placed}
    (hidden : Hidden offset few placed) : Hidden offset many placed :=
  have ⟨outer, hmem, hrest⟩ := hidden.within
  ⟨hidden.empty, outer, subset hmem, hrest⟩

/-- In an element that is not at an offset, only what is hidden is at it. -/
theorem hidden_of_not_isAt {depth start : Nat} {element : Element}
    (away : isAt offset start element = false) {placed : Placed}
    (hmem : placed ∈ outlineFrom depth start element)
    (there : isAt offset placed.start placed.element = true) :
    Hidden offset (outlineFrom depth start element) placed := by
  have hwithin := within_outlineFrom depth start element placed hmem
  have haway := mt isAt_iff.mpr (Bool.eq_false_iff.mp away)
  rw [isAt_iff] at there
  -- the offset can only be the one that the element ends at
  refine ⟨by omega, ⟨depth, start, element⟩, ?_, ?_, ?_, hmem⟩
  · cases element <;> exact List.mem_cons_self
  · show 0 < element.length
    omega
  · show start + element.length = offset
    omega

/-! ### The shortest -/

/-- No element of a list is at an offset and shorter than a length, apart from the hidden ones. -/
def NoneShorter (offset : Nat) (outline : List Placed) (length : Nat) : Prop :=
  ∀ placed ∈ outline, isAt offset placed.start placed.element = true →
    length ≤ placed.element.length ∨ Hidden offset outline placed

namespace NoneShorter

variable {front back : List Placed} {length : Nat}

theorem append (hfront : NoneShorter offset front length)
    (hback : NoneShorter offset back length) : NoneShorter offset (front ++ back) length := by
  intro placed hmem there
  rcases List.mem_append.mp hmem with hmem | hmem
  · exact (hfront placed hmem there).imp_right (.mono (List.subset_append_left _ _))
  · exact (hback placed hmem there).imp_right (.mono (List.subset_append_right _ _))

/-- Nothing is shorter than what has no bytes. -/
theorem of_empty (outline : List Placed) (empty : length = 0) :
    NoneShorter offset outline length :=
  fun _ _ _ => .inl (empty ▸ Nat.zero_le _)

/-- An element that is not at the offset. -/
theorem of_not_isAt {depth start : Nat} {element : Element}
    (away : isAt offset start element = false) (length : Nat) :
    NoneShorter offset (outlineFrom depth start element) length :=
  fun _ hmem there => .inr (hidden_of_not_isAt away hmem there)

end NoneShorter

/-- **The smallest element at an offset**: it is one of the elements and at the offset, and none of
the others there is shorter, apart from the hidden ones. -/
structure Smallest (offset : Nat) (outline : List Placed) (found : Located) : Prop where
  mem : ∃ placed ∈ outline, placed.start = found.1 ∧ placed.element = found.2
  isAt : isAt offset found.1 found.2 = true
  noneShorter : NoneShorter offset outline found.2.length

/-- What a search among elements comes to: nothing but what is hidden is at the offset, or the
smallest element is found, in an element that is at least as long. -/
def Searched (offset : Nat) (outline : List Placed) : Option (Nat × Located) → Prop
  | none => ∀ length, NoneShorter offset outline length
  | some (length, found) => Smallest offset outline found ∧ found.2.length ≤ length

namespace Smallest

variable {outline front back : List Placed} {found : Located}

theorem append_left (smallest : Smallest offset front found)
    (hback : NoneShorter offset back found.2.length) : Smallest offset (front ++ back) found :=
  have ⟨placed, hmem, hplaced⟩ := smallest.mem
  ⟨⟨placed, List.mem_append_left _ hmem, hplaced⟩, smallest.isAt,
    smallest.noneShorter.append hback⟩

theorem append_right (hfront : NoneShorter offset front found.2.length)
    (smallest : Smallest offset back found) : Smallest offset (front ++ back) found :=
  have ⟨placed, hmem, hplaced⟩ := smallest.mem
  ⟨⟨placed, List.mem_append_right _ hmem, hplaced⟩, smallest.isAt,
    hfront.append smallest.noneShorter⟩

/-- The smallest element in a list of elements is no longer than all of them together. -/
theorem length_le {depth start : Nat} {elements : List Element}
    (smallest : Smallest offset (outlineOfAll depth start elements) found) :
    found.2.length ≤ lengthOfAll elements := by
  obtain ⟨placed, hmem, hstart, helement⟩ := smallest.mem
  have hwithin := within_outlineOfAll depth start elements placed hmem
  rw [helement] at hwithin
  omega

/-- An element at an offset has no bytes if one behind it is at the offset, too. -/
theorem empty_of_later {depth start : Nat} {first : Element} {rest : List Element}
    (there : Element.isAt offset start first = true)
    (later : Smallest offset (outlineOfAll depth (start + first.length) rest) found) :
    first.length = 0 := by
  obtain ⟨placed, hmem, hstart, -⟩ := later.mem
  have hwithin := within_outlineOfAll depth (start + first.length) rest placed hmem
  have hlater := isAt_iff.mp later.isAt
  rw [isAt_iff] at there
  omega

end Smallest

/-! ### The search -/

mutual

/-- **The search finds the smallest element** in an element that is at the offset. -/
theorem smallest_deepestAt (depth start : Nat) : ∀ element : Element,
    isAt offset start element = true →
      Smallest offset (outlineFrom depth start element) (deepestAt offset start element) ∧
        (deepestAt offset start element).2.length ≤ element.length
  | .token kind text, there => by
    refine ⟨⟨⟨_, List.mem_cons_self, rfl, rfl⟩, there, ?_⟩, Nat.le_refl _⟩
    intro placed hmem _
    rw [outlineFrom, List.mem_singleton] at hmem
    subst hmem
    exact .inl (Nat.le_refl _)
  | .node kind children, there => by
    have hsearched := searched_deepestAmong (depth + 1) start children
    rw [deepestAt, outlineFrom]
    have hself : ∀ length, length ≤ (Element.node kind children).length →
        NoneShorter offset [⟨depth, start, .node kind children⟩] length := by
      intro length hle placed hmem _
      rw [List.mem_singleton.mp hmem]
      exact .inl hle
    cases hamong : deepestAmong offset start children with
    | none =>
      rw [hamong] at hsearched
      refine ⟨⟨⟨_, List.mem_cons_self, rfl, rfl⟩, there, ?_⟩, Nat.le_refl _⟩
      exact (hself _ (Nat.le_refl _)).append (hsearched _)
    | some among =>
      rw [hamong] at hsearched
      have hle := hsearched.1.length_le
      exact ⟨.append_right (hself _ hle) hsearched.1, hle⟩

/-- The search among elements, one child after the other. -/
theorem searched_deepestAmong (depth start : Nat) : ∀ elements : List Element,
    Searched offset (outlineOfAll depth start elements) (deepestAmong offset start elements)
  | [] => fun _ _ hmem => by cases hmem
  | first :: rest => by
    have hrest := searched_deepestAmong depth (start + first.length) rest
    rw [outlineOfAll, deepestAmong]
    cases there : isAt offset start first with
    | false =>
      rw [if_neg Bool.false_ne_true]
      cases hlater : deepestAmong offset (start + first.length) rest with
      | none =>
        rw [hlater] at hrest
        exact fun length => (NoneShorter.of_not_isAt there length).append (hrest length)
      | some later =>
        rw [hlater] at hrest
        exact ⟨.append_right (.of_not_isAt there _) hrest.1, hrest.2⟩
    | true =>
      have hfirst := smallest_deepestAt depth start first there
      rw [if_pos rfl]
      cases hlater : deepestAmong offset (start + first.length) rest with
      | none =>
        rw [hlater] at hrest
        exact ⟨hfirst.1.append_left (hrest _), hfirst.2⟩
      | some later =>
        rw [hlater] at hrest
        -- both have no bytes, and either of them is the smallest
        have hempty := hrest.1.empty_of_later there
        dsimp only
        split
        · rename_i hle
          have hnone : later.2.2.length = 0 := Nat.le_zero.mp (by
            have := hrest.2
            omega)
          exact ⟨.append_right (.of_empty _ hnone) hrest.1, hrest.2⟩
        · exact ⟨hfirst.1.append_left (.of_empty _ (by omega)), hfirst.2⟩

end

/-- At the end of a tree the search finds the root, or an element without bytes. -/
theorem deepestAt_end (start : Nat) (root : Element) :
    let found := deepestAt (start + root.length) start root
    found = (start, root) ∨ found.1 = start + root.length ∧ found.2.length = 0 := by
  intro found
  cases root with
  | token kind text => exact .inl rfl
  | node kind children =>
    have hsearched := @searched_deepestAmong (start + (Element.node kind children).length) 0
      start children
    cases hamong : deepestAmong (start + (Element.node kind children).length) start children with
    | none =>
      refine .inl ?_
      show deepestAt _ start (.node kind children) = _
      rw [deepestAt, hamong]
    | some among =>
      rw [hamong] at hsearched
      have hfound : found = among.2 := by
        show deepestAt _ start (.node kind children) = _
        rw [deepestAt, hamong]
      obtain ⟨placed, hmem, hstart, helement⟩ := hsearched.1.mem
      have hwithin := within_outlineOfAll 0 start children placed hmem
      have hlength : (Element.node kind children).length = lengthOfAll children := rfl
      have hat := isAt_iff.mp hsearched.1.isAt
      rw [helement, hstart] at hwithin
      rw [hfound]
      exact .inr (by omega)

end Syntagm.Element

/-! ### The element at an offset of a text -/

namespace Syntagm

namespace Element

/-- **The element at an offset of a tree** is the smallest one there.  At the end of the tree it is
the root, or an element without bytes; behind the end there is none. -/
theorem at?_spec (root : Element) (offset : Nat) :
    (offset < root.length →
      ∃ found, root.at? offset = some found ∧ Smallest offset root.outline found) ∧
    (offset = root.length → ∃ found, root.at? offset = some found ∧
      (found = (0, root) ∨ found.1 = offset ∧ found.2.length = 0)) ∧
    (root.length < offset → root.at? offset = none) := by
  refine ⟨fun inside => ?_, fun atEnd => ?_, fun beyond => ?_⟩
  · have there : isAt offset 0 root = true := isAt_iff.mpr (by omega)
    refine ⟨deepestAt offset 0 root, ?_, (smallest_deepestAt 0 0 root there).1⟩
    rw [at?, there, Bool.true_or, if_pos rfl]
  · subst atEnd
    refine ⟨deepestAt root.length 0 root, ?_, ?_⟩
    · rw [at?, beq_self_eq_true, Bool.or_true, if_pos rfl]
    · have hend := deepestAt_end 0 root
      rwa [Nat.zero_add] at hend
  · have away : isAt offset 0 root = false :=
      Bool.eq_false_iff.mpr fun there => by
        have := isAt_iff.mp there
        omega
    rw [at?, away, Bool.false_or, if_neg (by simp; omega)]

end Element

namespace Parser

variable {parser : Parser} {grammar : Grammar}

/-- **The element at an offset of a text.**  In front of the end it is there, and no element of the
tree is there and shorter, unless that one has no bytes and stands at the end of an element that
has some.  At the end of the text it is the root, or an element without bytes. -/
theorem smallest_parse (done : grammar.compile = .ok parser.compiled) (text : List Char)
    (offset : Nat) :
    let tree := (parser.parse text).tree
    (offset < Text.byteLength text →
      ∃ found, tree.at? offset = some found ∧ Element.Smallest offset tree.outline found) ∧
    (offset = Text.byteLength text → ∃ found, tree.at? offset = some found ∧
      (found = (0, tree) ∨ found.1 = offset ∧ found.2.length = 0)) ∧
    (Text.byteLength text < offset → tree.at? offset = none) := by
  intro tree
  have realizes := Grammar.realizes_compile done
  have htext : tree.text = text := (yield_of_covers realizes (kind_ne_of_tokenize realizes text)
    (parser.compiled.covers_tokenize text) Memo.valid_empty).1
  have hlength : tree.length = Text.byteLength text := by rw [Element.length_eq, htext]
  rw [← hlength]
  exact Element.at?_spec tree offset

/-- The element in front of a text in which a token is missing there. -/
theorem smallest_parse_pair :
    let tree := ((ofCompiled .pair).parse ['b']).tree
    Grammar.pair.compile = .ok (ofCompiled .pair).compiled ∧ 0 < Text.byteLength ['b'] ∧
      ∃ found, tree.at? 0 = some found ∧ Element.Smallest 0 tree.outline found :=
  have inside : 0 < Text.byteLength ['b'] := by decide
  ⟨Grammar.compile_pair, inside,
    (@smallest_parse (ofCompiled .pair) .pair Grammar.compile_pair ['b'] 0).1 inside⟩

end Parser

/-! ### An element that is passed over -/

/-- A grammar for two tokens and more that follow: each of them is behind a node of all that is in
front of it. -/
def Grammar.branch : Grammar :=
  { Grammar.empty "branch" with
    rules := [("s", .choice [
      .seq [.reference "s", .literal "c"],
      .seq [.literal "a", .literal "b"]])]
    start := some "s" }

/-- What it is compiled to. -/
def CompiledGrammar.branch : CompiledGrammar := Grammar.branch.compile.toOption.getD default

theorem Grammar.compile_branch : Grammar.branch.compile = .ok CompiledGrammar.branch :=
  Grammar.compile_eq_getD (by with_unfolding_all decide)

namespace Parser

/-- A token is missing at the end of a node with text. -/
theorem parse_branch : ((ofCompiled .branch).parse ['a', 'c']).tree =
    .node ⟨8⟩ [
      .node ⟨8⟩ [.token ⟨6⟩ ['a'], .node Kind.missing [.token ⟨7⟩ []]],
      .token ⟨5⟩ ['c']] := by
  with_unfolding_all decide

/-- **A missing token may be passed over.**  It stands at the offset, in front of the token that
follows it, but the search finds that token. -/
theorem at?_parse_branch :
    let tree := ((ofCompiled .branch).parse ['a', 'c']).tree
    Grammar.branch.compile = .ok .branch ∧ 1 < Text.byteLength ['a', 'c'] ∧
      tree.at? 1 = some (1, .token ⟨5⟩ ['c']) ∧
      ∃ placed ∈ tree.outline, placed.element.kind = Kind.missing ∧
        Element.isAt 1 placed.start placed.element = true ∧
        placed.element.length < (Element.token ⟨5⟩ ['c']).length := by
  intro tree
  have htree : tree = _ := parse_branch
  rw [htree]
  refine ⟨Grammar.compile_branch, by decide, by rfl, ?_⟩
  exact ⟨⟨2, 1, .node Kind.missing [.token ⟨7⟩ []]⟩, .tail _ (.tail _ (.tail _ (.head _))), rfl,
    by decide, by decide⟩

end Parser

end Syntagm
