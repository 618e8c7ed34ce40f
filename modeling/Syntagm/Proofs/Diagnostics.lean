import Syntagm.Proofs.Advance
import Syntagm.Proofs.Derivation
import Syntagm.Tree.Query

/-!
# What is reported shows in the tree

A parse reports something if and only if something is wrong with a token or the tree has a node
that marks an error.  One direction is about what a session leaves behind, the other one about
what it may not leave out:

* a session that reports nothing ends with the stream without repairs, whose tokens mark nothing;
* a session that succeeds with a report cannot end with that stream, as its first run on it failed
  and runs with the same repairs give the same.  So the stream that it ends with has a repair, and
  every repair of a stream shows in a tree that is made of the whole stream
  (`RecoveryScope.gather_finish`), whatever repairs were dropped on the way;
* a session that gives up reports an error, and puts the whole text into an error node.

**Places.**  An error is reported at the place of a token, or of the end of the input; a faulty
token is reported where it is opened.  Both lie in the text.
-/

namespace Syntagm

/-! ### Nodes that mark errors -/

namespace Element

mutual

/-- The elements in an element do not depend on where it stands. -/
theorem elements_outlineFrom (depth start : Nat) : ∀ element : Element,
    (outlineFrom depth start element).map (·.element) = element.outline.map (·.element)
  | .token .. => rfl
  | .node _ children => by
    simp only [outline, outlineFrom, List.map_cons, elements_outlineOfAll _ _ children]

theorem elements_outlineOfAll (depth start : Nat) : ∀ elements : List Element,
    (outlineOfAll depth start elements).map (·.element) =
      elements.flatMap fun element => element.outline.map (·.element)
  | [] => rfl
  | first :: rest => by
    rw [outlineOfAll, List.map_append, elements_outlineFrom _ _ first,
      elements_outlineOfAll _ _ rest, List.flatMap_cons]

end

/-- Whether an element is a node that marks an error. -/
def isMark (element : Element) : Bool :=
  element.isNode && (element.kind == Kind.error || element.kind == Kind.missing)

/-- The nodes in an element that mark errors, without their places. -/
def marks (element : Element) : List Element := element.errorNodes.map (·.element)

theorem marks_eq_nil_iff {element : Element} : element.marks = [] ↔ element.errorNodes = [] :=
  List.map_eq_nil_iff

theorem marks_eq_filter (element : Element) :
    element.marks = (element.outline.map (·.element)).filter isMark := by
  rw [List.filter_map]
  rfl

theorem marks_node (kind : Kind) (children : List Element) :
    (Element.node kind children).marks =
      [Element.node kind children].filter isMark ++ children.flatMap marks := by
  have hchildren : children.flatMap marks =
      ((outlineOfAll 1 0 children).map (·.element)).filter isMark := by
    rw [elements_outlineOfAll, List.filter_flatMap]
    exact List.flatMap_congr fun child _ => marks_eq_filter child
  rw [marks_eq_filter, hchildren, ← List.filter_append]
  rfl

/-- A node that marks no error marks what its children mark. -/
theorem gathers_marks {kind : Kind} (plain : kind.isReserved = false) : Gathers marks kind := by
  intro children
  have hne : ∀ other : Kind, other.isReserved = true → kind ≠ other := by
    rintro _ hreserved rfl
    rw [hreserved] at plain
    cases plain
  rw [marks_node, List.filter_cons_of_neg (by simp [isMark, Element.kind, hne Kind.error rfl,
    hne Kind.missing rfl]), List.filter_nil, List.nil_append]

theorem marks_of_not_isNode {element : Element} (h : element.isNode = false) :
    element.marks = [] := by
  cases element with
  | token => rfl
  | node => cases h

theorem marks_node_ne_nil {kind : Kind} (mark : kind = Kind.error ∨ kind = Kind.missing)
    (children : List Element) : (Element.node kind children).marks ≠ [] := by
  rw [marks_node, List.filter_cons_of_pos]
  · exact List.cons_ne_nil _ _
  · rcases mark with rfl | rfl <;> rfl

end Element

open Element (marks)

namespace Source

variable {source : Source} {compiled : CompiledGrammar} {allowed : Kind → Prop}

/-- A token of the source without repairs marks nothing. -/
theorem marks_realToken (sorted : source.Sorted compiled) (index : Nat) :
    (source.realToken index []).gather marks = [] := by
  have htrivia : ∀ element ∈ source.trivia index, element.marks = [] := fun element hmem =>
    Element.marks_of_not_isNode (Sorted.isNode_eq_false (sorted.trivia_at index element hmem))
  have helement : ∀ element ∈ (source.element? index).toList, element.marks = [] := by
    intro element hmem
    obtain ⟨token, -, rfl⟩ := Option.map_eq_some_iff.mp (Option.mem_toList.mp hmem)
    exact Element.marks_of_not_isNode rfl
  simp only [StreamToken.gather, realToken, leading, List.nil_append, List.flatMap_singleton]
  rw [List.flatMap_eq_nil_iff.mpr htrivia, List.flatMap_eq_nil_iff.mpr helement]
  rfl

/-- **What a repair has touched is marked.** -/
theorem Holds.marks_ne_nil {token : StreamToken} (h : source.Holds token)
    (repaired : token.isRepaired = true) : token.gather marks ≠ [] := by
  intro hnil
  obtain ⟨hleading, helement⟩ := List.append_eq_nil_iff.mp hnil
  rw [h.leading] at hleading
  rw [h.element] at helement
  rw [StreamToken.isRepaired_eq, Bool.or_eq_true, Bool.not_eq_true'] at repaired
  rcases repaired with hinserted | hskipped
  · rw [if_neg (by simp [hinserted])] at helement
    have hmem : missingNode token.kind ∈ (some (missingNode token.kind)).toList :=
      List.mem_singleton_self _
    exact Element.marks_node_ne_nil (.inr rfl) _ (List.flatMap_eq_nil_iff.mp helement _ hmem)
  · obtain ⟨lead, hlead, hrepair⟩ := List.any_eq_true.mp hskipped
    cases lead with
    | trivia index => cases hrepair
    | skipped start stop =>
      have hmem : source.errorNode start (stop - start) ∈ source.leading token.lead :=
        List.mem_flatMap.mpr ⟨_, hlead, List.mem_singleton_self _⟩
      exact Element.marks_node_ne_nil (.inl rfl) _ (List.flatMap_eq_nil_iff.mp hleading _ hmem)

/-- **A stream that no repair has touched** is the one without repairs. -/
theorem Lays.eq_streamFrom {index : Nat} {pending : List Lead} {tokens : List StreamToken}
    (h : source.Lays allowed index pending tokens)
    (plain : ∀ token ∈ tokens, token.isRepaired = false) :
    tokens = source.streamFrom index pending [] := by
  induction h with
  | stop => rw [streamFrom, if_pos (Nat.lt_succ_self _)]
  | take le _ ih =>
    rw [streamFrom, if_neg (Nat.not_lt.mpr le)]
    exact congrArg _ (ih (List.forall_mem_cons.mp plain).2)
  | putIn => cases (List.forall_mem_cons.mp plain).1
  | leaveOut lt le tail =>
    -- what is left out waits for the next token, which then is not a plain one
    obtain ⟨front, waiting, heq, -⟩ := tail.ends le
    obtain ⟨token, htoken⟩ : ∃ token, token ∈ _ := ⟨_, heq ▸ List.mem_concat_self⟩
    obtain ⟨first, others, rfl⟩ := List.exists_cons_of_ne_nil (List.ne_nil_of_mem htoken)
    obtain ⟨hnil, -⟩ := tail.head_plain (.leaveOut ..) rfl (plain first List.mem_cons_self)
    simp at hnil

/-- **A stream marks nothing if and only if it is the one without repairs.** -/
theorem marks_stream_eq_nil_iff (sorted : source.Sorted compiled) (repairs : List Repair) :
    (source.stream repairs).toList.flatMap (StreamToken.gather marks) = [] ↔
      source.stream repairs = source.stream [] := by
  have hlays := lays_stream_any source repairs
  rw [List.flatMap_eq_nil_iff]
  constructor
  · intro hnone
    have hplain : ∀ token ∈ (source.stream repairs).toList, token.isRepaired = false := by
      intro token hmem
      by_contra hrepaired
      exact (hlays.holds token hmem).marks_ne_nil (Bool.not_eq_false _ ▸ hrepaired)
        (hnone token hmem)
    exact Array.toList_inj.mp (hlays.eq_streamFrom hplain)
  · intro heq token hmem
    rw [heq, stream, streamFrom_nil 0 (Nat.zero_le _)] at hmem
    obtain ⟨index, -, rfl⟩ := List.mem_map.mp hmem
    exact marks_realToken sorted index

end Source

/-! ### Sessions -/

namespace RecoveryScope

variable {scope : RecoveryScope} {grammar : Grammar} {seed : Memo}

theorem keeps_logged (realizes : scope.compiled.Realizes grammar) :
    scope.Keeps scope.Sound fun outcome state =>
      scope.Ran outcome state ∧ outcome ∈ state.outcomes where
  count _ trials sound := sound.count trials
  straying _ _ sound := sound.straying true
  run repairs _ _ sound := sound.run repairs
  gives repairs state fits sound :=
    ⟨(keeps_sound realizes).gives repairs state fits sound, List.mem_cons_self⟩

/-- The first run stays in the log. -/
theorem first_logged (realizes : scope.compiled.Realizes grammar) (seed : Memo)
    (budget : 0 < scope.options.maxTrials) :
    (scope.run [] ⟨scope.source.stream [], seed, 1, [], false⟩).1 ∈
      (scope.recover seed).outcomes := by
  have hfirst : scope.first? seed =
      some ⟨[], [], (scope.run [] ⟨scope.source.stream [], seed, 1, [], false⟩).1,
        (scope.run [] ⟨scope.source.stream [], seed, 1, [], false⟩).2⟩ := by
    simp only [first?, trial?, if_pos budget, Nat.zero_add, Option.map_some]
  rw [recover_of_first? hfirst]
  exact (outcomes_searchFrom realizes _ _).subset List.mem_cons_self

/-- A tree that succeeds marks what its stream marks. -/
theorem marks_finish_eq_nil_iff (realizes : scope.compiled.Realizes grammar)
    (sorted : scope.source.Sorted scope.compiled) {fragment : Fragment} {state : RecoveryState}
    (matched : scope.Matched fragment state.tokens) :
    (scope.finish fragment state).marks = [] ↔ state.tokens = scope.source.stream [] := by
  obtain ⟨repairs, -, htokens⟩ := matched.repairs
  have hgather := @gather_finish _ marks scope fragment state
    (fun _ _ lookup => Element.gathers_marks (realizes.not_reserved lookup)) matched
  rw [hgather, htokens]
  exact Source.marks_stream_eq_nil_iff sorted repairs

theorem marks_abandon_ne_nil (errors : List Diagnostic) (current : Option (Nat × Outcome))
    (state : RecoveryState) : (scope.abandon errors current state).tree.marks ≠ [] := by
  intro hnil
  simp only [abandon, Element.marks_node] at hnil
  have hchild := List.flatMap_eq_nil_iff.mp (List.append_eq_nil_iff.mp hnil).2
  exact Element.marks_node_ne_nil (.inl rfl) _ (hchild _ (List.mem_singleton_self _))

/-- **A session reports something if and only if its tree marks an error**, unless a run is cut. -/
theorem errors_recover_eq_nil_iff_marks (realizes : scope.compiled.Realizes grammar)
    (proper : scope.source.Proper) (sorted : scope.source.Sorted scope.compiled)
    (right : seed.Valid scope.compiled (scope.source.stream []))
    (calm : ∀ outcome ∈ (scope.recover seed).outcomes, outcome.overflow = none) :
    (scope.recover seed).errors = [] ↔ (scope.recover seed).tree.marks = [] := by
  have hsettled := (keeps_logged realizes).recover seed (sound_start right)
  by_cases budget : 0 < scope.options.maxTrials
  · have hlogged := calm _ (first_logged realizes seed budget)
    have hfirst := runsTo_run realizes [] ((sound_start right).count 1)
    rw [errors_recover_eq_nil_iff seed budget]
    constructor
    · intro hsuccess
      obtain ⟨fragment, hfragment⟩ := Option.isSome_iff_exists.mp hsuccess
      have hran := (keeps_sound realizes).gives [] _ .nil ((sound_start right).count 1)
      rw [recover_of_success seed budget hfragment]
      exact (marks_finish_eq_nil_iff realizes sorted
        (hran.matched realizes proper hfragment)).mpr rfl
    · intro hmarks
      generalize scope.recover seed = recovered at hsettled hmarks calm
      cases hsettled with
      | abandoned => exact absurd hmarks (marks_abandon_ne_nil _ _ _)
      | @success outcome _ _ state _ gives hfragment =>
        obtain ⟨hran, hmem⟩ := gives
        -- the run behind the tree had the stream of the first run, so it gave the same
        have htokens := (marks_finish_eq_nil_iff realizes sorted
          (hran.matched realizes proper hfragment)).mp hmarks
        obtain ⟨rule, result, seen, hrule, hevaluates, houtcome⟩ := hran.evaluates
        rw [htokens] at hevaluates houtcome
        have hsame := hfirst.unique ⟨rule, result, seen, hrule, hevaluates, houtcome⟩ hlogged
          (calm outcome hmem)
        show (scope.run [] ⟨scope.source.stream [], seed, 1, [], false⟩).1.fragment.isSome = true
        rw [hsame, hfragment]
        rfl
  · -- without a run there is nothing but to give up
    have habandon : scope.recover seed =
        scope.abandon [] none ⟨scope.source.stream [], seed, 0, [], false⟩ := by
      simp only [recover, trial?, if_neg budget]
    rw [habandon]
    exact iff_of_false (List.cons_ne_nil _ _) (marks_abandon_ne_nil _ _ _)

/-! ### Where errors are reported -/

/-- An error that is reported at a significant token or the end of the input, or for the text as
a whole at its start. -/
def ReportedAt (scope : RecoveryScope) (error : Diagnostic) : Prop :=
  (∃ site, error.range = scope.source.range site) ∨ error.range = Text.Range.empty 0

variable {errors : List Diagnostic} {state : RecoveryState}

theorem reportedAt_report (site : Nat) (outcome : Outcome) (recovery : Option Recovery) :
    scope.ReportedAt (scope.report site outcome recovery) :=
  .inl ⟨site, rfl⟩

theorem reportedAt_abandon (reported : ∀ error ∈ errors, scope.ReportedAt error)
    (current : Option (Nat × Outcome)) :
    ∀ error ∈ (scope.abandon errors current state).errors, scope.ReportedAt error := by
  refine List.forall_mem_singleton.mpr ?_
  split
  · exact (List.forall_mem_cons.mp reported).1
  · rename_i site outcome
    exact reportedAt_report site outcome none
  · exact .inr rfl

theorem reportedAt_truncate (reported : ∀ error ∈ errors, scope.ReportedAt error)
    (repairs : List Repair) (site : Nat) (failed : Outcome) :
    ∀ error ∈ (scope.truncate repairs errors site failed state).errors,
      scope.ReportedAt error := by
  simp only [truncate]
  split
  · exact reportedAt_abandon reported _
  · exact List.forall_mem_append.mpr
      ⟨reported, List.forall_mem_singleton.mpr (reportedAt_report site failed _)⟩

theorem reportedAt_search (reported : ∀ error ∈ errors, scope.ReportedAt error)
    (repairs : List Repair) (outcome : Outcome) (count : Nat) :
    ∀ error ∈ (scope.search repairs errors outcome state count).errors,
      scope.ReportedAt error := by
  induction count generalizing repairs errors outcome state with
  | zero =>
    simp only [search]
    split
    · exact reported
    · split
      · exact reportedAt_abandon reported _
      · exact reportedAt_truncate reported _ _ _
  | succ count ih =>
    simp only [search]
    split
    · exact reported
    · split
      · exact reportedAt_truncate reported _ _ _
      · exact ih (List.forall_mem_append.mpr
          ⟨reported, List.forall_mem_singleton.mpr (reportedAt_report _ _ _)⟩) _ _

/-- **Errors are reported at tokens, or at the end of the input**, or else for the whole text. -/
theorem reportedAt_recover (scope : RecoveryScope) (seed : Memo) :
    ∀ error ∈ (scope.recover seed).errors, scope.ReportedAt error := by
  rw [recover]
  split
  · exact reportedAt_abandon (List.forall_mem_nil _) none
  · rename_i outcome _ _
    exact reportedAt_search (List.forall_mem_nil _) [] outcome _

end RecoveryScope

/-! ### Places in a text -/

/-- A range that lies in a text of some length. -/
structure Text.Range.Inside (range : Text.Range) (length : Nat) : Prop where
  start_le : range.start ≤ range.stop
  stop_le : range.stop ≤ length

namespace Text

theorem Range.inside_empty {offset length : Nat} (le : offset ≤ length) :
    (Range.empty offset).Inside length :=
  ⟨Nat.le_refl _, le⟩

/-- The range of a part of a text that starts behind `front`. -/
theorem Range.inside_ofLength {front part back text : List Char} (h : part <+: back)
    (whole : text = front ++ back) :
    (Range.ofLength (byteLength front) (byteLength part)).Inside (byteLength text) := by
  obtain ⟨others, rfl⟩ := h
  refine ⟨Nat.le_add_right _ _, ?_⟩
  rw [whole, byteLength_append, byteLength_append]
  show byteLength front + byteLength part ≤ _
  omega

end Text

namespace CompiledGrammar

variable {compiled : CompiledGrammar} {text : List Char}

theorem inside_of_mem_tokenize {token : Token} (hmem : token ∈ (compiled.tokenize text).list) :
    token.range.Inside (Text.byteLength text) := by
  obtain ⟨front, c, rest, hread⟩ := readAt_of_mem 0 .origin text token hmem
  have hrange := hread.range
  rw [Nat.zero_add] at hrange
  rw [hrange]
  exact Text.Range.inside_ofLength (List.take_prefix _ _) hread.text

/-- **A faulty token is reported inside the text**, where it is opened. -/
theorem inside_of_mem_diagnostics {error : Diagnostic}
    (hmem : error ∈ (compiled.tokenize text).diagnostics) :
    error.range.Inside (Text.byteLength text) := by
  obtain ⟨token, htoken, herror⟩ := List.mem_filterMap.mp hmem
  obtain ⟨fault, hfault, rfl⟩ := Option.map_eq_some_iff.mp herror
  obtain ⟨front, c, rest, hread⟩ := readAt_of_mem 0 .origin text token htoken
  have hopened := (compiled.takes_lexeme c rest).opened fault (hread.error ▸ hfault)
  have hstart : token.range.start = Text.byteLength front := by
    rw [hread.range, Nat.zero_add]
    rfl
  show (Text.Range.ofLength token.range.start _).Inside _
  rw [hstart]
  exact Text.Range.inside_ofLength hopened hread.text

theorem inside_range (compiled : CompiledGrammar) (text : List Char) (index : Nat) :
    ((Source.ofTokens text (compiled.tokenize text)).range index).Inside
      (Text.byteLength text) := by
  by_cases lt : index < (Source.ofTokens text (compiled.tokenize text)).tokens.size
  · have hmem := List.mem_map_of_mem (f := (·.range)) (Array.getElem_mem_toList lt)
    rw [Source.ranges_ofTokens] at hmem
    obtain ⟨token, htoken, hrange⟩ := List.mem_map.mp hmem
    rw [Source.range_of_lt lt, ← hrange]
    exact inside_of_mem_tokenize (List.mem_of_mem_filter htoken)
  · rw [Source.range, Array.getElem?_eq_none (Nat.not_lt.mp lt)]
    exact Text.Range.inside_empty (Nat.le_refl _)

end CompiledGrammar

theorem Tokens.diagnostics_eq_nil_iff {tokens : Tokens} :
    tokens.diagnostics = [] ↔ ∀ token ∈ tokens.list, token.error = none := by
  simp only [diagnostics, List.filterMap_eq_nil_iff, Option.map_eq_none_iff]

namespace Parser

variable {parser : Parser} {grammar : Grammar}

/-- What is reported, in any order: what is wrong with the tokens, and what the session reports. -/
theorem perm_diagnostics (parser : Parser) (text : List Char) (tokens : Tokens) (seed : Memo) :
    (parser.parseWith text tokens seed).diagnostics.Perm
      (tokens.diagnostics ++ ((parser.scope text tokens).recover seed).errors) :=
  List.mergeSort_perm _ _

theorem sorted_diagnostics (parser : Parser) (text : List Char) (tokens : Tokens) (seed : Memo) :
    (parser.parseWith text tokens seed).diagnostics.Pairwise fun first second =>
      first.offset ≤ second.offset := by
  have hsorted := List.pairwise_mergeSort
    (fun (first second third : Diagnostic)
        (le : decide (first.offset ≤ second.offset) = true)
        (le' : decide (second.offset ≤ third.offset) = true) =>
      decide_eq_true (Nat.le_trans (of_decide_eq_true le) (of_decide_eq_true le')))
    (fun first second => by
      rw [Bool.or_eq_true, decide_eq_true_eq, decide_eq_true_eq]
      exact Nat.le_total _ _)
    (tokens.diagnostics ++ ((parser.scope text tokens).recover seed).errors)
  exact hsorted.imp of_decide_eq_true

/-- **The diagnostics and the tree agree.**  A text is parsed, and no run of the engine goes beyond
the limit on depth.  Then nothing is reported if and only if nothing is wrong with any token and no
node of the tree marks an error.  What is reported lies in the text and is in the order of its
offsets. -/
theorem isOk_parse_iff (done : grammar.compile = .ok parser.compiled) (text : List Char)
    (uncut : ∀ outcome ∈ parser.outcomes text ∅, outcome.overflow = none) :
    let parse := parser.parse text
    (parse.isOk = true ↔
      (∀ token ∈ (parser.compiled.tokenize text).list, token.error = none) ∧
        parse.tree.errorNodes = []) ∧
      (∀ error ∈ parse.diagnostics, error.range.Inside (Text.byteLength text)) ∧
      parse.diagnostics.Pairwise fun first second => first.offset ≤ second.offset := by
  intro parse
  have realizes := Grammar.realizes_compile done
  have hperm : parse.diagnostics.Perm ((parser.compiled.tokenize text).diagnostics ++
      ((parser.scope text (parser.compiled.tokenize text)).recover ∅).errors) :=
    parser.perm_diagnostics text _ ∅
  refine ⟨?_, fun error hmem => ?_, parser.sorted_diagnostics text _ ∅⟩
  · have hsession := @RecoveryScope.errors_recover_eq_nil_iff_marks
      (parser.scope text (parser.compiled.tokenize text)) grammar ∅ realizes
      (Source.proper_ofTokens text (kind_ne_of_tokenize realizes text))
      (Source.sorted_ofTokens text fun token hmem =>
        (parser.compiled.kind_tokensFrom realizes.owned 0 .origin text token hmem).2)
      Memo.valid_empty uncut
    rw [Parse.isOk, List.isEmpty_iff, ← List.length_eq_zero_iff, hperm.length_eq,
      List.length_eq_zero_iff, List.append_eq_nil_iff, Tokens.diagnostics_eq_nil_iff, hsession,
      Element.marks_eq_nil_iff]
    rfl
  · rcases List.mem_append.mp (hperm.mem_iff.mp hmem) with htoken | herror
    · exact CompiledGrammar.inside_of_mem_diagnostics htoken
    · rcases RecoveryScope.reportedAt_recover _ _ error herror with ⟨site, hrange⟩ | hrange
      · rw [hrange]
        exact parser.compiled.inside_range text site
      · rw [hrange]
        exact Text.Range.inside_empty (Nat.zero_le _)

/-- A token that fits nowhere is left out, and the tree marks it. -/
theorem isOk_parse_iff_pair :
    let parser := Parser.ofCompiled .pair
    let parse := parser.parse ['a', '?', 'b']
    (∀ outcome ∈ parser.outcomes ['a', '?', 'b'] ∅, outcome.overflow = none) ∧
      parse.tree.errorNodes.length = 1 ∧ parse.isOk = false ∧
      ∀ error ∈ parse.diagnostics, error.range.Inside 3 := by
  intro parser parse
  have huncut : ∀ outcome ∈ (Parser.ofCompiled .pair).outcomes ['a', '?', 'b'] ∅,
      outcome.overflow = none := by
    with_unfolding_all decide
  have hmarks : ((Parser.ofCompiled .pair).parse ['a', '?', 'b']).tree.errorNodes.length = 1 := by
    with_unfolding_all decide
  obtain ⟨hiff, hinside, -⟩ := @isOk_parse_iff (Parser.ofCompiled .pair) .pair
    Grammar.compile_pair ['a', '?', 'b'] huncut
  refine ⟨huncut, hmarks, Bool.eq_false_iff.mpr fun hok => ?_, hinside⟩
  -- without a report there would be no such node
  rw [(hiff.mp hok).2] at hmarks
  cases hmarks

end Parser

end Syntagm
