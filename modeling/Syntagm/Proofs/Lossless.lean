import Syntagm.Proofs.CheckedParsing
import Syntagm.Proofs.Gathering
import Syntagm.Proofs.Tiling

/-!
# Nothing of a text is lost

The tokens in a tree are those of the text, in their order, besides the tokens without text
that repairs put in (`Element.yield`).  Three things add up to this:

* a tree that succeeds holds the tokens of the whole stream, however its parts are put together
  (`RecoveryScope.gather_finish`);
* a stream holds the tokens of its source, whatever is left out or put in (`Source.Lays.yield`);
* a source holds the tokens of its text (`Source.yield_ofTokens`), and these tile it.

A tree that is given up holds the source as it is.

So whatever parsing gives loses nothing (`Parser.lossless_parse`).  It gives something unless sums
are checked and the window is so wide that its end is no word.
-/

namespace Syntagm

/-! ### The tokens of a tree -/

namespace Element

mutual

/-- The tokens of an element with their texts, without those that stand for nothing: the
tokens without text in nodes for what the input lacks. -/
def yield : Element → List (Kind × List Char)
  | .token kind text => [(kind, text)]
  | .node kind children =>
    if kind = Kind.missing then (yieldOfAll children).filter (!·.2.isEmpty)
    else yieldOfAll children

/-- The tokens of the elements of a list. -/
def yieldOfAll : List Element → List (Kind × List Char)
  | [] => []
  | first :: rest => yield first ++ yieldOfAll rest

end

@[simp] theorem yieldOfAll_nil : yieldOfAll [] = [] := rfl

@[simp] theorem yieldOfAll_cons (first : Element) (rest : List Element) :
    yieldOfAll (first :: rest) = first.yield ++ yieldOfAll rest := rfl

@[simp] theorem yieldOfAll_append (first second : List Element) :
    yieldOfAll (first ++ second) = yieldOfAll first ++ yieldOfAll second := by
  induction first with
  | nil => rfl
  | cons element first ih =>
    rw [List.cons_append, yieldOfAll_cons, yieldOfAll_cons, ih, List.append_assoc]

@[simp] theorem yield_token (kind : Kind) (text : List Char) :
    (Element.token kind text).yield = [(kind, text)] := by
  simp [yield]

theorem yieldOfAll_eq_flatMap (elements : List Element) :
    yieldOfAll elements = elements.flatMap yield := by
  induction elements with
  | nil => rfl
  | cons first rest ih => rw [yieldOfAll_cons, ih, List.flatMap_cons]

theorem yield_node {kind : Kind} (h : kind ≠ Kind.missing) (children : List Element) :
    (Element.node kind children).yield = yieldOfAll children := by
  simp [yield, h]

theorem gathers_yield {kind : Kind} (h : kind ≠ Kind.missing) : Gathers yield kind := by
  intro children
  rw [yield_node h, yieldOfAll_eq_flatMap]

@[simp] theorem yield_missingNode (kind : Kind) : (Source.missingNode kind).yield = [] := by
  simp [Source.missingNode, yield]

theorem flatMap_filter_isEmpty (leaves : List (Kind × List Char)) :
    (leaves.filter (!·.2.isEmpty)).flatMap (·.2) = leaves.flatMap (·.2) := by
  induction leaves with
  | nil => rfl
  | cons leaf leaves ih =>
    by_cases h : leaf.2 = []
    · simp [h, ih]
    · simp [h, ih]

mutual

/-- **The text of an element is that of its tokens**, of which none is left out that has one. -/
theorem text_eq_yield : ∀ element : Element, element.text = element.yield.flatMap (·.2)
  | .token .. => by simp [text]
  | .node kind children => by
    rw [text, textOfAll_eq_yield children, yield]
    split
    · rw [flatMap_filter_isEmpty]
    · rfl

theorem textOfAll_eq_yield : ∀ elements : List Element,
    textOfAll elements = (yieldOfAll elements).flatMap (·.2)
  | [] => rfl
  | first :: rest => by
    rw [textOfAll, yieldOfAll_cons, List.flatMap_append, text_eq_yield first,
      textOfAll_eq_yield rest]

end

end Element

open Element (yieldOfAll yieldOfAll_append yieldOfAll_cons yield_node yield_token)

/-- The tokens of a text in a token of a stream: those in front of it, and itself. -/
def StreamToken.yield (token : StreamToken) : List (Kind × List Char) :=
  yieldOfAll token.leading ++ yieldOfAll token.element.toList

theorem StreamToken.gather_yield (token : StreamToken) :
    token.gather Element.yield = token.yield := by
  rw [gather, yield, Element.yieldOfAll_eq_flatMap, Element.yieldOfAll_eq_flatMap]

/-! ### Streams -/

namespace Source

variable {source : Source}

/-- A significant token with the trivia in front of it. -/
def place (token : SourceToken) : List Element := token.trivia ++ [token.element]

/-- All tokens from the significant token `index` on, with the trivia in front of it. -/
def rest (source : Source) (index : Nat) : List Element :=
  (source.tokens.toList.drop index).flatMap place ++ source.trailing

theorem rest_zero : source.rest 0 = source.elements := rfl

theorem drop_eq_cons {index : Nat} (lt : index < source.size) :
    ∃ token, source.tokens[index]? = some token ∧
      source.tokens.toList.drop index = token :: source.tokens.toList.drop (index + 1) := by
  have hlt : index < source.tokens.toList.length := lt
  exact ⟨source.tokens[index], Array.getElem?_eq_getElem lt, List.drop_eq_getElem_cons hlt⟩

theorem rest_of_lt {index : Nat} (lt : index < source.size) :
    source.rest index =
      source.trivia index ++ (source.element? index).toList ++ source.rest (index + 1) := by
  obtain ⟨token, htoken, hdrop⟩ := drop_eq_cons lt
  simp [rest, hdrop, trivia, element?, htoken, place]

theorem rest_size :
    source.rest source.size =
      source.trivia source.size ++ (source.element? source.size).toList := by
  have hnone : source.tokens[source.size]? = none := Array.getElem?_eq_none (Nat.le_refl _)
  have hdrop : source.tokens.toList.drop source.size = [] := List.drop_eq_nil_of_le (Nat.le_refl _)
  simp [rest, trivia, element?, hnone, hdrop]

@[simp] theorem leading_append (first second : List Lead) :
    source.leading (first ++ second) = source.leading first ++ source.leading second := by
  simp [leading]

section Reading
variable {α : Type} {read : Element → List α}

/-- What is left out keeps what a reading finds, if it goes into the error node. -/
theorem gather_errorNode (gathers : Element.Gathers read Kind.error) {index stop : Nat}
    (lt : index < stop) (le : stop ≤ source.size) :
    (source.trivia index).flatMap read ++ read (source.errorNode index (stop - index)) ++
      (source.rest stop).flatMap read = (source.rest index).flatMap read := by
  obtain ⟨count, rfl⟩ : ∃ count, stop = index + 1 + count := ⟨stop - index - 1, by omega⟩
  obtain ⟨token, htoken, hdrop⟩ := drop_eq_cons (show index < source.size by omega)
  have hsplit := List.take_append_drop count (source.tokens.toList.drop (index + 1))
  rw [List.drop_drop] at hsplit
  -- the trivia of the first token stay in front of the node, all others go into it
  have hstretch : (source.tokens.toList.drop index).take (index + 1 + count - index) =
      token :: (source.tokens.toList.drop (index + 1)).take count := by
    rw [hdrop, show index + 1 + count - index = count + 1 by omega, List.take_succ_cons]
  have htrivia : source.trivia index = token.trivia := by simp [trivia, htoken]
  have hrest : source.rest index = token.trivia ++ (token.element ::
      (((source.tokens.toList.drop (index + 1)).take count).flatMap place ++
        source.rest (index + 1 + count))) := by
    rw [rest, rest, hdrop, List.flatMap_cons, ← List.append_assoc (List.flatMap _ _),
      ← List.flatMap_append, hsplit]
    simp [place]
  rw [errorNode, hstretch, gathers, htrivia, hrest]
  simp only [List.flatMap_append, List.flatMap_cons, List.append_assoc]
  rfl

/-- What a reading finds in a source token in a stream: what waits, its trivia and itself. -/
theorem gather_realToken (index : Nat) (pending : List Lead) :
    (source.realToken index pending).gather read =
      (source.leading pending).flatMap read ++
        (source.trivia index ++ (source.element? index).toList).flatMap read := by
  simp [realToken, StreamToken.gather, leading]

/-- **A stream holds what its source holds**, whatever a reading finds, as long as it finds
nothing in what is put in. -/
theorem Lays.gather_eq (gathers : Element.Gathers read Kind.error)
    (unread : ∀ kind, read (missingNode kind) = []) {allowed : Kind → Prop} {index : Nat}
    {pending : List Lead} {tokens : List StreamToken}
    (h : source.Lays allowed index pending tokens) (start : index ≤ source.size) :
    tokens.flatMap (StreamToken.gather read) =
      (source.leading pending).flatMap read ++ (source.rest index).flatMap read := by
  induction h with
  | stop => omega
  | @take index pending others le tail ih =>
    rw [List.flatMap_cons, gather_realToken]
    rcases Nat.lt_or_ge index source.size with hlt | hge
    · rw [ih hlt, rest_of_lt hlt]
      simp [leading]
    -- behind the end of the input nothing is laid
    · obtain rfl : index = source.size := by omega
      cases tail with
      | stop => simp [rest_size]
      | take le _ => omega
      | putIn le _ _ => omega
      | leaveOut lt le _ => omega
  | putIn le _ _ ih =>
    rw [List.flatMap_cons, ih le]
    simp [StreamToken.gather, insertedToken, unread, leading]
  | @leaveOut index pending others stop lt le _ ih =>
    rw [ih le, leading_append, List.flatMap_append, List.append_assoc,
      ← gather_errorNode gathers lt le]
    simp [leading]

end Reading

/-- **A stream holds the tokens of its source.** -/
theorem Lays.yield {allowed : Kind → Prop} {index : Nat} {pending : List Lead}
    {tokens : List StreamToken} (h : source.Lays allowed index pending tokens)
    (start : index ≤ source.size) :
    tokens.flatMap StreamToken.yield =
      yieldOfAll (source.leading pending) ++ yieldOfAll (source.rest index) := by
  rw [Element.yieldOfAll_eq_flatMap, Element.yieldOfAll_eq_flatMap,
    ← h.gather_eq (Element.gathers_yield (by decide)) Element.yield_missingNode start]
  exact List.flatMap_congr fun token _ => token.gather_yield.symm

/-! ### Sources -/

theorem collect_elements (trivia : List Element) (tokens : List (Token × List Char)) :
    (collect trivia tokens).1.flatMap place ++ (collect trivia tokens).2 =
      trivia ++ tokens.map fun one => .token one.1.kind one.2 := by
  induction tokens generalizing trivia with
  | nil => simp [collect]
  | cons first others ih =>
    obtain ⟨token, text⟩ := first
    rw [collect]
    split
    · rw [ih]
      simp
    · have hothers := ih []
      simp only [List.nil_append] at hothers
      simp [place, SourceToken.element, ← hothers]

theorem yieldOfAll_tokens (tokens : List (Token × List Char)) :
    yieldOfAll (tokens.map fun one => .token one.1.kind one.2) =
      tokens.map fun one => (one.1.kind, one.2) := by
  induction tokens with
  | nil => rfl
  | cons first others ih => simp [ih]

/-- **A source holds the tokens of its text.** -/
theorem yield_ofTokens (text : List Char) (tokens : Tokens) :
    yieldOfAll (ofTokens text tokens).elements =
      (tokens.list.zip (Tokens.cut text tokens.list)).map fun one =>
        (one.1.kind, one.2) := by
  have hcollect := collect_elements [] (tokens.list.zip (Tokens.cut text tokens.list))
  rw [List.nil_append] at hcollect
  rw [← yieldOfAll_tokens, ← hcollect]
  rfl

theorem kind_of_mem_collect {p : Kind → Prop} (trivia : List Element)
    (tokens : List (Token × List Char)) (h : ∀ one ∈ tokens, p one.1.kind) :
    ∀ token ∈ (collect trivia tokens).1, p token.kind := by
  induction tokens generalizing trivia with
  | nil => exact fun token hmem => (nomatch hmem)
  | cons first others ih =>
    obtain ⟨hfirst, hothers⟩ := List.forall_mem_cons.mp h
    rw [collect]
    split
    · exact ih _ hothers
    · exact List.forall_mem_cons.mpr ⟨hfirst, ih _ hothers⟩

theorem proper_ofTokens (text : List Char) {tokens : Tokens}
    (h : ∀ token ∈ tokens.list, token.kind ≠ Kind.endOfInput) :
    (ofTokens text tokens).Proper := by
  intro token hmem
  refine kind_of_mem_collect (p := (· ≠ Kind.endOfInput)) [] _ (fun one hone => ?_) token
    (List.mem_toArray.mp hmem)
  exact h one.1 (List.of_mem_zip hone).1

end Source

/-! ### Trees -/

namespace RecoveryScope

variable {scope : RecoveryScope} {grammar : Grammar}

theorem startKind_ne_missing (realizes : scope.compiled.Realizes grammar) :
    scope.compiled.startKind ≠ Kind.missing := by
  obtain ⟨rule, hrule, -⟩ := realizes.start
  rw [CompiledGrammar.startKind_eq hrule]
  exact realizes.kind_ne_missing hrule

/-- **A tree made of a whole stream** holds the tokens of the source. -/
theorem yield_finish (realizes : scope.compiled.Realizes grammar) {fragment : Fragment}
    {state : RecoveryState} (matched : scope.Matched fragment state.tokens) :
    (scope.finish fragment state).yield = yieldOfAll scope.source.elements := by
  obtain ⟨repairs, -, htokens⟩ := matched.repairs
  have hgather := @gather_finish _ Element.yield scope fragment state
    (fun _ _ lookup => Element.gathers_yield (realizes.kind_ne_missing lookup)) matched
  rw [hgather, List.flatMap_congr fun token _ => StreamToken.gather_yield token, htokens,
    (Source.lays_stream_any scope.source repairs).yield (Nat.zero_le _), Source.rest_zero]
  rfl

/-- **The tree of a session holds the tokens of the source**, whatever path the session
takes. -/
theorem yield_recover (realizes : scope.compiled.Realizes grammar)
    (proper : scope.source.Proper) {seed : Memo}
    (right : seed.Valid scope.compiled (scope.source.stream [])) :
    (scope.recover seed).tree.yield = yieldOfAll scope.source.elements := by
  have hsettled := settled_recover realizes right
  generalize scope.recover seed = recovered at hsettled ⊢
  cases hsettled with
  | success _ _ ran hfragment => exact yield_finish realizes (ran.matched realizes proper hfragment)
  | abandoned =>
    have herror : (Element.node Kind.error scope.source.elements).yield =
        yieldOfAll scope.source.elements := yield_node (by decide) _
    simp only [abandon, yield_node (startKind_ne_missing realizes), yieldOfAll_cons, herror]
    exact List.append_nil _

end RecoveryScope

namespace Parser

variable {parser : Parser} {grammar : Grammar}

/-- The tokens in the tree of a text whose tokens are given. -/
theorem yield_parseWith (realizes : parser.compiled.Realizes grammar) {text : List Char}
    {tokens : Tokens} (kinds : ∀ token ∈ tokens.list, token.kind ≠ Kind.endOfInput)
    {seed : Memo}
    (right : seed.Valid parser.compiled ((parser.scope text tokens).source.stream [])) :
    (parser.parseWith text tokens seed).tree.yield =
      (tokens.list.zip (Tokens.cut text tokens.list)).map fun one => (one.1.kind, one.2) := by
  rw [← Source.yield_ofTokens]
  exact @RecoveryScope.yield_recover (parser.scope text tokens) grammar realizes
    (Source.proper_ofTokens text kinds) _ right

/-- The tokens in the tree of a text whose given tokens cover it: they are these tokens, with
the text in their ranges. -/
theorem yield_of_covers (realizes : parser.compiled.Realizes grammar) {text : List Char}
    {tokens : Tokens} (kinds : ∀ token ∈ tokens.list, token.kind ≠ Kind.endOfInput)
    (covers : tokens.covers text = true) {seed : Memo}
    (right : seed.Valid parser.compiled ((parser.scope text tokens).source.stream [])) :
    (parser.parseWith text tokens seed).tree.text = text ∧
      (parser.parseWith text tokens seed).tree.yield.map (fun leaf => (leaf.1, some leaf.2)) =
        tokens.list.map fun token => (token.kind, Text.slice? text token.range) := by
  obtain ⟨parts, hparts⟩ := Tokens.Tiles.of_tile (Bool.and_eq_true_iff.mp covers).1
  have hyield := yield_parseWith realizes kinds right
  rw [hparts.cut] at hyield
  have hlength := hparts.length_eq
  constructor
  · rw [Element.text_eq_yield, hyield, List.flatMap_map, ← hparts.flatten, List.flatMap_def]
    congr 1
    exact List.map_snd_zip (Nat.le_of_eq hlength)
  · have hslices := hparts.slices [] rfl
    rw [List.nil_append] at hslices
    calc (parser.parseWith text tokens seed).tree.yield.map (fun leaf => (leaf.1, some leaf.2))
        = List.zipWith (fun token part => (token.kind, some part)) tokens.list parts := by
          rw [hyield, List.map_map, List.map_zip_eq_zipWith]
          rfl
      _ = List.zipWith (fun token slice => (token.kind, slice)) tokens.list (parts.map some) := by
          rw [List.zipWith_map_right]
      _ = tokens.list.map fun token => (token.kind, Text.slice? text token.range) := by
          rw [hslices, List.zipWith_map_right, List.zipWith_self]

/-- The tokens of a text are not the end of the input. -/
theorem kind_ne_of_tokenize {compiled : CompiledGrammar} {grammar : Grammar}
    (realizes : compiled.Realizes grammar) (text : List Char) :
    ∀ token ∈ (compiled.tokenize text).list, token.kind ≠ Kind.endOfInput := by
  intro token hmem heq
  rcases (compiled.kind_tokensFrom realizes.owned 0 .origin text token hmem).1 with
    hkind | hkind | hkind
  · rw [heq] at hkind
    cases hkind
  · rw [heq] at hkind
    cases hkind
  · have hreserved := hkind.not_reserved
    rw [heq] at hreserved
    cases hreserved

end Parser

/-- **A parse loses nothing** of a text: the texts of the tokens of the tree are the text, and its
tokens, without those that repairs put in, are the given ones, each with its kind and the text in
its range. -/
structure Parse.Lossless (parse : Parse) (text : List Char) (tokens : Tokens) : Prop where
  text_eq : parse.tree.text = text
  yield_eq : parse.tree.yield.map (fun leaf => (leaf.1, some leaf.2)) =
    tokens.list.map fun token => (token.kind, Text.slice? text token.range)

namespace Parser

variable {parser : Parser} {grammar : Grammar}

theorem lossless_of_parse (realizes : parser.compiled.Realizes grammar) (text : List Char) :
    (parser.parse text).Lossless text (parser.compiled.tokenize text) :=
  have h := yield_of_covers realizes (kind_ne_of_tokenize realizes text)
    (parser.compiled.covers_tokenize text) Memo.valid_empty
  ⟨h.1, h.2⟩

theorem text_parseTokens (realizes : parser.compiled.Realizes grammar) (text : List Char)
    {tokens : Tokens} (kinds : ∀ token ∈ tokens.list, token.kind ≠ Kind.endOfInput) :
    (parser.parseTokens text tokens).tree.text = text := by
  unfold parseTokens
  split
  · rename_i hcovers
    exact (yield_of_covers realizes kinds hcovers Memo.valid_empty).1
  · exact (lossless_of_parse realizes text).text_eq

/-- **Parsing loses nothing**, in either arithmetic, and it gives something if there is room for
the window.  The text is the same if tokens are given, for whatever text and by whatever grammar
they were made. -/
theorem lossless_parse (done : grammar.compile = .ok parser.compiled) (arithmetic : Arithmetic)
    (text : List Char) :
    (∀ given, parser.parse? arithmetic text = some given →
        given.Lossless text (parser.compiled.tokenize text)) ∧
      (parser.HasRoom arithmetic (parser.compiled.tokenize text) →
        (parser.parse? arithmetic text).isSome = true) ∧
      ∀ (foreign : Grammar) (other : CompiledGrammar) (otherText : List Char),
        foreign.compile = .ok other →
          (∀ given, parser.parseTokens? arithmetic text (other.tokenize otherText) = some given →
            given.tree.text = text) ∧
          (parser.HasRoom arithmetic (other.tokenize otherText) →
            parser.HasRoom arithmetic (parser.compiled.tokenize text) →
              (parser.parseTokens? arithmetic text (other.tokenize otherText)).isSome = true) := by
  have realizes := Grammar.realizes_compile done
  refine ⟨fun given gives => ?_, isSome_parse?, fun foreign other otherText hother => ?_⟩
  · rw [eq_parse_of_parse? gives]
    exact lossless_of_parse realizes text
  · refine ⟨fun given gives => ?_, isSome_parseTokens?⟩
    rw [eq_parseTokens_of_parseTokens? gives]
    exact text_parseTokens realizes text
      (kind_ne_of_tokenize (Grammar.realizes_compile hother) otherText)

/-- A text that needs repairs, with its own tokens and with those of another text. -/
theorem lossless_parse_pair :
    let parser := Parser.ofCompiled .pair
    Grammar.pair.compile = .ok parser.compiled ∧
      (∃ given, parser.parse? .checked ['b', 'a', '?'] = some given ∧
        given.tree.text = ['b', 'a', '?']) ∧
      ∃ given, parser.parseTokens? .checked ['b', 'a', '?']
          (CompiledGrammar.pair.tokenize ['a', 'b']) = some given ∧
        given.tree.text = ['b', 'a', '?'] := by
  intro parser
  obtain ⟨hlossless, hsome, hforeign⟩ := @lossless_parse (Parser.ofCompiled .pair) .pair
    Grammar.compile_pair .checked ['b', 'a', '?']
  obtain ⟨htext, hsome'⟩ := hforeign .pair .pair ['a', 'b'] Grammar.compile_pair
  have room : parser.HasRoom .checked (parser.compiled.tokenize ['b', 'a', '?']) := fun _ _ => by
    with_unfolding_all decide
  have room' : parser.HasRoom .checked (CompiledGrammar.pair.tokenize ['a', 'b']) := fun _ _ => by
    with_unfolding_all decide
  obtain ⟨given, hgiven⟩ := Option.isSome_iff_exists.mp (hsome room)
  obtain ⟨given', hgiven'⟩ := Option.isSome_iff_exists.mp (hsome' room' room)
  exact ⟨Grammar.compile_pair, ⟨given, hgiven, (hlossless given hgiven).text_eq⟩, given', hgiven',
    htext given' hgiven'⟩

/-- **A window as wide as the words** stops a program that checks its sums, at the first error
that neither a token more nor one less repairs. -/
theorem parse?_widestWindow :
    let parser : Parser := ⟨.pair, { ParserOptions.standard with syncWindow := UInt64.size - 1 }⟩
    Grammar.pair.compile = .ok parser.compiled ∧
      parser.parse? .checked ['a', 'b', 'b', 'b'] = none :=
  ⟨Grammar.compile_pair, by with_unfolding_all decide⟩

end Parser

end Syntagm
