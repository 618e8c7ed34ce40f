import Mathlib.Data.List.Permutation
import Syntagm.Proofs.Incremental

/-!
# The text after an edit

Parsing again gives a tree of the new text, as long as what is used again has the text that the
new text has there.  An edit may name any offsets, also such that are no places to cut at, and it
mostly does no harm: nothing is used again then (`Edit.cases_of_fits`).

The exception is an edit that puts something inside a character.  Then tokens are taken to have
moved that have not, and a token of the old text can stand in the tree in place of another one of
its kind and length (`Parser.text_reparse_letters`).  What is remembered of that parse is wrong, so
later edits go wrong that would do no harm by themselves (`Parser.reparse_ne_parse_letters`).
-/

namespace Syntagm

/-! ### Parsing again -/

namespace Parser

variable {parser : Parser} {grammar : Grammar} {oldText : List Char} {old : Parse}

/-- **Parsing again loses nothing.**  A parse of a text was made with the grammar of a parser, by
any chain of edits.  Any range of the text is replaced, whatever its offsets are.  Neither the chain
nor this edit puts something inside a character.  Then the texts of the tokens of the tree are the
new text. -/
theorem text_reparse (done : grammar.compile = .ok parser.compiled)
    {chain : List Replacement} (made : Made parser.compiled chain oldText old)
    (whole : ∀ taken ∈ chain, taken.KeepsCharacters) (range : Text.Range)
    (replacement : List Char)
    (apart : (Edit.replacing oldText range replacement).IsInside oldText → replacement = []) :
    let edit := Edit.replacing oldText range replacement
    (parser.reparse old edit (edit.apply oldText replacement)).tree.text =
      edit.apply oldText replacement := by
  intro edit
  have realizes := Grammar.realizes_compile done
  exact (yield_of_covers realizes (kind_ne_of_tokenize realizes _)
    (parser.compiled.covers_tokenize _)
    (valid_seed_replacing realizes.owned (made.sound realizes whole) range replacement apart)).1

/-- A range that starts inside a letter and ends past the text: the new text is all of the old one
with the replacement behind it. -/
theorem text_reparse_pair :
    let edit := Edit.replacing ['é', 'b'] ⟨1, 9⟩ ['a']
    (edit.IsInside ['é', 'b'] → ['a'] = []) ∧ edit.apply ['é', 'b'] ['a'] = ['é', 'b', 'a'] ∧
      ((Parser.ofCompiled .pair).reparse ((Parser.ofCompiled .pair).parse ['é', 'b']) edit
        ['é', 'b', 'a']).tree.text = ['é', 'b', 'a'] := by
  intro edit
  have hnew : edit.apply ['é', 'b'] ['a'] = ['é', 'b', 'a'] := by decide
  have hapart : edit.IsInside ['é', 'b'] → ['a'] = [] := by decide
  have htext : ((Parser.ofCompiled .pair).reparse _ edit (edit.apply ['é', 'b'] ['a'])).tree.text =
      edit.apply ['é', 'b'] ['a'] :=
    @text_reparse (Parser.ofCompiled .pair) .pair ['é', 'b'] _ Grammar.compile_pair _
      (.parse .standard ['é', 'b']) (by simp) ⟨1, 9⟩ ['a'] hapart
  rw [hnew] at htext
  exact ⟨hapart, hnew, htext⟩

end Parser

/-! ### A letter inside another one -/

/-- The grammar of a letter in brackets, then another one, then perhaps a third one behind a
semicolon.  The second and the third one are nodes, and may be missing. -/
def Grammar.letters : Grammar :=
  { Grammar.empty "letters" with
    rules := [
      ("s", .seq [.quoted "<" ">", .reference "m",
        .optional (.seq [.literal ";", .reference "m"])]),
      ("m", .optional (.quoted "<" ">"))]
    start := some "s" }

/-- Its terminals. -/
def Lexicon.Draft.letters : Lexicon.Draft :=
  ((⟨Lexicon.empty Grammar.defaultEndMarkers, KindTable.reserved⟩ : Lexicon.Draft).addInline
    (.quoted "<" ">") "<...>" (.quoted "<" ">")).addLiteral ";"

/-- What it is compiled to. -/
def CompiledGrammar.letters : CompiledGrammar :=
  let lowered := (Program.ofGrammar .letters [] .letters).toOption.getD default
  { grammar := .letters
    kinds := lowered.2
    lexicon := Lexicon.Draft.letters.lexicon
    program := lowered.1
    analysis := lowered.1.analyze
    start := 0
    sync := KindSet.ofList []
    warnings := [] }

theorem Grammar.compile_letters : Grammar.letters.compile = .ok CompiledGrammar.letters := by
  with_unfolding_all rfl

namespace Engine

open CompiledGrammar (letters)

/-- The text of two letters, the first of which takes two bytes. -/
def twoLetters : Array StreamToken :=
  (Source.ofTokens ['<', 'é', '>', '<', 'x', '>']
    (letters.tokenize ['<', 'é', '>', '<', 'x', '>'])).stream []

/-- The text of three letters that starts with these two. -/
def threeLetters : Array StreamToken :=
  (Source.ofTokens ['<', 'é', '>', '<', 'x', '>', ';', '<', 'y', '>']
    (letters.tokenize ['<', 'é', '>', '<', 'x', '>', ';', '<', 'y', '>'])).stream []

/-- The rule `m` at a position. -/
def letterKey (position : Nat) : MemoKey := ⟨1, position, leastLevel⟩

/-- What is remembered of it if there is a letter. -/
def letterEntry (position : Nat) (text : List Char) : MemoEntry :=
  ⟨some ⟨⟨[], [.node ⟨8⟩ [.token ⟨5⟩ text]]⟩, position + 1⟩, none, position + 1⟩

/-- A token with nothing in front of it. -/
def plainToken (kind : Kind) (site : Nat) (element : Option Element) : StreamToken :=
  ⟨kind, site, true, [.trivia site], [], element⟩

/-- What the grammar is lowered to, and the tokens of the texts. -/
theorem evaluated_letters :
    letters.program =
      { ops := #[.token ⟨5⟩, .call 1 leastLevel, .token ⟨6⟩, .call 1 leastLevel, .seq [2, 3],
          .optional 4, .seq [0, 1, 5], .token ⟨5⟩, .optional 7]
        owners := #[0, 0, 0, 0, 0, 0, 0, 1, 1]
        rules := #[⟨"s", ⟨7⟩, false, .plain 6⟩, ⟨"m", ⟨8⟩, false, .plain 8⟩] } ∧
    twoLetters = #[
      plainToken ⟨5⟩ 0 (some (.token ⟨5⟩ ['<', 'é', '>'])),
      plainToken ⟨5⟩ 1 (some (.token ⟨5⟩ ['<', 'x', '>'])),
      plainToken Kind.endOfInput 2 none] ∧
    threeLetters = #[
      plainToken ⟨5⟩ 0 (some (.token ⟨5⟩ ['<', 'é', '>'])),
      plainToken ⟨5⟩ 1 (some (.token ⟨5⟩ ['<', 'x', '>'])),
      plainToken ⟨6⟩ 2 (some (.token ⟨6⟩ [';'])),
      plainToken ⟨5⟩ 3 (some (.token ⟨5⟩ ['<', 'y', '>'])),
      plainToken Kind.endOfInput 4 none] := by
  with_unfolding_all decide

variable {tokens : Array StreamToken} {position : Nat} {memo : Memo}

/-- The operations of the start rule. -/
theorem evaluate_letters (call : Nat → Int → Evaluator) :
    evaluate letters tokens call 6 =
        matchAll (fun item : Fin 6 => evaluate letters tokens call item) [0, 1, 5] ∧
      evaluate letters tokens call 5 = matchOptional (evaluate letters tokens call 4) ∧
      evaluate letters tokens call 4 =
        matchAll (fun item : Fin 4 => evaluate letters tokens call item) [2, 3] ∧
      evaluate letters tokens call 0 = matchToken tokens ⟨5⟩ ∧
      evaluate letters tokens call 2 = matchToken tokens ⟨6⟩ ∧
      evaluate letters tokens call 1 = call 1 leastLevel ∧
      evaluate letters tokens call 3 = call 1 leastLevel := by
  have hwhole : letters.program.view 6 = .seq [0, 1, 5] := by rw [evaluated_letters.1]; rfl
  have hmore : letters.program.view 5 = .optional 4 := by rw [evaluated_letters.1]; rfl
  have hseparated : letters.program.view 4 = .seq [2, 3] := by rw [evaluated_letters.1]; rfl
  have hfirst : letters.program.view 0 = .token ⟨5⟩ := by rw [evaluated_letters.1]; rfl
  have hseparator : letters.program.view 2 = .token ⟨6⟩ := by rw [evaluated_letters.1]; rfl
  have hsecond : letters.program.view 1 = .call 1 leastLevel := by rw [evaluated_letters.1]; rfl
  have hthird : letters.program.view 3 = .call 1 leastLevel := by rw [evaluated_letters.1]; rfl
  refine ⟨?_, ?_, ?_, ?_, ?_, ?_, ?_⟩
  · rw [evaluate, hwhole]
  · rw [evaluate, hmore]
    rfl
  · rw [evaluate, hseparated]
  · rw [evaluate, hfirst]
  · rw [evaluate, hseparator]
  · rw [evaluate, hsecond]
  · rw [evaluate, hthird]

theorem rule_letters : letters.program.rules[1]? = some ⟨"m", ⟨8⟩, false, .plain 8⟩ := by
  rw [evaluated_letters.1]
  rfl

/-- A letter that is not remembered is matched, and remembered. -/
theorem call_letter {token : StreamToken} {text : List Char}
    (found : (tokens[position]?).filter (·.kind = ⟨5⟩) = some token)
    (letter : token.leading = [] ∧ token.element = some (.token ⟨5⟩ text))
    (unknown : memo[letterKey position]? = none) (depth : Nat) (frames : List Nat) :
    callRule letters tokens true (depth + 1) frames 1 leastLevel position memo =
      ⟨(letterEntry position text).result, .looked position,
        memo.insert (letterKey position) (letterEntry position text)⟩ := by
  have hview : letters.program.view 8 = .optional 7 := by rw [evaluated_letters.1]; rfl
  have hinner : letters.program.view 7 = .token ⟨5⟩ := by rw [evaluated_letters.1]; rfl
  have htoken (call : Nat → Int → Evaluator) :
      evaluate letters tokens call 7 = matchToken tokens ⟨5⟩ := by rw [evaluate, hinner]
  have hbody (call : Nat → Int → Evaluator) :
      evaluate letters tokens call 8 = matchOptional (matchToken tokens ⟨5⟩) := by
    rw [evaluate, hview]
    exact congrArg matchOptional (htoken call)
  rw [callRule, rule_letters]
  simp only [effectiveBound, Rule.isLeftRecursive, Bool.false_eq_true, if_false]
  rw [show (⟨1, position, leastLevel⟩ : MemoKey) = letterKey position from rfl, unknown]
  simp only [matchBody, hbody, matchOptional, matchToken, found, tokenMatch, letter]
  rfl

/-- A letter that is remembered is not looked at. -/
theorem call_remembered {entry : MemoEntry} (known : memo[letterKey position]? = some entry)
    (depth : Nat) (frames : List Nat) :
    callRule letters tokens true depth frames 1 leastLevel position memo =
      ⟨entry.result, entry.seen, memo⟩ := by
  rw [callRule.eq_def, rule_letters]
  simp only [effectiveBound, Rule.isLeftRecursive, Bool.false_eq_true, if_false]
  rw [show (⟨1, position, leastLevel⟩ : MemoKey) = letterKey position from rfl, known]

/-- The start rule, where two letters come first: the rest is left to what is behind them. -/
theorem body_letters {first second : StreamToken} {text text' : List Char}
    (hfirst : (tokens[0]?).filter (·.kind = ⟨5⟩) = some first)
    (letter : first.leading = [] ∧ first.element = some (.token ⟨5⟩ text))
    (hsecond : (tokens[1]?).filter (·.kind = ⟨5⟩) = some second)
    (letter' : second.leading = [] ∧ second.element = some (.token ⟨5⟩ text'))
    (unknown : memo[letterKey 1]? = none) :
    let call := callRule letters tokens true 4096 []
    let more := matchAll (fun item : Fin 4 => evaluate letters tokens call item) [2, 3] 2
      (memo.insert (letterKey 1) (letterEntry 1 text'))
    let reply := matchBody (evaluate letters tokens call) tokens.size ⟨"s", ⟨7⟩, false, .plain 6⟩
      leastLevel 0 memo
    reply.result = some (⟨⟨[], [.token ⟨5⟩ text, .node ⟨8⟩ [.token ⟨5⟩ text']]⟩, 2⟩ ++
      more.result.getD (.blank 2)) ∧
      reply.seen.overflow = more.seen.overflow ∧ reply.memo = more.memo := by
  intro call more reply
  obtain ⟨hwhole, hmore, hseparated, hletter, -, hcall, -⟩ := @evaluate_letters tokens call
  have hnumbers : ((1 : Fin 6) : Nat) = 1 ∧ ((5 : Fin 6) : Nat) = 5 := ⟨rfl, rfl⟩
  have hmatched := call_letter hsecond letter' unknown 4095 []
  have hreply : reply.result = some (⟨⟨[], [.token ⟨5⟩ text]⟩, 1⟩ ++
      (⟨⟨[], [.node ⟨8⟩ [.token ⟨5⟩ text']]⟩, 2⟩ ++
        (more.result.getD (.blank 2) ++ .blank (more.result.getD (.blank 2)).stop))) ∧
      reply.seen.overflow = more.seen.overflow.or none ∧ reply.memo = more.memo := by
    simp only [reply, matchBody, hwhole, matchAll, hnumbers, hletter, matchToken, hfirst,
      tokenMatch, hcall, Reply.after, Reply.prepend, letter, call, hmatched, letterEntry, hmore,
      hseparated, matchOptional, Reply.withResult, Fin.val_zero, Option.map, Reply.immediate]
    exact ⟨rfl, rfl, rfl⟩
  rw [Match.append_blank, ← Match.append_assoc, Option.or_none] at hreply
  exact hreply

theorem start_letters :
    letters.program.rules[letters.start]? = some ⟨"s", ⟨7⟩, false, .plain 6⟩ := by
  rw [evaluated_letters.1]
  rfl

/-- The two letters are a text, and the second one is remembered. -/
theorem run_twoLetters (blank : memo.Blank) :
    (run letters .standard twoLetters memo).1.isSuccess = true ∧
      (run letters .standard twoLetters memo).2 =
        memo.insert (letterKey 1) (letterEntry 1 ['<', 'x', '>']) := by
  have hfirst : (twoLetters[0]?).filter (·.kind = ⟨5⟩) =
      some (plainToken ⟨5⟩ 0 (some (.token ⟨5⟩ ['<', 'é', '>']))) := by
    rw [evaluated_letters.2.1]; rfl
  have hsecond : (twoLetters[1]?).filter (·.kind = ⟨5⟩) =
      some (plainToken ⟨5⟩ 1 (some (.token ⟨5⟩ ['<', 'x', '>']))) := by
    rw [evaluated_letters.2.1]; rfl
  have hnone : (twoLetters[2]?).filter (·.kind = ⟨6⟩) = none := by rw [evaluated_letters.2.1]; rfl
  have hend : kindAt twoLetters 2 = Kind.endOfInput := by rw [evaluated_letters.2.1]; rfl
  obtain ⟨-, -, -, -, hseparator, -⟩ :=
    @evaluate_letters twoLetters (callRule letters twoLetters true 4096 [])
  have hnumber : ((2 : Fin 4) : Nat) = 2 := rfl
  obtain ⟨hresult, -, hmemo⟩ := body_letters hfirst ⟨rfl, rfl⟩ hsecond ⟨rfl, rfl⟩ (blank _)
  simp only [matchAll, hnumber, hseparator, matchToken, hnone] at hresult hmemo
  rw [run, start_letters]
  refine ⟨?_, hmemo⟩
  simp only [ParserOptions.standard, outcomeOf, hresult]
  rw [if_pos (show kindAt twoLetters (_ ++ (Option.getD none (Match.blank 2))).stop = _ from hend)]
  rfl

/-- The three letters are a text.  The third one is what the call for it gives. -/
theorem run_threeLetters {text : List Char} {seen : Observation} {after : Memo}
    (unknown : memo[letterKey 1]? = none)
    (third : callRule letters threeLetters true 4096 [] 1 leastLevel 3
      (memo.insert (letterKey 1) (letterEntry 1 ['<', 'x', '>'])) =
        ⟨(letterEntry 3 text).result, seen, after⟩) :
    let ran := run letters .standard threeLetters memo
    ran.1.fragment =
        some ⟨[], [.token ⟨5⟩ ['<', 'é', '>'], .node ⟨8⟩ [.token ⟨5⟩ ['<', 'x', '>']],
          .token ⟨6⟩ [';'], .node ⟨8⟩ [.token ⟨5⟩ text]]⟩ ∧
      ran.1.overflow = seen.overflow ∧ ran.2 = after := by
  intro ran
  have hfirst : (threeLetters[0]?).filter (·.kind = ⟨5⟩) =
      some (plainToken ⟨5⟩ 0 (some (.token ⟨5⟩ ['<', 'é', '>']))) := by
    rw [evaluated_letters.2.2]; rfl
  have hsecond : (threeLetters[1]?).filter (·.kind = ⟨5⟩) =
      some (plainToken ⟨5⟩ 1 (some (.token ⟨5⟩ ['<', 'x', '>']))) := by
    rw [evaluated_letters.2.2]; rfl
  have hthird : (threeLetters[2]?).filter (·.kind = ⟨6⟩) =
      some (plainToken ⟨6⟩ 2 (some (.token ⟨6⟩ [';']))) := by
    rw [evaluated_letters.2.2]; rfl
  have hend : kindAt threeLetters 4 = Kind.endOfInput := by rw [evaluated_letters.2.2]; rfl
  obtain ⟨-, -, -, -, hseparator, -, hcall⟩ :=
    @evaluate_letters threeLetters (callRule letters threeLetters true 4096 [])
  have hnumbers : ((2 : Fin 4) : Nat) = 2 ∧ ((3 : Fin 4) : Nat) = 3 := ⟨rfl, rfl⟩
  obtain ⟨hresult, hoverflow, hmemo⟩ := body_letters hfirst ⟨rfl, rfl⟩ hsecond ⟨rfl, rfl⟩ unknown
  simp only [matchAll, hnumbers, hseparator, matchToken, hthird, hcall, tokenMatch, third,
    Reply.after, Reply.prepend] at hresult hoverflow hmemo
  have hran : ran = run letters .standard threeLetters memo := rfl
  rw [run, start_letters] at hran
  rw [hran]
  refine ⟨?_, ?_, hmemo⟩
  · simp only [ParserOptions.standard, outcomeOf, hresult]
    rw [if_pos (by exact hend)]
    rfl
  · rw [overflow_outcomeOf]
    exact hoverflow.trans Option.or_none

end Engine

/-- What a memory lists, if it is known what is found in it. -/
theorem Memo.toList_perm {memo : Memo} {entries : List (MemoKey × MemoEntry)}
    (distinct : entries.Nodup)
    (found : ∀ key entry, memo[key]? = some entry ↔ (key, entry) ∈ entries) :
    memo.toList.Perm entries := by
  have hnodup : memo.toList.Nodup :=
    Std.HashMap.distinct_keys_toList.imp fun hne heq => by simp [heq] at hne
  refine (List.perm_ext_iff_of_nodup hnodup distinct).mpr fun ⟨key, entry⟩ => ?_
  exact Std.HashMap.mem_toList_iff_getElem?_eq_some.trans (found key entry)

theorem Memo.Blank.toList_insert {memo : Memo} (blank : memo.Blank) (key : MemoKey)
    (entry : MemoEntry) : (memo.insert key entry).toList = [(key, entry)] := by
  refine List.perm_singleton.mp (toList_perm (List.nodup_singleton _) fun key' entry' => ?_)
  rw [Std.HashMap.getElem?_insert, List.mem_singleton, Prod.mk.injEq]
  by_cases hkey : key = key'
  · simp [hkey, eq_comm]
  · simp [hkey, Ne.symm hkey, blank key']

namespace Parser

open CompiledGrammar (letters)
open Engine (letterKey letterEntry twoLetters threeLetters)

/-- What the parse of the two letters exports. -/
theorem reuse_twoLetters :
    ((Parser.ofCompiled letters).parse ['<', 'é', '>', '<', 'x', '>']).reuse =
      [(letterKey 1, letterEntry 1 ['<', 'x', '>'])] := by
  let scope := (Parser.ofCompiled letters).scope ['<', 'é', '>', '<', 'x', '>']
    (letters.tokenize ['<', 'é', '>', '<', 'x', '>'])
  have hblank : Memo.Blank ((∅ : Memo).filter fun _ entry =>
      entry.lookahead ≤ commonLength twoLetters twoLetters) :=
    Memo.blank_empty.filter _
  obtain ⟨hsuccess, hmemo⟩ := Engine.run_twoLetters hblank
  obtain ⟨fragment, hfragment⟩ := Option.isSome_iff_exists.mp hsuccess
  have hmemo' : (scope.run [] ⟨scope.source.stream [], ∅, 1, [], false⟩).2.memo = _ := hmemo
  show (scope.recover ∅).reuse = _
  rw [@RecoveryScope.recover_of_success scope ∅ (by decide) fragment hfragment]
  show RecoveryScope.reuseTable _ = _
  rw [RecoveryScope.reuseTable, hmemo', hblank.toList_insert]
  have htokens : (scope.run [] ⟨scope.source.stream [], ∅, 1, [], false⟩).2.tokens =
      twoLetters := rfl
  have hone : RecoveryScope.reusable? twoLetters (letterKey 1) (letterEntry 1 ['<', 'x', '>']) =
      some (letterKey 1, letterEntry 1 ['<', 'x', '>']) := by
    rw [Engine.evaluated_letters.2.1]
    with_unfolding_all decide
  rw [htokens]
  simp [hone]

/-- What is unchanged, with what is counted for it. -/
theorem Parse.unchanged_eq {old : Parse} {edit : Edit} {oldTokens newTokens : Tokens}
    (before behind kept places size newSize : Nat) (tokens : old.tokens = oldTokens)
    (counted : edit.unchangedBefore oldTokens.list newTokens.list = before ∧
      edit.unchangedBehind oldTokens.list newTokens.list before = behind ∧
      Tokens.significantBefore oldTokens.list before = kept ∧
      Tokens.significantBefore oldTokens.list oldTokens.list.length = size ∧
      Tokens.significantBefore newTokens.list newTokens.list.length = newSize ∧
      min (Tokens.placesBehind oldTokens.list (oldTokens.list.length - behind))
        (Tokens.placesBehind newTokens.list (newTokens.list.length - behind)) = places)
    (some : ¬ (before = 0 ∧ behind = 0)) :
    old.unchanged edit newTokens =
      Parse.carryOver old.reuse kept (size + 1 - places) ((newSize : Int) - (size : Int)) := by
  obtain ⟨rfl, rfl, rfl, rfl, rfl, rfl⟩ := counted
  rw [Parse.unchanged, tokens, if_neg some]

/-- The third letter, remembered as an `x`. -/
def mistaken : Memo := (∅ : Memo).insert (letterKey 3) (letterEntry 3 ['<', 'x', '>'])

/-- What is used again where `;<y>` is put inside of the first letter: the entry for `x`, at the
place of `y`. -/
theorem seed_threeLetters :
    let parser := Parser.ofCompiled letters
    parser.seed (parser.parse ['<', 'é', '>', '<', 'x', '>'])
        (Edit.replacing ['<', 'é', '>', '<', 'x', '>'] ⟨2, 2⟩ [';', '<', 'y', '>'])
        ['<', 'é', '>', '<', 'x', '>', ';', '<', 'y', '>']
        (letters.tokenize ['<', 'é', '>', '<', 'x', '>', ';', '<', 'y', '>']) = mistaken := by
  intro parser
  have hsame : parser.compiled.sameGrammar
      (parser.parse ['<', 'é', '>', '<', 'x', '>']).compiled = true := letters.sameGrammar_refl
  have hfits : (Edit.replacing ['<', 'é', '>', '<', 'x', '>'] ⟨2, 2⟩ [';', '<', 'y', '>']).fits
      (letters.tokenize ['<', 'é', '>', '<', 'x', '>']).textLength
      (Text.byteLength ['<', 'é', '>', '<', 'x', '>', ';', '<', 'y', '>']) = true := by
    rfl
  have htokens : (parser.parse ['<', 'é', '>', '<', 'x', '>']).tokens =
      letters.tokenize ['<', 'é', '>', '<', 'x', '>'] := rfl
  rw [seed, if_pos hsame, Parse.reusable, htokens, if_pos hfits,
    Parse.unchanged_eq 0 1 0 2 2 4 htokens (by with_unfolding_all decide) (by decide),
    reuse_twoLetters]
  rfl

/-- What a parse of the three letters takes as its first run. -/
def threeScope : RecoveryScope :=
  (Parser.ofCompiled letters).scope ['<', 'é', '>', '<', 'x', '>', ';', '<', 'y', '>']
    (letters.tokenize ['<', 'é', '>', '<', 'x', '>', ';', '<', 'y', '>'])

/-- With the mistake the third letter is found to be an `x`, and the second one is remembered as
well. -/
theorem run_mistaken :
    let ran := threeScope.run [] ⟨threeScope.source.stream [], mistaken, 1, [], false⟩
    ran.1.fragment =
        some ⟨[], [.token ⟨5⟩ ['<', 'é', '>'], .node ⟨8⟩ [.token ⟨5⟩ ['<', 'x', '>']],
          .token ⟨6⟩ [';'], .node ⟨8⟩ [.token ⟨5⟩ ['<', 'x', '>']]]⟩ ∧
      ran.1.overflow = none ∧
      ∀ key entry, ran.2.memo[key]? = some entry ↔ (key, entry) ∈
        [(letterKey 1, letterEntry 1 ['<', 'x', '>']),
          (letterKey 3, letterEntry 3 ['<', 'x', '>'])] := by
  intro ran
  let kept := mistaken.filter fun _ entry =>
    decide (entry.lookahead ≤ commonLength threeLetters threeLetters)
  have hlook : decide (4 ≤ commonLength threeLetters threeLetters) = true := by
    rw [Engine.evaluated_letters.2.2]
    rfl
  have hkept (key : MemoKey) : kept[key]? =
      if letterKey 3 = key then some (letterEntry 3 ['<', 'x', '>']) else none := by
    rw [Std.HashMap.getElem?_filter', mistaken, Std.HashMap.getElem?_insert]
    by_cases hkey : letterKey 3 = key
    · rw [if_pos (by simp [hkey]), if_pos hkey]
      exact Option.filter_eq_some_iff.mpr ⟨rfl, hlook⟩
    · rw [if_neg (by simp [hkey]), if_neg hkey, Std.HashMap.getElem?_empty]
      rfl
  have hunknown : kept[letterKey 1]? = none := by rw [hkept, if_neg (by decide)]
  have hknown : (kept.insert (letterKey 1) (letterEntry 1 ['<', 'x', '>']))[letterKey 3]? =
      some (letterEntry 3 ['<', 'x', '>']) := by
    rw [Std.HashMap.getElem?_insert, if_neg (by decide), hkept, if_pos rfl]
  obtain ⟨hfragment, hoverflow, hmemo⟩ :=
    Engine.run_threeLetters hunknown (Engine.call_remembered hknown 4096 [])
  refine ⟨hfragment, hoverflow, fun key entry => ?_⟩
  show (Engine.run letters .standard threeLetters kept).2[key]? = some entry ↔ _
  rw [hmemo, Std.HashMap.getElem?_insert, hkept]
  rw [List.mem_cons, List.mem_singleton, Prod.mk.injEq, Prod.mk.injEq]
  have hdistinct : letterKey 1 ≠ letterKey 3 := by decide
  by_cases hone : letterKey 1 = key
  · subst hone
    simp only [beq_self_eq_true, if_true, hdistinct, true_and, false_and, or_false]
    exact Option.some_inj.trans eq_comm
  · by_cases hthree : letterKey 3 = key
    · subst hthree
      simp only [beq_iff_eq, hdistinct, hdistinct.symm, if_false, if_true, true_and, false_and,
        false_or]
      exact Option.some_inj.trans eq_comm
    · simp [hone, hthree, Ne.symm hone, Ne.symm hthree]

/-- **A letter that is put inside another one** is not in the tree: what was remembered of the
letter behind that one is used in its place. -/
theorem text_reparse_letters :
    let parser := Parser.ofCompiled letters
    let oldText := ['<', 'é', '>', '<', 'x', '>']
    let edit := Edit.replacing oldText ⟨2, 2⟩ [';', '<', 'y', '>']
    Grammar.letters.compile = .ok parser.compiled ∧
      edit.apply oldText [';', '<', 'y', '>'] =
        ['<', 'é', '>', '<', 'x', '>', ';', '<', 'y', '>'] ∧
      (parser.reparse (parser.parse oldText) edit
        ['<', 'é', '>', '<', 'x', '>', ';', '<', 'y', '>']).tree.text =
          ['<', 'é', '>', '<', 'x', '>', ';', '<', 'x', '>'] := by
  intro parser oldText edit
  refine ⟨Grammar.compile_letters, by decide, ?_⟩
  have hseed : parser.seed (parser.parse oldText) edit
      ['<', 'é', '>', '<', 'x', '>', ';', '<', 'y', '>'] _ = mistaken := seed_threeLetters
  show (threeScope.recover (parser.seed (parser.parse oldText) edit _
    (letters.tokenize _))).tree.text = _
  rw [hseed, @RecoveryScope.recover_of_success threeScope mistaken (by decide) _
    run_mistaken.1]
  show Element.textOfAll (_ ++ ((threeLetters.back?).map (·.leading)).getD []) = _
  rw [Engine.evaluated_letters.2.2]
  rfl

/-! ### A mistake goes on -/

/-- What that parse exports, in some order. -/
theorem reuse_mistaken :
    (threeScope.recover mistaken).reuse.Perm
      [(letterKey 1, letterEntry 1 ['<', 'x', '>']),
        (letterKey 3, letterEntry 3 ['<', 'x', '>'])] := by
  obtain ⟨hfragment, -, hmemo⟩ := run_mistaken
  have hlisted := Memo.toList_perm (by decide) hmemo
  have hboth : [(letterKey 1, letterEntry 1 ['<', 'x', '>']),
        (letterKey 3, letterEntry 3 ['<', 'x', '>'])].filterMap
      (fun one => RecoveryScope.reusable? threeLetters one.1 one.2) =
        [(letterKey 1, letterEntry 1 ['<', 'x', '>']),
          (letterKey 3, letterEntry 3 ['<', 'x', '>'])] := by
    rw [Engine.evaluated_letters.2.2]
    with_unfolding_all decide
  rw [@RecoveryScope.recover_of_success threeScope mistaken (by decide) _ hfragment]
  refine (List.mergeSort_perm ..).trans ?_
  rw [← hboth]
  exact hlisted.filterMap _

/-- What is used again if the second letter is then replaced by itself: the entry for the third
one. -/
theorem seed_mistaken (old : Parse)
    (tokens : old.tokens =
      letters.tokenize ['<', 'é', '>', '<', 'x', '>', ';', '<', 'y', '>'])
    (compiled : old.compiled = letters)
    (reuse : old.reuse.Perm [(letterKey 1, letterEntry 1 ['<', 'x', '>']),
      (letterKey 3, letterEntry 3 ['<', 'x', '>'])]) :
    (Parser.ofCompiled letters).seed old
        (Edit.replacing ['<', 'é', '>', '<', 'x', '>', ';', '<', 'y', '>'] ⟨4, 7⟩ ['<', 'x', '>'])
        ['<', 'é', '>', '<', 'x', '>', ';', '<', 'y', '>']
        (letters.tokenize ['<', 'é', '>', '<', 'x', '>', ';', '<', 'y', '>']) = mistaken := by
  have hsame : (Parser.ofCompiled letters).compiled.sameGrammar old.compiled = true := by
    rw [compiled]
    exact letters.sameGrammar_refl
  have hfits : (Edit.replacing ['<', 'é', '>', '<', 'x', '>', ';', '<', 'y', '>'] ⟨4, 7⟩
      ['<', 'x', '>']).fits
      (letters.tokenize ['<', 'é', '>', '<', 'x', '>', ';', '<', 'y', '>']).textLength
      (Text.byteLength ['<', 'é', '>', '<', 'x', '>', ';', '<', 'y', '>']) = true := by
    rfl
  rw [seed, if_pos hsame, Parse.reusable, tokens, if_pos hfits,
    Parse.unchanged_eq 1 2 1 3 4 4 tokens (by with_unfolding_all decide) (by decide)]
  rcases List.perm_pair.mp reuse with order | order
  · rw [order]
    rfl
  · rw [order]
    rfl

/-- A parse of the three letters from nothing succeeds without a cut. -/
theorem run_fresh :
    let ran := threeScope.run [] ⟨threeScope.source.stream [], ∅, 1, [], false⟩
    ran.1.fragment =
        some ⟨[], [.token ⟨5⟩ ['<', 'é', '>'], .node ⟨8⟩ [.token ⟨5⟩ ['<', 'x', '>']],
          .token ⟨6⟩ [';'], .node ⟨8⟩ [.token ⟨5⟩ ['<', 'y', '>']]]⟩ ∧
      ran.1.overflow = none := by
  intro ran
  have hblank : Memo.Blank ((∅ : Memo).filter fun _ entry =>
      entry.lookahead ≤ commonLength threeLetters threeLetters) :=
    Memo.blank_empty.filter _
  have hthird : (threeLetters[3]?).filter (·.kind = ⟨5⟩) =
      some (Engine.plainToken ⟨5⟩ 3 (some (.token ⟨5⟩ ['<', 'y', '>']))) := by
    rw [Engine.evaluated_letters.2.2]; rfl
  have hunknown : (Std.HashMap.insert ((∅ : Memo).filter fun _ entry =>
      entry.lookahead ≤ commonLength threeLetters threeLetters) (letterKey 1)
        (letterEntry 1 ['<', 'x', '>']))[letterKey 3]? = none := by
    rw [Std.HashMap.getElem?_insert, if_neg (by decide), hblank]
  obtain ⟨hfragment, hoverflow, -⟩ := Engine.run_threeLetters (hblank _)
    (Engine.call_letter hthird ⟨rfl, rfl⟩ hunknown 4095 [])
  exact ⟨hfragment, hoverflow⟩

/-- **A mistake goes on.**  Something is put inside a letter, and then another letter is replaced
by itself.  The parse after that has the mistake of the parse before, and a parse of the text does
not. -/
theorem reparse_ne_parse_letters :
    let parser := Parser.ofCompiled letters
    let text := ['<', 'é', '>', '<', 'x', '>', ';', '<', 'y', '>']
    let inside : Replacement := ⟨['<', 'é', '>', '<', 'x', '>'], ⟨2, 2⟩, [';', '<', 'y', '>']⟩
    let edit := Edit.replacing text ⟨4, 7⟩ ['<', 'x', '>']
    ∃ old, Grammar.letters.compile = .ok parser.compiled ∧
      Made parser.compiled [inside] text old ∧
      Text.isBoundary text 4 = true ∧ Text.isBoundary text 7 = true ∧
      edit.apply text ['<', 'x', '>'] = text ∧
      (∀ outcome ∈ parser.outcomes text
        (parser.seed old edit text (parser.compiled.tokenize text)), outcome.overflow = none) ∧
      (∀ outcome ∈ parser.outcomes text ∅, outcome.overflow = none) ∧
      (parser.reparse old edit text).tree ≠ (parser.parse text).tree := by
  intro parser text inside edit
  let old := parser.reparse (parser.parse inside.text) inside.edit text
  have hmade : Made parser.compiled [inside] text old :=
    .reparse .standard inside (.parse .standard inside.text)
  have hfirst : parser.seed (parser.parse inside.text) inside.edit text
      (letters.tokenize text) = mistaken := seed_threeLetters
  have hreuse : old.reuse = (threeScope.recover (parser.seed (parser.parse inside.text) inside.edit
      text (letters.tokenize text))).reuse := rfl
  rw [hfirst] at hreuse
  have hseed : parser.seed old edit text (parser.compiled.tokenize text) = mistaken :=
    seed_mistaken old rfl rfl (hreuse ▸ reuse_mistaken)
  obtain ⟨hfragment, hoverflow, -⟩ := run_mistaken
  obtain ⟨hfragment', hoverflow'⟩ := run_fresh
  have hrecover := @RecoveryScope.recover_of_success threeScope mistaken (by decide) _ hfragment
  have hrecover' := @RecoveryScope.recover_of_success threeScope ∅ (by decide) _ hfragment'
  refine ⟨old, Grammar.compile_letters, hmade, by decide, by decide, by decide, ?_, ?_, ?_⟩
  · rw [hseed]
    show ∀ outcome ∈ (threeScope.recover mistaken).outcomes, outcome.overflow = none
    rw [hrecover]
    exact List.forall_mem_singleton.mpr hoverflow
  · show ∀ outcome ∈ (threeScope.recover ∅).outcomes, outcome.overflow = none
    rw [hrecover']
    exact List.forall_mem_singleton.mpr hoverflow'
  · show (threeScope.recover (parser.seed old edit text (letters.tokenize text))).tree ≠
      (threeScope.recover ∅).tree
    rw [show parser.seed old edit text (letters.tokenize text) = mistaken from hseed, hrecover,
      hrecover']
    intro heq
    have htexts := congrArg Element.text heq
    simp [RecoveryScope.succeed, RecoveryScope.finish, Element.text, Element.textOfAll] at htexts

end Parser

end Syntagm
