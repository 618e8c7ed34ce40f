import Syntagm.Parse.Parser
import Syntagm.Proofs.Recovery
import Syntagm.Proofs.Sites

/-!
# Parsing in either arithmetic

A program that goes on where a sum is no word gives what `Parser.parse` says, and one that checks
its sums gives the same as long as it gives something (`Parser.eq_parse_of_parse?`).  So all that
holds of a parse holds of what either of them gives.

It always gives something if the window behind the last token is no wider than the words allow
(`Parser.HasRoom`), or if the grammar names tokens to resume at, since no window is formed then.
-/

namespace Syntagm

namespace Parser

variable {parser : Parser} {arithmetic : Arithmetic} {text : List Char} {tokens : Tokens}

/-! ### What is given -/

theorem parse?_wrapping (parser : Parser) (text : List Char) :
    parser.parse? .wrapping text = some (parser.parse text) :=
  rfl

theorem eq_parseWith_of_parseWith? {seed : Memo} {given : Parse}
    (gives : parser.parseWith? arithmetic text tokens seed = some given) :
    given = parser.parseWith text tokens seed :=
  Arithmetic.eq_of_result? gives

/-- **What is given is the parse**, in either arithmetic. -/
theorem eq_parse_of_parse? {given : Parse} (gives : parser.parse? arithmetic text = some given) :
    given = parser.parse text :=
  eq_parseWith_of_parseWith? gives

theorem eq_parseTokens_of_parseTokens? {given : Parse}
    (gives : parser.parseTokens? arithmetic text tokens = some given) :
    given = parser.parseTokens text tokens := by
  unfold parseTokens? at gives
  unfold parseTokens
  split
  · rename_i covers
    rw [if_pos covers] at gives
    exact eq_parseWith_of_parseWith? gives
  · rename_i foreign
    rw [if_neg foreign] at gives
    exact eq_parse_of_parse? gives

/-- Whether a program stops depends on what becomes of its sums only. -/
theorem isSome_parseWith?_eq {other : Parser} {otherText : List Char} {otherTokens : Tokens}
    {seed otherSeed : Memo}
    (same : ((parser.scope text tokens).recover seed).strayed =
      ((other.scope otherText otherTokens).recover otherSeed).strayed) :
    (parser.parseWith? arithmetic text tokens seed).isSome =
      (other.parseWith? arithmetic otherText otherTokens otherSeed).isSome := by
  simp only [parseWith?, same]
  exact Arithmetic.isSome_result? ..

/-! ### That something is given -/

/-- The window behind the last one of some tokens is no wider than the words allow, where sums are
checked and windows are formed. -/
def HasRoom (parser : Parser) (arithmetic : Arithmetic) (tokens : Tokens) : Prop :=
  arithmetic = .checked → parser.compiled.sync.isEmpty = true →
    tokens.significant.length + parser.options.syncWindow ≤ UInt64.size

theorem isSome_parseWith? (room : parser.HasRoom arithmetic tokens) (seed : Memo) :
    (parser.parseWith? arithmetic text tokens seed).isSome = true := by
  unfold parseWith?
  cases arithmetic with
  | wrapping => rfl
  | checked =>
    have hkept : ((parser.scope text tokens).recover seed).strayed = false := by
      rw [Bool.eq_false_iff]
      intro hstrayed
      refine RecoveryScope.not_canStray (fun sync => ?_)
        (RecoveryScope.canStray_of_strayed_recover hstrayed)
      rw [scope, Source.size_ofTokens]
      exact room rfl sync
    rw [Arithmetic.result?_of_not_strayed hkept]
    rfl

/-- **A text is parsed** in either arithmetic, if there is room for the window. -/
theorem isSome_parse? (room : parser.HasRoom arithmetic (parser.compiled.tokenize text)) :
    (parser.parse? arithmetic text).isSome = true :=
  isSome_parseWith? room ∅

theorem parse?_eq_parse (room : parser.HasRoom arithmetic (parser.compiled.tokenize text)) :
    parser.parse? arithmetic text = some (parser.parse text) := by
  obtain ⟨given, gives⟩ := Option.isSome_iff_exists.mp (isSome_parse? room)
  rw [gives, eq_parse_of_parse? gives]

theorem isSome_parseTokens? (given : parser.HasRoom arithmetic tokens)
    (own : parser.HasRoom arithmetic (parser.compiled.tokenize text)) :
    (parser.parseTokens? arithmetic text tokens).isSome = true := by
  unfold parseTokens?
  split
  · exact isSome_parseWith? given ∅
  · exact isSome_parse? own

end Parser

end Syntagm
