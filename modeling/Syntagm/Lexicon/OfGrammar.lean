import Syntagm.Lexicon.Expansion
import Syntagm.Lexicon.Scan
import Syntagm.Lexicon.TokenRules

/-!
# The lexicon of a grammar

Terminals get their kinds in this order: first the token rules that are in use, as they are
declared; then, in the order of the other rules, the literals and terminals written out in
them, each when it is met for the first time.

When the word terminal is a pattern, every literal that looks like an identifier and that
this pattern matches as a whole becomes a keyword.
-/

namespace Syntagm

/-- A lexicon and the table of the kinds it has used so far. -/
structure Lexicon.Draft where
  lexicon : Lexicon
  kinds : KindTable
  deriving Inhabited

namespace Lexicon.Draft

/-- Adds a terminal that is a rule. -/
def addNamed (draft : Draft) (name : String) (matcher : Matcher) (hidden extra : Bool) : Draft :=
  let kind := draft.kinds.next
  let terminal : Terminal := ⟨kind, name, matcher, extra, false⟩
  let lexicon := draft.lexicon
  let extras := if extra then lexicon.extras.insert kind else lexicon.extras
  { kinds := draft.kinds.add name (.token hidden)
    lexicon := { lexicon with
      terminals := lexicon.terminals ++ [terminal]
      named := lexicon.named ++ [(name, kind)]
      extras := extras } }

/-- Adds a text as a terminal. -/
def addLiteral (draft : Draft) (text : String) : Draft :=
  let kind := draft.kinds.next
  let terminal : Terminal := ⟨kind, text, .literal text, false, false⟩
  let lexicon := draft.lexicon
  { kinds := draft.kinds.add text (.literal (Unicode.isIdentifier text.toList))
    lexicon := { lexicon with
      terminals := lexicon.terminals ++ [terminal]
      literals := lexicon.literals ++ [(text, kind)] } }

/-- Adds a terminal that is written out in a rule. -/
def addInline (draft : Draft) (expression : Expression) (name : String) (matcher : Matcher) :
    Draft :=
  let kind := draft.kinds.next
  let terminal : Terminal := ⟨kind, name, matcher, false, false⟩
  let lexicon := draft.lexicon
  { kinds := draft.kinds.add name (.token true)
    lexicon := { lexicon with
      terminals := lexicon.terminals ++ [terminal]
      inline := lexicon.inline ++ [(expression, kind)] } }

end Lexicon.Draft

namespace Grammar

/-! ### Token rules -/

/-- Whether a token rule is in use: as an extra, as the word rule, or from a rule that is no
token rule. -/
def usesToken (grammar : Grammar) (tokens : List String) (name : String) : Bool :=
  grammar.allowsLiteral name || grammar.rules.any fun (rule, body) =>
    !tokens.contains rule && body.references.contains name

/-- Adds the token rules of a list that are in use. -/
def addTokenRules (grammar : Grammar) (tokens : List String) :
    List (String × Expression) → Lexicon.Draft → Except GrammarError Lexicon.Draft
  | [], draft => .ok draft
  | (name, body) :: rest, draft =>
    if tokens.contains name && grammar.usesToken tokens name then do
      let matcher ← grammar.terminalMatcher name body.withoutPrecedence
      let extra := grammar.isExtra name
      let hidden := grammar.isHidden name || extra
      grammar.addTokenRules tokens rest (draft.addNamed name matcher hidden extra)
    else grammar.addTokenRules tokens rest draft

/-! ### Terminals in other rules -/

/-- The name of a terminal that is written out in a rule. -/
def inlineName (rule : String) : Expression → String
  | .pattern source => "/" ++ source ++ "/"
  | .nested opening closing | .quoted opening closing | .delimited opening closing =>
    opening ++ "..." ++ closing
  | _ => rule ++ "_token"

mutual

/-- Adds the terminals in an expression of a rule. -/
def addTerminals (grammar : Grammar) (rule : String) (expression : Expression)
    (draft : Lexicon.Draft) : Except GrammarError Lexicon.Draft :=
  match expression with
  | .literal text =>
    if text.isEmpty then .error (.invalidToken rule .emptyLiteral)
    else if (draft.lexicon.literal? text).isSome then .ok draft
    else .ok (draft.addLiteral text)
  | .pattern _ | .token _ | .nested .. | .delimited .. | .quoted .. =>
    if (draft.lexicon.inline? expression).isSome then .ok draft
    else do
      let matcher ← grammar.terminalMatcher rule expression
      return draft.addInline expression (inlineName rule expression) matcher
  | .seq items => grammar.addAllTerminals rule items draft
  | .choice alternatives => grammar.addAllTerminals rule alternatives draft
  | .repetition _ inner => grammar.addTerminals rule inner draft
  | .optional inner => grammar.addTerminals rule inner draft
  | .precedence _ _ inner => grammar.addTerminals rule inner draft
  | .reference _ | .blank => .ok draft

/-- Adds the terminals in the expressions of a list. -/
def addAllTerminals (grammar : Grammar) (rule : String) (expressions : List Expression)
    (draft : Lexicon.Draft) : Except GrammarError Lexicon.Draft :=
  match expressions with
  | [] => .ok draft
  | first :: rest => do
    grammar.addAllTerminals rule rest (← grammar.addTerminals rule first draft)

end

/-- Adds the terminals in those rules of a list that are no token rules. -/
def addRuleTerminals (grammar : Grammar) (tokens : List String) :
    List (String × Expression) → Lexicon.Draft → Except GrammarError Lexicon.Draft
  | [], draft => .ok draft
  | (name, body) :: rest, draft =>
    if tokens.contains name then grammar.addRuleTerminals tokens rest draft
    else do grammar.addRuleTerminals tokens rest (← grammar.addTerminals name body draft)

end Grammar

namespace Lexicon

/-! ### Keywords -/

/-- Whether a terminal is a literal that the pattern of the word terminal covers. -/
def isCovered (word : Kind) (pattern : Pattern) (terminal : Terminal) : Bool :=
  match terminal.matcher with
  | .literal text =>
    terminal.kind != word && !terminal.isExtra && Unicode.isIdentifier text.toList &&
      pattern.longest? Unicode.isWordCharacter text.toList == some text.toList.length
  | _ => false

/-- Makes a terminal a keyword; of two with the same text the later one counts. -/
def addKeyword (keywords : List (String × Kind)) (terminal : Terminal) : List (String × Kind) :=
  match terminal.matcher with
  | .literal text => (text, terminal.kind) :: keywords.filter (·.1 != text)
  | _ => keywords

/-- The word terminal and its pattern, if it is one. -/
def wordPattern? (lexicon : Lexicon) : Option (Kind × Pattern) := do
  let word ← lexicon.word
  match (← lexicon.terminal? word).matcher with
  | .pattern pattern => some (word, pattern)
  | _ => none

/-- Makes keywords of the literals that the word terminal covers. -/
def withKeywords (lexicon : Lexicon) : Lexicon :=
  match lexicon.wordPattern? with
  | some (word, pattern) =>
    let covered := isCovered word pattern
    { lexicon with
      terminals := lexicon.terminals.map fun terminal =>
        if covered terminal then { terminal with isKeyword := true } else terminal
      keywords := (lexicon.terminals.filter covered).foldl addKeyword [] }
  | none => lexicon

/-! ### The whole lexicon -/

/-- The lexicon of a grammar with the given token rules, and the table of its kinds.  Extras
and the word rule have to be token rules. -/
def ofGrammar (grammar : Grammar) (tokens : List String) : Except GrammarError Draft := do
  if let some extra := grammar.extras.find? (!tokens.contains ·) then
    throw (.invalidExtra extra)
  if let some word := grammar.word then
    if !tokens.contains word then throw (.invalidWord word)
  let draft ← grammar.addTokenRules tokens grammar.rules
    ⟨empty grammar.endMarkers, KindTable.reserved⟩
  let word := grammar.word.bind draft.lexicon.named?
  let draft := { draft with lexicon := { draft.lexicon with word := word } }
  let draft ← grammar.addRuleTerminals tokens grammar.rules draft
  return { draft with lexicon := draft.lexicon.withKeywords }

end Lexicon

end Syntagm
