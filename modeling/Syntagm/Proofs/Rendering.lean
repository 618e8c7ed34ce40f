import Syntagm.Grammar.Notation.Parser

/-!
# Writing a grammar down

A grammar is written as tokens of the notation: a directive for each thing that holds for the
grammar as a whole, and then its rules (`grammarTokens`).

**Parentheses.**  A `Layout` says where parentheses are put.  Composite expressions need them
wherever a single item is expected.  A reference that is named like a builtin is read as a call
of that builtin if a parenthesis follows it, so it needs them there too.  A layout that sees to
both is *readable*, however many parentheses it adds.
-/

namespace Syntagm

namespace Expression

/-- Whether an expression is no single item by itself. -/
def isComposite : Expression → Bool
  | .seq _ | .choice _ | .repetition .. | .optional _ => true
  | _ => false

/-- Whether an expression is a reference to a rule that is named like a builtin. -/
def isNamedLikeBuiltin : Expression → Bool
  | .reference name => Notation.builtins.contains name
  | _ => false

mutual

/-- Whether the notation has a form for an expression.  Sequences and choices of less than two
parts are read as something else, and there is no form for more than one needed repetition. -/
def isExpressible : Expression → Bool
  | .seq items => 2 ≤ items.length && areExpressible items
  | .choice alternatives => 2 ≤ alternatives.length && areExpressible alternatives
  | .repetition least inner => least ≤ 1 && isExpressible inner
  | .precedence level _ inner =>
    leastLevel ≤ level && level ≤ greatestLevel && isExpressible inner
  | .optional inner | .token inner => isExpressible inner
  | .literal _ | .pattern _ | .reference _ | .blank | .nested .. | .delimited .. | .quoted .. =>
    true

/-- Whether the notation has forms for all expressions of a list. -/
def areExpressible : List Expression → Bool
  | [] => true
  | first :: rest => isExpressible first && areExpressible rest

end

end Expression

namespace Notation

/-! ### Tokens for texts and numbers -/

/-- The content of the string token for a text: backslashes and quotes are escaped. -/
def escapeString (text : List Char) : List Char :=
  text.flatMap fun c => if c = '\\' ∨ c = '"' then ['\\', c] else [c]

/-- The content of the pattern token for a pattern: slashes are escaped. -/
def escapePattern (source : List Char) : List Char :=
  source.flatMap fun c => if c = '/' then ['\\', c] else [c]

def stringToken (text : String) : Token := .string (String.ofList (escapeString text.toList))

def patternToken (source : String) : Token :=
  .pattern (String.ofList (escapePattern source.toList))

def levelToken (level : Int) : Token := .integer (level < 0) (toString level.natAbs)

theorem unescapeString_cons {c : Char} (plain : c ≠ '\\') (rest : List Char) :
    unescapeString (c :: rest) = (unescapeString rest).map (c :: ·) := by
  rw [unescapeString.eq_def]
  split <;> simp_all

theorem unescapeString_escapeString (text : List Char) :
    unescapeString (escapeString text) = some text := by
  induction text with
  | nil => simp [escapeString, unescapeString]
  | cons c rest ih =>
    rw [escapeString, List.flatMap_cons]
    split
    · rename_i hc
      rcases hc with rfl | rfl
      · rw [List.cons_append, List.singleton_append, unescapeString]
        exact congrArg (Option.map _) ih
      · rw [List.cons_append, List.singleton_append, unescapeString]
        exact congrArg (Option.map _) ih
    · rename_i hc
      rw [List.singleton_append, unescapeString_cons fun h => hc (.inl h)]
      exact congrArg (Option.map _) ih

theorem unescapePattern_cons {c : Char} {rest : List Char} (open_ : rest.head? ≠ some '/') :
    unescapePattern (c :: rest) = c :: unescapePattern rest := by
  rw [unescapePattern.eq_def]
  split <;> simp_all

/-- An escaped pattern does not start with a slash, so a backslash in front of it is none that
escapes one. -/
theorem head?_escapePattern (source : List Char) : (escapePattern source).head? ≠ some '/' := by
  cases source with
  | nil => simp [escapePattern]
  | cons c rest =>
    rw [escapePattern, List.flatMap_cons]
    split
    · simp
    · simpa using ‹¬ c = '/'›

theorem unescapePattern_escapePattern (source : List Char) :
    unescapePattern (escapePattern source) = source := by
  induction source with
  | nil => rfl
  | cons c rest ih =>
    have hrest := head?_escapePattern rest
    rw [escapePattern, List.flatMap_cons]
    split
    · rename_i hc
      subst hc
      exact congrArg ('/' :: ·) ih
    · rw [List.singleton_append]
      exact (unescapePattern_cons hrest).trans (congrArg (c :: ·) ih)

/-- The digits of a number denote it. -/
theorem decimalNumber_toString (n : Nat) : Text.decimalNumber (toString n).toList = n := by
  have hdigits : (toString n).toList = Nat.toDigits 10 n := by
    rw [show toString n = String.ofList (Nat.toDigits 10 n) from rfl, String.toList_ofList]
  rw [hdigits]
  exact Nat.ofDigitChars_toDigits (by decide) (by decide)

/-! ### Tokens for expressions -/

/-- Where a rendering puts parentheses. -/
structure Layout where
  /-- The parts of expressions that are in parentheses. -/
  enclosed : Expression → Bool
  /-- The arguments of builtins that are in parentheses of their own. -/
  doubled : Expression → Bool
  /-- Whether references that would be read as calls are in parentheses. -/
  guarded : Bool

namespace Layout

/-- Parentheses around everything composite, and no others. -/
def plain : Layout := ⟨Expression.isComposite, Expression.isComposite, false⟩

/-- What a rendering needs to be read as it was meant. -/
structure IsReadable (layout : Layout) : Prop where
  composite : ∀ expression : Expression,
    expression.isComposite = true → layout.enclosed expression = true
  guarded : layout.guarded = true

end Layout

/-- The name of the builtin for a precedence. -/
def precedenceName : Associativity → String
  | .none => "prec"
  | .left => "prec_left"
  | .right => "prec_right"

def inParentheses (tokens : List Token) : List Token := .mark '(' :: tokens ++ [.mark ')']

/-- Tokens in parentheses, if need be. -/
def enclose (needed : Bool) (tokens : List Token) : List Token :=
  if needed then inParentheses tokens else tokens

/-- A call of a builtin. -/
def callTokens (name : String) (arguments : List Token) : List Token :=
  .identifier name :: inParentheses arguments

/-- Whether tokens start with a parenthesis. -/
def opens (tokens : List Token) : Bool := tokens.head? == some (.mark '(')

section Rendering
variable (layout : Layout)

mutual

/-- The tokens for an expression that stands by itself. -/
def bodyTokens : Expression → List Token
  | .literal text => [stringToken text]
  | .pattern source => [patternToken source]
  | .seq items => itemsTokens items
  | .choice alternatives => alternativesTokens alternatives
  | .repetition least inner =>
    enclose (layout.enclosed inner) (bodyTokens inner) ++ [.mark (if least = 0 then '*' else '+')]
  | .optional inner => enclose (layout.enclosed inner) (bodyTokens inner) ++ [.mark '?']
  | .reference name => [.identifier name]
  | .blank => callTokens "blank" []
  | .token inner => callTokens "token" (enclose (layout.doubled inner) (bodyTokens inner))
  | .precedence level associativity inner =>
    callTokens (precedenceName associativity)
      (levelToken level :: .mark ',' :: enclose (layout.doubled inner) (bodyTokens inner))
  | .nested opening closing =>
    callTokens "nested" [stringToken opening, .mark ',', stringToken closing]
  | .delimited opening closing =>
    callTokens "delimited" [stringToken opening, .mark ',', stringToken closing]
  | .quoted opening closing =>
    callTokens "quoted" [stringToken opening, .mark ',', stringToken closing]

/-- The tokens for the items of a sequence. -/
def itemsTokens : List Expression → List Token
  | [] => []
  | item :: rest =>
    let behind := itemsTokens rest
    let called := layout.guarded && item.isNamedLikeBuiltin && opens behind
    enclose (layout.enclosed item || called) (bodyTokens item) ++ behind

/-- The tokens for the alternatives of a choice. -/
def alternativesTokens : List Expression → List Token
  | [] => []
  | [last] => enclose (layout.enclosed last) (bodyTokens last)
  | first :: second :: rest =>
    enclose (layout.enclosed first) (bodyTokens first) ++
      .mark '|' :: alternativesTokens (second :: rest)

end

attribute [simp] bodyTokens itemsTokens alternativesTokens

/-! ### Tokens for grammars -/

/-- The tokens for a rule. -/
def ruleTokens (name : String) (body : Expression) : List Token :=
  .identifier name :: .mark ':' :: bodyTokens layout body ++ [.mark ';']

/-- The tokens for rules. -/
def rulesTokens (rules : List (String × Expression)) : List Token :=
  rules.flatMap fun (name, body) => ruleTokens layout name body

end Rendering

/-- What a directive sets. -/
inductive Directive where
  | name
  | start
  | word
  | extras
  | hidden
  | sync
  | conflicts
  | endMarkers
  deriving DecidableEq, Repr

namespace Directive

def all : List Directive := [name, start, word, extras, hidden, sync, conflicts, endMarkers]

/-- The name of a directive in the notation. -/
def spelling : Directive → String
  | name => "name"
  | start => "start"
  | word => "word"
  | extras => "extras"
  | hidden => "hidden"
  | sync => "sync"
  | conflicts => "conflicts"
  | endMarkers => "end_markers"

/-- The arguments of a directive, unless the grammar does not have what it sets. -/
def arguments? (grammar : Grammar) : Directive → Option (List Token)
  | name => some [stringToken grammar.name]
  | start => grammar.start.map fun rule => [.identifier rule]
  | word => grammar.word.map fun rule => [.identifier rule]
  | extras => some (grammar.extras.map .identifier)
  | hidden => some (grammar.hidden.map .identifier)
  | sync => some (grammar.sync.map stringToken)
  | conflicts =>
    some (grammar.conflicts.flatMap fun names => inParentheses (names.map .identifier))
  | endMarkers => some [stringToken (String.ofList grammar.endMarkers)]

/-- The tokens for a directive with its arguments. -/
def tokens (grammar : Grammar) (directive : Directive) : List Token :=
  match directive.arguments? grammar with
  | some arguments => .directive directive.spelling :: arguments
  | none => []

/-- Takes what a directive sets over from another grammar. -/
def copy (source target : Grammar) : Directive → Grammar
  | name => { target with name := source.name }
  | start => { target with start := source.start }
  | word => { target with word := source.word }
  | extras => { target with extras := source.extras }
  | hidden => { target with hidden := source.hidden }
  | sync => { target with sync := source.sync }
  | conflicts => { target with conflicts := source.conflicts }
  | endMarkers => { target with endMarkers := source.endMarkers }

end Directive

/-- **A grammar as tokens**: directives, and the rules in their order. -/
def grammarTokens (layout : Layout) (directives : List Directive) (grammar : Grammar) :
    List Token :=
  directives.flatMap (Directive.tokens grammar) ++ rulesTokens layout grammar.rules

end Notation

end Syntagm
