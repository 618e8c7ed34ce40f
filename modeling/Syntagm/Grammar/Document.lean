import Syntagm.Grammar.Basic
import Syntagm.Grammar.Notation.Parser
import Syntagm.Json.Parser

/-!
# Grammar documents

A grammar can be written as a JSON document: an object with a name, an object of rules, and
optionally a word rule, extras, conflicts and rules to inline.  Each rule is an object whose
`type` says which kind of expression it is.  `FIELD` and `ALIAS` say how a node is called and
leave no trace in the grammar; extras that are not references become hidden rules of their
own.

Objects may also be written as arrays that list the values of the fields in their fixed order.
-/

namespace Syntagm.Document

/-! ### Fields -/

/-- The value of the member of this name, which must be there exactly once. -/
def field? (members : List (String × Json)) (name : String) : Option Json :=
  match members.filter (·.1 == name) with
  | [(_, value)] => some value
  | _ => none

/-- The values of the fields with these names, in this order. -/
def fields? (members : List (String × Json)) (names : List String) : Option (List Json) :=
  names.mapM (field? members)

/-- The strings of an array of strings. -/
def strings? (value : Json) : Option (List String) := do
  (← value.array?).mapM Json.string?

/-! ### Rules -/

/-- The fields of each type of rule. -/
def fieldsOfType? : String → Option (List String)
  | "STRING" | "PATTERN" => some ["value"]
  | "SYMBOL" => some ["name"]
  | "SEQ" | "CHOICE" => some ["members"]
  | "BLANK" => some []
  | "REPEAT" | "REPEAT1" | "TOKEN" | "IMMEDIATE_TOKEN" | "PREC_DYNAMIC" | "FIELD" | "ALIAS" =>
    some ["content"]
  | "PREC" | "PREC_LEFT" | "PREC_RIGHT" => some ["value", "content"]
  | _ => none

/-- The type of a rule and the values of its fields. -/
def typeAndFields? : Json → Option (String × List Json)
  | .object members => do
    let type ← (← field? members "type").string?
    return (type, ← fields? members (← fieldsOfType? type))
  | .array (type :: values) => do
    let type ← type.string?
    if (← fieldsOfType? type).length = values.length then return (type, values) else none
  | _ => none

/-- A precedence level: an integer in range; names and all other values count as zero. -/
def levelOf : Json → Int
  | .integer value =>
    if leastLevel ≤ value ∧ value ≤ greatestLevel then value else 0
  | _ => 0

/-- The expression of a choice, given its alternatives and whether the last of them is
`BLANK`, which makes those in front of it optional. -/
def choiceOf (alternatives : List Expression) (blankLast : Bool) : Expression :=
  if blankLast && alternatives.length > 1 then
    match alternatives.dropLast with
    | [single] => .optional single
    | several => .optional (.choice several)
  else .choice alternatives

/-- Whether a value is a rule of this type. -/
def hasType (type : String) (value : Json) : Bool :=
  (typeAndFields? value).any (·.1 == type)

/-- The expression a rule describes; `depth` bounds how deep rules are inside one another. -/
def expressionWithin? : (depth : Nat) → Json → Option Expression
  | 0, _ => none
  | depth + 1, value => do
    match ← typeAndFields? value with
    | ("STRING", [value]) => return .literal (← value.string?)
    | ("PATTERN", [value]) => return .pattern (← value.string?)
    | ("SYMBOL", [name]) => return .reference (← name.string?)
    | ("SEQ", [members]) =>
      return .seq (← (← members.array?).mapM (expressionWithin? depth))
    | ("CHOICE", [members]) =>
      let members ← members.array?
      return choiceOf (← members.mapM (expressionWithin? depth))
        (members.getLast?.any (hasType "BLANK"))
    | ("BLANK", []) => return .blank
    | ("REPEAT", [content]) => return .repetition 0 (← expressionWithin? depth content)
    | ("REPEAT1", [content]) => return .repetition 1 (← expressionWithin? depth content)
    | ("TOKEN", [content]) | ("IMMEDIATE_TOKEN", [content]) =>
      return .token (← expressionWithin? depth content)
    | ("PREC", [level, content]) =>
      return .precedence (levelOf level) .none (← expressionWithin? depth content)
    | ("PREC_LEFT", [level, content]) =>
      return .precedence (levelOf level) .left (← expressionWithin? depth content)
    | ("PREC_RIGHT", [level, content]) =>
      return .precedence (levelOf level) .right (← expressionWithin? depth content)
    | (_, [content]) => expressionWithin? depth content
    | _ => none

/-- The expression a rule describes. -/
def expression? (value : Json) : Option Expression :=
  expressionWithin? (value.depth + 1) value

/-! ### Documents -/

/-- What a document says, its rules not yet read. -/
structure Contents where
  name : String
  word : Option String
  rules : List (String × Json)
  extras : List (Option String × Expression)
  conflicts : List (List String)
  inline : List String

/-- The fields of a document, and whether each may be missing. -/
def documentFields : List (String × Bool) :=
  [("name", false), ("word", true), ("rules", false), ("extras", true), ("conflicts", true),
   ("inline", true)]

/-- An extra: the name it refers to, if it is a reference, and its expression. -/
def extra? (value : Json) : Option (Option String × Expression) := do
  match ← expression? value with
  | .reference name =>
    return (if hasType "SYMBOL" value then some name else none, .reference name)
  | other => return (none, other)

/-- How deep arrays and objects may be inside one another. -/
def greatestDepth : Nat := 127

/-- The values of the fields of a document that are there, each with its name.  Members of
other names do not count, whatever they hold. -/
def presentFields? : Json → Option (List (String × Json))
  | .object members =>
    let known := members.filter fun member => documentFields.any (·.1 == member.1)
    if known.all (fun member => member.2.isSound && member.2.depth < greatestDepth) &&
        documentFields.all fun (name, optional) =>
          let count := (known.filter (·.1 == name)).length
          count == 1 || (count == 0 && optional)
    then some known else none
  | .array values =>
    if (Json.array values).isSound && (Json.array values).depth ≤ greatestDepth &&
        values.length ≤ documentFields.length &&
        (documentFields.drop values.length).all (·.2)
    then some ((documentFields.map (·.1)).zip values) else none
  | _ => none

/-- The contents of a document. -/
def contents? (document : Json) : Option Contents := do
  let fields ← presentFields? document
  let name ← (← fields.lookup "name").string?
  let word ← match fields.lookup "word" with
    | none | some .null => some none
    | some value => value.string?.map some
  let rules ← match ← fields.lookup "rules" with
    | .object members => some members
    | _ => none
  let extras ← match fields.lookup "extras" with
    | none => some []
    | some value => do (← value.array?).mapM extra?
  let conflicts ← match fields.lookup "conflicts" with
    | none => some []
    | some value => do (← value.array?).mapM strings?
  let inline ← match fields.lookup "inline" with
    | none => some []
    | some value => strings? value
  return { name, word, rules, extras, conflicts, inline }

/-- Adds the rules of a document, in order. -/
def addRules (grammar : Grammar) : List (String × Json) → Except GrammarError Grammar
  | [] => .ok grammar
  | (name, value) :: rest =>
    match expression? value.withoutRepeats with
    | none => .error (.malformedDocument (some name))
    | some body => do addRules (← grammar.define name body) rest

/-- Marks the extras of a document, counted from `index`; those that are no references become
rules of their own. -/
def addExtras (grammar : Grammar) (index : Nat) :
    List (Option String × Expression) → Except GrammarError Grammar
  | [] => .ok grammar
  | (some name, _) :: rest => addExtras (grammar.markExtra name) (index + 1) rest
  | (none, body) :: rest => do
    let name := s!"_extra_{index}"
    let grammar ← grammar.define name body
    addExtras (grammar.markExtra name) (index + 1) rest

/-- The grammar with these contents.  Its first rule is the start rule. -/
def Contents.grammar (contents : Contents) : Except GrammarError Grammar := do
  let grammar ← addRules (Grammar.empty contents.name) (Json.dropRepeats contents.rules)
  let grammar := grammar.startAtFirstRule
  let grammar := { grammar with word := contents.word }
  let grammar ← addExtras grammar 0 contents.extras
  let grammar := contents.conflicts.foldl Grammar.addConflict grammar
  return contents.inline.foldl Grammar.markHidden grammar

end Syntagm.Document

namespace Syntagm.Grammar

/-- The grammar that a JSON document describes. -/
def ofDocument (text : String) : Except GrammarError Grammar :=
  match (Json.parse? text.toList).bind Document.contents? with
  | some contents => contents.grammar
  | none => .error (.malformedDocument none)

end Syntagm.Grammar
