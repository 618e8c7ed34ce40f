import Syntagm.Text.Basic

/-!
# Diagnostics

What is wrong with a text, where, and how parsing went on.  Each diagnostic has a code: those
of the first group come from lexing, the others from parsing.
-/

namespace Syntagm

/-- What a diagnostic is about. -/
inductive DiagnosticCode where
  /-- Characters that no terminal matches. -/
  | unrecognized
  /-- A delimited or quoted string that is not closed. -/
  | unterminatedString
  /-- A block that is not closed. -/
  | unterminatedBlock
  /-- A token that fits nowhere. -/
  | unexpectedToken
  /-- A token that the input lacks. -/
  | missingToken
  /-- Input that ends too early. -/
  | unexpectedEnd
  /-- Input that cannot be parsed at all. -/
  | unparsable
  /-- Nesting beyond the limit. -/
  | tooDeep
  deriving DecidableEq, Repr, Inhabited, Hashable

namespace DiagnosticCode

/-- All codes in order. -/
def all : List DiagnosticCode :=
  [.unrecognized, .unterminatedString, .unterminatedBlock, .unexpectedToken, .missingToken,
    .unexpectedEnd, .unparsable, .tooDeep]

/-- The short form of a code. -/
def text : DiagnosticCode → String
  | .unrecognized => "E0101"
  | .unterminatedString => "E0102"
  | .unterminatedBlock => "E0103"
  | .unexpectedToken => "E0201"
  | .missingToken => "E0202"
  | .unexpectedEnd => "E0203"
  | .unparsable => "E0204"
  | .tooDeep => "E0205"

/-- Whether diagnostics with the code come from lexing. -/
def isLexical : DiagnosticCode → Bool
  | .unrecognized | .unterminatedString | .unterminatedBlock => true
  | _ => false

/-- The group of a code in words. -/
def category (code : DiagnosticCode) : String :=
  if code.isLexical then "lexical error" else "syntax error"

/-- The message of a diagnostic that has no other. -/
def defaultMessage : DiagnosticCode → String
  | .unrecognized => "unrecognized character"
  | .unterminatedString => "unterminated string"
  | .unterminatedBlock => "unterminated block comment"
  | .unexpectedToken => "unexpected token"
  | .missingToken => "missing token"
  | .unexpectedEnd => "unexpected end of input"
  | .unparsable => "unparsable input"
  | .tooDeep => "nesting too deep"

end DiagnosticCode

/-- How grave a diagnostic is. -/
inductive Severity where
  | error
  | warning
  | hint
  deriving DecidableEq, Repr, Inhabited, Hashable

namespace Severity

def isError : Severity → Bool
  | .error => true
  | _ => false

def name : Severity → String
  | .error => "error"
  | .warning => "warning"
  | .hint => "hint"

end Severity

/-- How parsing got past an error. -/
inductive Recovery where
  /-- The offending token was left out. -/
  | skipped
  /-- A token of this kind was put in. -/
  | inserted (kind : String)
  /-- Tokens were left out, and then perhaps one put in. -/
  | synchronized (inserted : Option String)
  /-- The rest of the input was left out. -/
  | truncated
  /-- The whole input was left out. -/
  | abandoned
  deriving DecidableEq, Repr, Inhabited, Hashable

def Recovery.message : Recovery → String
  | .skipped => "skipped the unexpected token"
  | .inserted kind => s!"inserted missing {kind}"
  | .synchronized none => "skipped to a synchronization point"
  | .synchronized (some kind) => s!"skipped to a synchronization point and inserted {kind}"
  | .truncated => "skipped the rest of the input"
  | .abandoned => "gave up"

/-- A further place that a diagnostic points at. -/
structure Related where
  message : String
  range : Text.Range
  deriving DecidableEq, Repr, Inhabited, Hashable

/-- What is wrong with a text, and where. -/
structure Diagnostic where
  code : DiagnosticCode
  message : String
  range : Text.Range
  severity : Severity
  /-- The tokens that would have been accepted, by name. -/
  expected : List String
  recovery : Option Recovery
  hint : Option String
  related : List Related
  deriving DecidableEq, Repr, Inhabited, Hashable

namespace Diagnostic

/-- An error with its code's message at the start of the text. -/
def ofCode (code : DiagnosticCode) : Diagnostic where
  code := code
  message := code.defaultMessage
  range := Text.Range.empty 0
  severity := .error
  expected := []
  recovery := none
  hint := none
  related := []

def withMessage (diagnostic : Diagnostic) (message : String) : Diagnostic :=
  { diagnostic with message := message }

def withRange (diagnostic : Diagnostic) (range : Text.Range) : Diagnostic :=
  { diagnostic with range := range }

/-- Moves a diagnostic to the empty range at an offset. -/
def atOffset (diagnostic : Diagnostic) (offset : Nat) : Diagnostic :=
  { diagnostic with range := Text.Range.empty offset }

def withSeverity (diagnostic : Diagnostic) (severity : Severity) : Diagnostic :=
  { diagnostic with severity := severity }

def withExpected (diagnostic : Diagnostic) (expected : List String) : Diagnostic :=
  { diagnostic with expected := expected }

def withRecovery (diagnostic : Diagnostic) (recovery : Recovery) : Diagnostic :=
  { diagnostic with recovery := some recovery }

def withHint (diagnostic : Diagnostic) (hint : String) : Diagnostic :=
  { diagnostic with hint := some hint }

/-- Adds a further place. -/
def withRelated (diagnostic : Diagnostic) (message : String) (range : Text.Range) : Diagnostic :=
  { diagnostic with related := diagnostic.related ++ [⟨message, range⟩] }

/-- Where the range of the diagnostic starts. -/
def offset (diagnostic : Diagnostic) : Nat := diagnostic.range.start

/-- The diagnostic in one line, with its hint in a second one. -/
def format (diagnostic : Diagnostic) : String :=
  let code := diagnostic.code.text
  let message := diagnostic.message
  let hint := match diagnostic.hint with
    | some hint => s!"\n  hint: {hint}"
    | none => ""
  s!"{code}: {message}{hint}"

/-- The diagnostic in one line, with its range. -/
def display (diagnostic : Diagnostic) : String :=
  let code := diagnostic.code.text
  let message := diagnostic.message
  let start := diagnostic.range.start
  let stop := diagnostic.range.stop
  s!"{code}: {message} at {start}..{stop}"

end Diagnostic

end Syntagm
