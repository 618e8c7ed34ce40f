import Syntagm.Text.Basic

/-!
# Tokens of the grammar notation

The notation is cut into directives, identifiers, strings, patterns, integers and marks.
Blanks and `#` comments separate tokens.  A string or pattern that is not closed, and any
character that starts no token, becomes an `invalid` token, which no rule of the notation
accepts; so cutting never fails, and what is wrong is reported where it matters.

`readToken` reads one token and `tokenize` all of them; each token gets the byte offset at
which it starts.
-/

namespace Syntagm.Notation

/-- A token.  Strings and patterns hold what stands between their delimiters, escapes as
written. -/
inductive Token where
  | directive (name : String)
  | identifier (name : String)
  | string (content : String)
  | pattern (content : String)
  | integer (negative : Bool) (digits : String)
  | mark (symbol : Char)
  | invalid (text : String)
  deriving DecidableEq, Repr, Inhabited

/-- The token as it stands in the text. -/
def Token.spelling : Token → String
  | .directive name => "@" ++ name
  | .identifier name => name
  | .string content => "\"" ++ content ++ "\""
  | .pattern content => "/" ++ content ++ "/"
  | .integer negative digits => (if negative then "-" else "") ++ digits
  | .mark symbol => symbol.toString
  | .invalid text => text

/-- A token and the byte offset at which it starts. -/
structure Located where
  token : Token
  offset : Nat
  deriving DecidableEq, Repr, Inhabited

/-! ### Reading one token -/

/-- What separates tokens. -/
def isBlank (c : Char) : Bool :=
  c == ' ' || c == '\t' || c == '\r' || c == '\n' || c == '\x0c'

def isNameStart (c : Char) : Bool := c.isAlpha || c == '_'

def isNameRest (c : Char) : Bool := c.isAlphanum || c == '_'

/-- The single characters that are tokens. -/
def isMark (c : Char) : Bool :=
  [':', ';', '|', '*', '+', '?', '(', ')', ','].contains c

/-- Splits off the content of a string or pattern: characters that do not `stop` it, and
backslashes with the character after them, unless that is a line feed. -/
def splitContent (stop : Char → Bool) : List Char → List Char × List Char
  | '\\' :: c :: rest =>
    if c = '\n' then ([], '\\' :: c :: rest)
    else
      let (content, tail) := splitContent stop rest
      ('\\' :: c :: content, tail)
  | c :: rest =>
    if c = '\\' ∨ stop c then ([], c :: rest)
    else
      let (content, tail) := splitContent stop rest
      (c :: content, tail)
  | [] => ([], [])

theorem splitContent_length_le (stop : Char → Bool) (text : List Char) :
    (splitContent stop text).2.length ≤ text.length := by
  fun_induction splitContent stop text <;> simp_all <;> omega

/-- The token that starts with `c`, and the text after it. -/
def readToken (c : Char) (rest : List Char) : Token × List Char :=
  if c = '@' ∧ (rest.head?.any isNameStart) then
    (.directive (String.ofList (rest.takeWhile isNameStart)), rest.dropWhile isNameStart)
  else if isNameStart c then
    (.identifier (String.ofList (c :: rest.takeWhile isNameRest)), rest.dropWhile isNameRest)
  else if c = '"' then
    let (content, tail) := splitContent (· == '"') rest
    match tail with
    | '"' :: tail => (.string (String.ofList content), tail)
    | _ => (.invalid (String.ofList (c :: content)), tail)
  else if c = '/' then
    let (content, tail) := splitContent (fun d => d == '/' || d == '\n') rest
    match tail, content with
    | '/' :: tail, _ :: _ => (.pattern (String.ofList content), tail)
    | tail, _ => (.invalid (String.ofList (c :: content)), tail)
  else if c.isDigit then
    (.integer false (String.ofList (c :: rest.takeWhile Char.isDigit)), rest.dropWhile Char.isDigit)
  else if c = '-' ∧ (rest.head?.any Char.isDigit) then
    (.integer true (String.ofList (rest.takeWhile Char.isDigit)), rest.dropWhile Char.isDigit)
  else if isMark c then (.mark c, rest)
  else (.invalid c.toString, rest)

private theorem length_dropWhile_le {α : Type} (p : α → Bool) (xs : List α) :
    (xs.dropWhile p).length ≤ xs.length := by
  induction xs with
  | nil => simp
  | cons x xs ih =>
    rw [List.dropWhile_cons]
    split
    · exact Nat.le_succ_of_le ih
    · exact Nat.le_refl _

/-- A token takes at least its first character. -/
theorem readToken_length_le (c : Char) (rest : List Char) :
    (readToken c rest).2.length ≤ rest.length := by
  have quote := splitContent_length_le (· == '"') rest
  have slash := splitContent_length_le (fun d => d == '/' || d == '\n') rest
  have drop := fun p => length_dropWhile_le p rest
  unfold readToken
  repeat' split
  all_goals first
    | exact drop _
    | exact Nat.le_refl _
    | (simp_all; try omega)

/-! ### Reading all tokens -/

/-- The tokens of a text that itself starts at `offset`. -/
def tokensFrom (offset : Nat) : List Char → List Located
  | [] => []
  | c :: rest =>
    if isBlank c then tokensFrom (offset + 1) rest
    else if c = '#' then
      let comment := rest.takeWhile (· ≠ '\n')
      tokensFrom (offset + 1 + Text.byteLength comment) (rest.dropWhile (· ≠ '\n'))
    else
      let read := readToken c rest
      ⟨read.1, offset⟩ :: tokensFrom (offset + read.1.spelling.utf8ByteSize) read.2
termination_by text => text.length
decreasing_by
  · simp
  · have := length_dropWhile_le (· ≠ '\n') rest
    simp only [List.length_cons]
    omega
  · have := readToken_length_le c rest
    simp only [List.length_cons]
    omega

/-- The tokens of a text. -/
def tokenize (text : List Char) : List Located := tokensFrom 0 text

end Syntagm.Notation
