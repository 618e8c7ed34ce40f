import Syntagm.Compiled.Basic
import Syntagm.Text.Remainder
import Syntagm.Token.Basic

/-!
# Cutting a text into tokens

At every place all terminals are tried and the longest match wins.  Of equally long ones a
literal goes before other terminals, and then the one that is declared first.  Keywords are
not tried by themselves: what the word terminal matches is looked up among them.

**The rest.**  An end marker makes one token of everything from it on.  Characters at which
nothing matches are put together, up to the next place where something does.

What the token at a place is depends on the text from there on alone, so lexing can start
anywhere (`nextToken?`).  A token takes at least one character; that is why lexing ends.
-/

namespace Syntagm

/-- A token without its place: its kind, its number of characters and its fault. -/
structure Lexeme where
  kind : Kind
  length : Nat
  error : Option Unterminated
  deriving DecidableEq, Repr, Inhabited

namespace CompiledGrammar

variable (compiled : CompiledGrammar)

/-- Whether a text starts with an end marker. -/
def startsWithEndMarker (text : List Char) : Bool :=
  text.head?.any compiled.lexicon.endMarkers.contains

/-- What a terminal matches at the start of a text, and whether it counts as a literal. -/
def candidate? (text : List Char) (terminal : Terminal) : Option (Lexeme × Bool) :=
  if terminal.isKeyword then none
  else
    (terminal.matcher.scan? text).map fun scan =>
      let keyword :=
        if compiled.lexicon.word = some terminal.kind then
          compiled.lexicon.keyword? (String.ofList (text.take scan.length))
        else none
      match keyword with
      | some kind => (⟨kind, scan.length, scan.error⟩, true)
      | none => (⟨terminal.kind, scan.length, scan.error⟩, terminal.matcher.isLiteral)

/-- The better one of two candidates: the longer one, of equally long ones a literal, and
else the first. -/
def better (first second : Lexeme × Bool) : Lexeme × Bool :=
  if first.1.length < second.1.length ∨
      (first.1.length = second.1.length ∧ second.2 ∧ !first.2) then second
  else first

/-- The best candidate at the start of a text. -/
def longestMatch? (text : List Char) : Option Lexeme :=
  let candidates := compiled.lexicon.terminals.filterMap (compiled.candidate? text)
  match candidates with
  | [] => none
  | first :: rest => some (rest.foldl better first).1

/-- Whether something matches at the start of a text. -/
def startsSomething (text : List Char) : Bool :=
  compiled.startsWithEndMarker text || (compiled.longestMatch? text).isSome

/-- The number of characters in front of the next place where something matches. -/
def unknownLength : List Char → Nat
  | [] => 0
  | c :: rest => if compiled.startsSomething (c :: rest) then 0 else unknownLength rest + 1

/-- The lexeme that starts with `c`. -/
def lexeme (c : Char) (rest : List Char) : Lexeme :=
  if compiled.startsWithEndMarker (c :: rest) then ⟨Kind.endMarker, rest.length + 1, none⟩
  else
    match compiled.longestMatch? (c :: rest) with
    | some lexeme => lexeme
    | none => ⟨Kind.unknown, compiled.unknownLength rest + 1, none⟩

/-- The token that starts with `c` at a place, its text, and the text after it. -/
def readToken (offset : Nat) (position : Text.Position) (c : Char) (rest : List Char) :
    Token × List Char × Text.NotLonger rest :=
  let lexeme := compiled.lexeme c rest
  let text := c :: rest.take (lexeme.length - 1)
  let token : Token := {
    kind := lexeme.kind
    range := Text.Range.ofLength offset (Text.byteLength text)
    start := position
    isExtra := compiled.isTrivia lexeme.kind
    error := lexeme.error }
  (token, text, ⟨rest.drop (lexeme.length - 1), by simp⟩)

/-- The tokens of a text that itself starts at a place. -/
def tokensFrom (offset : Nat) (position : Text.Position) : List Char → List Token
  | [] => []
  | c :: rest =>
    let (token, text, ⟨others, _⟩) := compiled.readToken offset position c rest
    token :: tokensFrom token.range.stop (position.advance text) others
termination_by text => text.length
decreasing_by simp only [List.length_cons]; omega

/-- The tokens of a text. -/
def tokenize (text : List Char) : Tokens :=
  ⟨compiled.tokensFrom 0 .origin text, Text.byteLength text⟩

/-- The token that starts at an offset, unless that is the end or no boundary. -/
def nextToken? (text : List Char) (offset : Nat) : Option Token := do
  let (front, back) ← Text.splitBytes? text offset
  match back with
  | [] => none
  | c :: rest => return (compiled.readToken offset (Text.Position.origin.advance front) c rest).1

end CompiledGrammar

end Syntagm
