import Syntagm.Grammar.Error
import Syntagm.Grammar.Expression

/-!
# Grammars

A grammar is a list of named rules with what holds for it as a whole: the start rule, the
rules that may stand between any two tokens (*extras*), the rules that leave no node of their
own (*hidden*), the word rule that keywords are looked up under, the texts at which parsing
resumes after an error (*sync*), the sets of rules whose conflicts are intended, and the
characters that end the text.

The order of the rules counts: it breaks ties between tokens, and two grammars are equal only
if it is the same.  Names listed twice are kept once, in first place (`insertName`).
-/

namespace Syntagm

/-- Adds a name to a list that holds every name once. -/
def insertName (names : List String) (name : String) : List String :=
  if names.contains name then names else names ++ [name]

/-- Named rules, and what holds for the grammar as a whole. -/
structure Grammar where
  name : String
  rules : List (String × Expression)
  start : Option String
  extras : List String
  hidden : List String
  word : Option String
  sync : List String
  conflicts : List (List String)
  endMarkers : List Char
  deriving DecidableEq, Repr

namespace Grammar

/-- The characters that end every text unless a grammar says otherwise: U+0000 and U+001A. -/
def defaultEndMarkers : List Char := ['\x00', '\x1a']

/-- The grammar of this name without rules. -/
def empty (name : String) : Grammar where
  name := name
  rules := []
  start := none
  extras := []
  hidden := []
  word := none
  sync := []
  conflicts := []
  endMarkers := defaultEndMarkers

instance : Inhabited Grammar := ⟨empty "grammar"⟩

/-! ### Look-up -/

/-- The body of the rule of this name. -/
def rule? (grammar : Grammar) (name : String) : Option Expression :=
  grammar.rules.lookup name

/-- Whether a rule of this name is declared. -/
def declares (grammar : Grammar) (name : String) : Bool :=
  (grammar.rule? name).isSome

def ruleCount (grammar : Grammar) : Nat := grammar.rules.length

/-- Rules that leave no node of their own: those marked, and those whose name starts with an
underscore. -/
def isHidden (grammar : Grammar) (name : String) : Bool :=
  name.toList.head? == some '_' || grammar.hidden.contains name

def isExtra (grammar : Grammar) (name : String) : Bool := grammar.extras.contains name

/-- Whether the rule belongs to a declared conflict. -/
def inDeclaredConflict (grammar : Grammar) (name : String) : Bool :=
  grammar.conflicts.any (·.contains name)

/-! ### Putting a grammar together -/

/-- Adds a rule at the end; its name must be free. -/
def define (grammar : Grammar) (name : String) (body : Expression) :
    Except GrammarError Grammar :=
  if grammar.declares name then .error (.duplicateRule name)
  else .ok { grammar with rules := grammar.rules ++ [(name, body)] }

/-- Gives a rule a new body in its old place, or adds it at the end.  Also returns the old
body. -/
def replace (grammar : Grammar) (name : String) (body : Expression) :
    Grammar × Option Expression :=
  match grammar.rule? name with
  | some old =>
    let rules := grammar.rules.map fun entry => if entry.1 = name then (name, body) else entry
    ({ grammar with rules := rules }, some old)
  | none => ({ grammar with rules := grammar.rules ++ [(name, body)] }, none)

def markHidden (grammar : Grammar) (name : String) : Grammar :=
  { grammar with hidden := insertName grammar.hidden name }

def markExtra (grammar : Grammar) (name : String) : Grammar :=
  { grammar with extras := insertName grammar.extras name }

def setStart (grammar : Grammar) (name : String) : Grammar :=
  { grammar with start := some name }

def setWord (grammar : Grammar) (name : String) : Grammar :=
  { grammar with word := some name }

def addSync (grammar : Grammar) (text : String) : Grammar :=
  { grammar with sync := insertName grammar.sync text }

def addConflict (grammar : Grammar) (rules : List String) : Grammar :=
  { grammar with conflicts := grammar.conflicts ++ [rules] }

def setEndMarkers (grammar : Grammar) (markers : List Char) : Grammar :=
  { grammar with endMarkers := markers }

def setName (grammar : Grammar) (name : String) : Grammar :=
  { grammar with name := name }

/-- Makes the first rule the start rule, if there is one. -/
def startAtFirstRule (grammar : Grammar) : Grammar :=
  match grammar.rules with
  | [] => grammar
  | (name, _) :: _ => grammar.setStart name

/-! ### Fingerprints -/

/-- A number that equal grammars share, for finding a grammar quickly.  Extras and hidden
marks enter it as one list, so moving a name across the border between the two does not
show. -/
def fingerprint (grammar : Grammar) : UInt64 :=
  hash (grammar.name, grammar.rules, grammar.start, grammar.extras ++ grammar.hidden,
    grammar.word, grammar.sync, grammar.conflicts,
    String.ofList grammar.endMarkers)

end Grammar

end Syntagm
