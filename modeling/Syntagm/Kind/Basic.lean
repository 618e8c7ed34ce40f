import Syntagm.Text.Quoted

/-!
# Kinds

Every token and every node of a tree has a kind.  A grammar has its own kinds: five reserved
ones come first, then one for each terminal, then one for each rule that is no terminal, all
in the order of their declaration.  A kind is the index of its entry in the table of kinds.
-/

namespace Syntagm

/-- The kind of a token or node, by its place in the table of kinds. -/
structure Kind where
  index : Nat
  deriving DecidableEq, Repr, Inhabited, Hashable

namespace Kind

/-- A node around input that fits nowhere. -/
def error : Kind := ⟨0⟩

/-- A node around a token that the input lacks. -/
def missing : Kind := ⟨1⟩

/-- A token of characters that no terminal matches. -/
def unknown : Kind := ⟨2⟩

/-- The token from an end marker up to the end of the text. -/
def endMarker : Kind := ⟨3⟩

/-- The end of the input. -/
def endOfInput : Kind := ⟨4⟩

/-- Whether the kind is one of the five that every grammar has. -/
def isReserved (kind : Kind) : Bool := kind.index < 5

end Kind

/-- What a kind is for. -/
inductive KindClass where
  | reserved
  /-- A text written in a rule; a keyword looks like an identifier. -/
  | literal (keyword : Bool)
  /-- Any other terminal. -/
  | token (hidden : Bool)
  /-- A rule that makes nodes. -/
  | rule (hidden : Bool)
  deriving DecidableEq, Repr, Inhabited

/-- An entry of the table of kinds. -/
structure KindInfo where
  name : String
  kindClass : KindClass
  deriving DecidableEq, Repr, Inhabited

namespace KindInfo

/-- Whether tokens can have the kind. -/
def isToken (info : KindInfo) : Bool :=
  match info.kindClass with
  | .literal _ | .token _ => true
  | .reserved | .rule _ => info.name == "UNKNOWN" || info.name == "END_MARKER"

/-- Whether the kind shows by name. -/
def isNamed (info : KindInfo) : Bool :=
  match info.kindClass with
  | .reserved => true
  | .literal _ => false
  | .token hidden | .rule hidden => !hidden

/-- The kind in a message: the name, or the text of a literal between quotes. -/
def display (info : KindInfo) : String :=
  match info.kindClass with
  | .literal _ => Text.quoted info.name
  | _ => info.name

end KindInfo

/-- The kinds of a grammar in their order. -/
structure KindTable where
  entries : Array KindInfo
  deriving DecidableEq, Repr, Inhabited

namespace KindTable

/-- The table with the reserved kinds alone. -/
def reserved : KindTable :=
  ⟨#["ERROR", "MISSING", "UNKNOWN", "END_MARKER", "EOF"].map fun name => ⟨name, .reserved⟩⟩

def size (table : KindTable) : Nat := table.entries.size

/-- The kind that the next entry will have. -/
def next (table : KindTable) : Kind := ⟨table.size⟩

/-- Adds an entry. -/
def add (table : KindTable) (name : String) (kindClass : KindClass) : KindTable :=
  ⟨table.entries.push ⟨name, kindClass⟩⟩

/-- The entry of a kind. -/
def info? (table : KindTable) (kind : Kind) : Option KindInfo := table.entries[kind.index]?

/-- The name of a kind, and a question mark for one that is not in the table. -/
def name (table : KindTable) (kind : Kind) : String :=
  ((table.info? kind).map (·.name)).getD "?"

/-- The kind in a message. -/
def display (table : KindTable) (kind : Kind) : String :=
  ((table.info? kind).map (·.display)).getD s!"<kind {kind.index}>"

/-- The first kind of this name. -/
def find? (table : KindTable) (name : String) : Option Kind :=
  (table.entries.findIdx? (·.name == name)).map Kind.mk

end KindTable

end Syntagm
