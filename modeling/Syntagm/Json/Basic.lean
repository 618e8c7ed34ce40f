/-!
# JSON values

A value keeps what a grammar document needs.  Objects are lists of members in the order of
the text, names repeated in the text included.  Of a number only an integer's value is kept.
A string with half a surrogate pair and a number beyond the floating-point range follow the
grammar of JSON but denote nothing; they are read as `flawed`, so that a reader can refuse
them in the members it uses and pass over them elsewhere.
-/

namespace Syntagm

/-- A JSON value. -/
inductive Json where
  | null
  | bool (value : Bool)
  | integer (value : Int)
  | fraction
  | string (value : String)
  | array (elements : List Json)
  | object (members : List (String × Json))
  | flawed
  deriving Inhabited

namespace Json

mutual

/-- Whether no part of the value is flawed. -/
def isSound : Json → Bool
  | .flawed => false
  | .array elements => areSound elements
  | .object members => membersAreSound members
  | _ => true

def areSound : List Json → Bool
  | [] => true
  | first :: rest => isSound first && areSound rest

def membersAreSound : List (String × Json) → Bool
  | [] => true
  | (_, first) :: rest => isSound first && membersAreSound rest

end

mutual

/-- How many arrays and objects are inside one another. -/
def depth : Json → Nat
  | .array elements => depthOfAll elements + 1
  | .object members => depthOfMembers members + 1
  | _ => 0

def depthOfAll : List Json → Nat
  | [] => 0
  | first :: rest => max (depth first) (depthOfAll rest)

def depthOfMembers : List (String × Json) → Nat
  | [] => 0
  | (_, first) :: rest => max (depth first) (depthOfMembers rest)

end

/-- Sets a member: its old place keeps, a new one comes last. -/
def setMember {α : Type} (members : List (String × α)) (name : String) (value : α) :
    List (String × α) :=
  if members.any (·.1 == name) then
    members.map fun member => if member.1 == name then (name, value) else member
  else members ++ [(name, value)]

/-- Keeps one member of each name: the first place and the last value. -/
def dropRepeats {α : Type} (members : List (String × α)) : List (String × α) :=
  members.foldl (fun kept member => setMember kept member.1 member.2) []

mutual

/-- The value with no name repeated in any object: the last member of a name wins. -/
def withoutRepeats : Json → Json
  | .array elements => .array (withoutRepeatsAll elements)
  | .object members => .object (dropRepeats (withoutRepeatsMembers members))
  | value => value

def withoutRepeatsAll : List Json → List Json
  | [] => []
  | first :: rest => withoutRepeats first :: withoutRepeatsAll rest

def withoutRepeatsMembers : List (String × Json) → List (String × Json)
  | [] => []
  | (name, first) :: rest => (name, withoutRepeats first) :: withoutRepeatsMembers rest

end

/-- The string a value is, if it is one. -/
def string? : Json → Option String
  | .string value => some value
  | _ => none

/-- The elements of an array. -/
def array? : Json → Option (List Json)
  | .array elements => some elements
  | _ => none

end Json

end Syntagm
