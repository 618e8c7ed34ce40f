import Syntagm.Json.Basic
import Syntagm.Text.Digit
import Syntagm.Text.Remainder

/-!
# Reading JSON

Each reader takes the text that is left and returns what it read with the shorter text after
it.  The readers follow the grammar of JSON: no comma after the last element, no leading
zeros, no control characters in strings.
-/

namespace Syntagm.Json

open Text (Shorter NotLonger)

/-! ### Blanks -/

def isBlank (c : Char) : Bool := c == ' ' || c == '\t' || c == '\n' || c == '\r'

/-- The text after its leading blanks. -/
def skipBlanks (text : List Char) : NotLonger text := Text.skipWhile isBlank text

/-- The text after the character, if that is what comes next but for blanks. -/
def after? (c : Char) (text : List Char) : Option (Shorter text) :=
  let rest := skipBlanks text
  (Text.afterFirst? c rest.1).map rest.transShorter

/-! ### Strings -/

def isLeadingSurrogate (unit : Nat) : Bool := 0xD800 ≤ unit && unit ≤ 0xDBFF

def isTrailingSurrogate (unit : Nat) : Bool := 0xDC00 ≤ unit && unit ≤ 0xDFFF

/-- What is kept of a string: its characters, or nothing if a surrogate stands alone. -/
abbrev StringContent := Option (List Char)

/-- The content with a character in front. -/
def StringContent.cons (c : Option Char) (content : StringContent) : StringContent :=
  match c, content with
  | some c, some rest => some (c :: rest)
  | _, _ => none

/-- The character of a one-letter escape. -/
def shortEscape? : Char → Option Char
  | '"' => some '"'
  | '\\' => some '\\'
  | '/' => some '/'
  | 'b' => some '\x08'
  | 'f' => some '\x0c'
  | 'n' => some '\n'
  | 'r' => some '\r'
  | 't' => some '\t'
  | _ => none

/-- Reads an escape by code unit: a backslash, a `u` and four hexadecimal digits. -/
def readUnit? (text : List Char) : Option (Nat × Shorter text) :=
  match text with
  | '\\' :: 'u' :: a :: b :: c :: d :: rest =>
    (Text.hexNumber? [a, b, c, d]).map fun unit =>
      (unit, (Shorter.tail d rest).cons.cons.cons.cons.cons)
  | _ => none

/-- Reads the character that one or two escapes by code unit write, two if they are a
surrogate pair.  A surrogate without its other half is no character. -/
def readEscapedUnits? (text : List Char) : Option (Option Char × Shorter text) := do
  let (unit, rest) ← readUnit? text
  if isLeadingSurrogate unit then
    match readUnit? rest.1 with
    | some (second, further) =>
      if isTrailingSurrogate second then
        return (Text.scalar? (0x10000 + (unit - 0xD800) * 0x400 + (second - 0xDC00)),
          rest.trans further)
    | none => pure ()
  return (Text.scalar? unit, rest)

/-- Reads a string after its opening quote, up to and with the closing one. -/
def readString (text : List Char) : Option (StringContent × Shorter text) :=
  match readEscapedUnits? text with
  | some (c, rest) => do
    let (content, further) ← readString rest.1
    return (StringContent.cons c content, rest.trans further)
  | none =>
    match text with
    | [] => none
    | '"' :: rest => some (some [], .tail '"' rest)
    | '\\' :: c :: rest => do
      let meant ← shortEscape? c
      let (content, further) ← readString rest
      return (StringContent.cons (some meant) content, further.cons.cons)
    | c :: rest =>
      if c = '\\' ∨ c < ' ' then none
      else do
        let (content, further) ← readString rest
        return (StringContent.cons (some c) content, further.cons)
termination_by text.length
decreasing_by
  · exact rest.2
  · exact Nat.lt_succ_of_lt (Nat.lt_succ_self _)
  · exact Nat.lt_succ_self _

/-! ### Numbers -/

/-- Reads a dot and digits, if there is a dot. -/
def readFraction (text : List Char) : Option (List Char × NotLonger text) :=
  match text with
  | '.' :: rest =>
    match Text.splitDigits rest with
    | ([], _) => none
    | (digits, further) => some (digits, further.cons)
  | text => some ([], .whole text)

/-- The text after a sign, and whether the sign is a minus. -/
def splitSign (text : List Char) : Bool × NotLonger text :=
  match text with
  | '-' :: rest => (true, (NotLonger.whole rest).cons)
  | '+' :: rest => (false, (NotLonger.whole rest).cons)
  | text => (false, .whole text)

/-- Reads an exponent, if there is one. -/
def readExponent (text : List Char) : Option (Option Int × NotLonger text) :=
  match text with
  | c :: rest =>
    if c = 'e' ∨ c = 'E' then
      let (negative, behindSign) := splitSign rest
      match Text.splitDigits behindSign.1 with
      | ([], _) => none
      | (digits, further) =>
        let size : Int := Text.decimalNumber digits
        some (some (if negative then -size else size), (behindSign.trans further).cons)
    else some (none, .whole (c :: rest))
  | [] => some (none, .whole [])

/-- Whether the number of these digits times the power of ten is too great for a
floating-point number of 64 bits, that is, nearer to 2 ^ 1024 than to the greatest one. -/
def overflows (digits : List Char) (exponent : Int) : Bool :=
  let digits := digits.dropWhile (· == '0')
  let magnitude : Int := digits.length + exponent
  if digits.isEmpty || magnitude < 309 then false
  else if magnitude > 309 then true
  else
    let limit := Nat.pow 2 1024 - Nat.pow 2 970
    let value := Text.decimalNumber digits
    let power := Nat.pow 10 exponent.natAbs
    if exponent < 0 then limit * power ≤ value else limit ≤ value * power

/-- The value of a number: its sign, the digits in front of a dot and behind it, and its
exponent. -/
def numberOf (negative : Bool) (digits decimals : List Char) (exponent : Option Int) : Json :=
  if overflows (digits ++ decimals) (exponent.getD 0 - decimals.length) then .flawed
  else if decimals.isEmpty && exponent.isNone then
    let size : Int := Text.decimalNumber digits
    .integer (if negative then -size else size)
  else .fraction

/-- Reads a number without a sign.  Behind a zero that comes first there are no more digits. -/
def readMagnitude (negative : Bool) (text : List Char) : Option (Json × Shorter text) :=
  match text with
  | first :: rest =>
    if first.isDigit then do
      let (others, rest₁) :=
        if first = '0' then ([], NotLonger.whole rest) else Text.splitDigits rest
      let (decimals, rest₂) ← readFraction rest₁.1
      let (exponent, rest₃) ← readExponent rest₂.1
      return (numberOf negative (first :: others) decimals exponent,
        (rest₁.trans (rest₂.trans rest₃)).behind)
    else none
  | [] => none

/-- Reads a number. -/
def readNumber (text : List Char) : Option (Json × Shorter text) :=
  match text with
  | '-' :: rest => (readMagnitude true rest).map fun (value, further) => (value, further.cons)
  | text => readMagnitude false text

/-! ### Values -/

/-- Reads one of the three words. -/
def readWord (text : List Char) : Option (Json × Shorter text) :=
  match text with
  | 'n' :: 'u' :: 'l' :: 'l' :: rest => some (.null, (Shorter.tail 'l' rest).cons.cons.cons)
  | 't' :: 'r' :: 'u' :: 'e' :: rest =>
    some (.bool true, (Shorter.tail 'e' rest).cons.cons.cons)
  | 'f' :: 'a' :: 'l' :: 's' :: 'e' :: rest =>
    some (.bool false, (Shorter.tail 'e' rest).cons.cons.cons.cons)
  | _ => none

/-- An object, flawed if one of its names is. -/
def objectOf (members : Option (List (String × Json))) : Json :=
  (members.map Json.object).getD .flawed

mutual

/-- Reads a value after blanks. -/
def readValue (text : List Char) : Option (Json × Shorter text) :=
  match after? '[' text with
  | some rest =>
    match after? ']' rest.1 with
    | some further => some (.array [], rest.trans further)
    | none => do
      let (elements, further) ← readElements rest.1
      return (.array elements, rest.trans further)
  | none =>
    match after? '{' text with
    | some rest =>
      match after? '}' rest.1 with
      | some further => some (.object [], rest.trans further)
      | none => do
        let (members, further) ← readMembers rest.1
        return (objectOf members, rest.trans further)
    | none =>
      match after? '"' text with
      | some rest => do
        let (content, further) ← readString rest.1
        return ((content.map fun s => Json.string (String.ofList s)).getD .flawed,
          rest.trans further)
      | none => do
        let rest := skipBlanks text
        let (value, further) ← (readWord rest.1).or (readNumber rest.1)
        return (value, rest.transShorter further)
termination_by (text.length, 0)
decreasing_by
  · exact Prod.Lex.left _ _ rest.2
  · exact Prod.Lex.left _ _ rest.2

/-- Reads the elements of an array, up to and with its closing bracket. -/
def readElements (text : List Char) : Option (List Json × Shorter text) := do
  let (first, rest₁) ← readValue text
  match after? ',' rest₁.1 with
  | some rest₂ =>
    let (others, rest₃) ← readElements rest₂.1
    return (first :: others, rest₁.trans (rest₂.trans rest₃))
  | none =>
    let rest₂ ← after? ']' rest₁.1
    return ([first], rest₁.trans rest₂)
termination_by (text.length, 1)
decreasing_by
  · exact Prod.Lex.right _ (by decide)
  · exact Prod.Lex.left _ _ (rest₁.trans rest₂).2

/-- Reads the members of an object, up to and with its closing brace. -/
def readMembers (text : List Char) :
    Option (Option (List (String × Json)) × Shorter text) := do
  let rest₁ ← after? '"' text
  let (name, rest₂) ← readString rest₁.1
  let rest₃ ← after? ':' rest₂.1
  let behindColon := rest₁.trans (rest₂.trans rest₃)
  let (value, rest₄) ← readValue behindColon.1
  let member := name.map fun name => (String.ofList name, value)
  match after? ',' rest₄.1 with
  | some rest₅ =>
    let behindComma := behindColon.trans (rest₄.trans rest₅)
    let (others, rest₆) ← readMembers behindComma.1
    let members := member.bind fun member => others.map fun others => member :: others
    return (members, behindComma.trans rest₆)
  | none =>
    let rest₅ ← after? '}' rest₄.1
    return (member.map ([·]), behindColon.trans (rest₄.trans rest₅))
termination_by (text.length, 1)
decreasing_by
  · exact Prod.Lex.left _ _ behindColon.2
  · exact Prod.Lex.left _ _ behindComma.2

end

/-- The value a text is, with nothing but blanks around it. -/
def parse? (text : List Char) : Option Json := do
  let (value, rest) ← readValue text
  if (skipBlanks rest.1).1.isEmpty then return value else none

end Syntagm.Json
