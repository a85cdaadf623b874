import SourceAudit.Json.Basic

/-!
# Reading JSON text

Recursive descent over the characters. The depth of the descent is bounded by an explicit count,
which the wrapper `Json.parse?` sets to the length of the text: every step down consumes a
bracket, so no text runs out of it.

A string is read in two stages: first into characters and sixteen-bit units, as escapes write
them, and then the units are joined, because a character beyond the basic plane is written as two
of them. A unit that has no partner is refused.
-/

namespace SourceAudit

namespace Json.Parser

/-- The blanks of the format. -/
def isBlank (c : Char) : Bool := c = ' ' || c = '\n' || c = '\r' || c = '\t'

/-- Passes over blanks. -/
def skipBlanks (text : List Char) : List Char := text.dropWhile isBlank

/-- The value of a hexadecimal digit in either case. -/
def hexValue? (c : Char) : Option Nat :=
  if '0' ≤ c ∧ c ≤ '9' then some (c.toNat - 48)
  else if 'a' ≤ c ∧ c ≤ 'f' then some (c.toNat - 87)
  else if 'A' ≤ c ∧ c ≤ 'F' then some (c.toNat - 55)
  else none

/-- The value of four hexadecimal digits. -/
def hexValue4? (a b c d : Char) : Option Nat := do
  let a ← hexValue? a
  let b ← hexValue? b
  let c ← hexValue? c
  let d ← hexValue? d
  return ((a * 16 + b) * 16 + c) * 16 + d

/-- A part of a string: a character, or the unit that an escape of four digits names. -/
inductive Piece where
  | char (c : Char)
  | unit (value : Nat)
  deriving DecidableEq

/-- The character that a one-letter escape names. -/
def namedEscape? (c : Char) : Option Char :=
  if c = '"' then some '"'
  else if c = '\\' then some '\\'
  else if c = '/' then some '/'
  else if c = 'n' then some '\n'
  else if c = 'r' then some '\r'
  else if c = 't' then some '\t'
  else if c = 'b' then some '\x08'
  else if c = 'f' then some '\x0c'
  else none

/-- The pieces up to the closing quote, and what follows it. -/
def pieces? : List Char → Option (List Piece × List Char)
  | [] => none
  | '"' :: rest => some ([], rest)
  | '\\' :: 'u' :: a :: b :: c :: d :: rest => do
    let unit ← hexValue4? a b c d
    let (tail, rest) ← pieces? rest
    return (.unit unit :: tail, rest)
  | '\\' :: c :: rest => do
    let c ← namedEscape? c
    let (tail, rest) ← pieces? rest
    return (.char c :: tail, rest)
  | c :: rest =>
    if c.toNat < 32 then none
    else do
      let (tail, rest) ← pieces? rest
      return (.char c :: tail, rest)

/-- The first half of a pair of units. -/
def isLeading (unit : Nat) : Bool := 0xD800 ≤ unit && unit < 0xDC00

/-- The second half of a pair of units. -/
def isTrailing (unit : Nat) : Bool := 0xDC00 ≤ unit && unit < 0xE000

/-- The characters that the pieces stand for. -/
def join? : List Piece → Option (List Char)
  | [] => some []
  | .char c :: rest => (join? rest).map (c :: ·)
  | .unit high :: .unit low :: rest =>
    if isLeading high then
      if isTrailing low then
        (join? rest).map (Char.ofNat (0x10000 + (high - 0xD800) * 1024 + (low - 0xDC00)) :: ·)
      else none
    else if isTrailing high then none
    else (join? (.unit low :: rest)).map (Char.ofNat high :: ·)
  | .unit value :: rest =>
    if isLeading value || isTrailing value then none
    else (join? rest).map (Char.ofNat value :: ·)

/-- The text behind an opening quote, and what follows the closing one. -/
def string? (text : List Char) : Option (String × List Char) := do
  let (pieces, rest) ← pieces? text
  let chars ← join? pieces
  return (String.ofList chars, rest)

/-- The characters that a number token is made of. -/
def isNumeric (c : Char) : Bool :=
  c.isDigit || c = '-' || c = '+' || c = '.' || c = 'e' || c = 'E'

/-- Digits without a superfluous leading zero. -/
def isWhole (digits : List Char) : Bool :=
  !digits.isEmpty && digits.all Char.isDigit && (digits.head? != some '0' || digits.length = 1)

/-- Nothing, or an exponent. -/
def isExponent : List Char → Bool
  | [] => true
  | c :: rest =>
    (c = 'e' || c = 'E') &&
      (match rest with
      | '+' :: digits => !digits.isEmpty && digits.all Char.isDigit
      | '-' :: digits => !digits.isEmpty && digits.all Char.isDigit
      | digits => !digits.isEmpty && digits.all Char.isDigit)

/-- Nothing, or a fraction and perhaps an exponent, or an exponent. -/
def isFraction : List Char → Bool
  | '.' :: rest =>
    !(rest.takeWhile Char.isDigit).isEmpty && isExponent (rest.dropWhile Char.isDigit)
  | rest => isExponent rest

/-- A number token without its sign. -/
def isUnsigned (token : List Char) : Bool :=
  isWhole (token.takeWhile Char.isDigit) && isFraction (token.dropWhile Char.isDigit)

/-- The number that a token is. -/
def numeral? (token : List Char) : Option Numeral :=
  if isWhole token then some (.natural (Nat.ofDigitChars 10 token 0))
  else match token with
    | '-' :: rest => if isUnsigned rest then some (.other (String.ofList token)) else none
    | _ => if isUnsigned token then some (.other (String.ofList token)) else none

mutual

/-- The value at the start of the text, and what follows it. -/
def value? : Nat → List Char → Option (Json × List Char)
  | 0, _ => none
  | fuel + 1, text =>
    match skipBlanks text with
    | '"' :: rest => (string? rest).map fun (s, rest) => (.str s, rest)
    | '[' :: rest =>
      match skipBlanks rest with
      | ']' :: rest => some (.arr [], rest)
      | rest => do
        let (item, rest) ← value? fuel rest
        let (items, rest) ← items? fuel rest
        return (.arr (item :: items), rest)
    | '{' :: rest =>
      match skipBlanks rest with
      | '}' :: rest => some (.obj [], rest)
      | rest => do
        let (member, rest) ← member? fuel rest
        let (members, rest) ← members? fuel rest
        return (.obj (member :: members), rest)
    | 'n' :: 'u' :: 'l' :: 'l' :: rest => some (.null, rest)
    | 't' :: 'r' :: 'u' :: 'e' :: rest => some (.bool true, rest)
    | 'f' :: 'a' :: 'l' :: 's' :: 'e' :: rest => some (.bool false, rest)
    | rest => do
      let number ← numeral? (rest.takeWhile isNumeric)
      return (.num number, rest.dropWhile isNumeric)

/-- The items behind the first one, up to the closing bracket. -/
def items? : Nat → List Char → Option (List Json × List Char)
  | 0, _ => none
  | fuel + 1, text =>
    match skipBlanks text with
    | ']' :: rest => some ([], rest)
    | ',' :: rest => do
      let (item, rest) ← value? fuel rest
      let (items, rest) ← items? fuel rest
      return (item :: items, rest)
    | _ => none

/-- One member: its name, a colon, its value. -/
def member? : Nat → List Char → Option ((String × Json) × List Char)
  | 0, _ => none
  | fuel + 1, text =>
    match skipBlanks text with
    | '"' :: rest => do
      let (key, rest) ← string? rest
      match skipBlanks rest with
      | ':' :: rest => do
        let (value, rest) ← value? fuel rest
        return ((key, value), rest)
      | _ => none
    | _ => none

/-- The members behind the first one, up to the closing bracket. -/
def members? : Nat → List Char → Option (List (String × Json) × List Char)
  | 0, _ => none
  | fuel + 1, text =>
    match skipBlanks text with
    | '}' :: rest => some ([], rest)
    | ',' :: rest => do
      let (member, rest) ← member? fuel rest
      let (members, rest) ← members? fuel rest
      return (member :: members, rest)
    | _ => none

end

end Json.Parser

/-- The value that a whole text is. -/
def Json.parse? (text : String) : Option Json := do
  let chars := text.toList
  let (value, rest) ← Json.Parser.value? (2 * chars.length + 2) chars
  if (Json.Parser.skipBlanks rest).isEmpty then some value else none

end SourceAudit
