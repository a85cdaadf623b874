import SourceAudit.Json.Basic

/-!
# The texts of a JSON value

Two layouts of the same tokens. The compact one has no blanks. The pretty one puts every item
and member on a line of its own, two spaces deeper than the bracket that holds it; a container
with nothing in it stays on one line.

In a string only the quote, the backslash and the characters below the blank are escaped, the
latter by their letter where JSON has one and by four hexadecimal digits otherwise.
-/

namespace SourceAudit

namespace Json

/-- The lower-case hexadecimal digit of a number below sixteen. -/
def hexDigit (n : Nat) : Char :=
  if n < 10 then Char.ofNat (48 + n) else Char.ofNat (87 + n)

/-- One character as it stands between quotes. -/
def escape (c : Char) : List Char :=
  if c = '"' then ['\\', '"']
  else if c = '\\' then ['\\', '\\']
  else if c = '\n' then ['\\', 'n']
  else if c = '\r' then ['\\', 'r']
  else if c = '\t' then ['\\', 't']
  else if c = '\x08' then ['\\', 'b']
  else if c = '\x0c' then ['\\', 'f']
  else if c.toNat < 32 then
    ['\\', 'u', '0', '0', hexDigit (c.toNat / 16), hexDigit (c.toNat % 16)]
  else [c]

/-- A text between quotes. -/
def quote (s : String) : List Char :=
  '"' :: (s.toList.flatMap escape ++ ['"'])

/-- The token of a number. -/
def numeral : Numeral → List Char
  | .natural value => Nat.toDigits 10 value
  | .other token => token.toList

/-- The token of a truth value. -/
def truth : Bool → List Char
  | true => ['t', 'r', 'u', 'e']
  | false => ['f', 'a', 'l', 's', 'e']

/-- The token of null. -/
def nothing : List Char := ['n', 'u', 'l', 'l']

mutual

/-- The layout without blanks. -/
def compact : Json → List Char
  | .null => nothing
  | .bool value => truth value
  | .num value => numeral value
  | .str value => quote value
  | .arr [] => ['[', ']']
  | .arr (item :: items) => '[' :: (compact item ++ compactItems items ++ [']'])
  | .obj [] => ['{', '}']
  | .obj ((key, value) :: members) =>
    '{' :: (quote key ++ ':' :: compact value ++ compactMembers members ++ ['}'])

/-- The items after the first, each behind a comma. -/
def compactItems : List Json → List Char
  | [] => []
  | item :: items => ',' :: (compact item ++ compactItems items)

/-- The members after the first, each behind a comma. -/
def compactMembers : List (String × Json) → List Char
  | [] => []
  | (key, value) :: members =>
    ',' :: (quote key ++ ':' :: compact value ++ compactMembers members)

end

/-- A new line at nesting level `depth`. -/
def lineBreak (depth : Nat) : List Char := '\n' :: List.replicate (2 * depth) ' '

mutual

/-- The layout with one item to a line; `depth` is the level of the line the value starts on. -/
def pretty (depth : Nat) : Json → List Char
  | .null => nothing
  | .bool value => truth value
  | .num value => numeral value
  | .str value => quote value
  | .arr [] => ['[', ']']
  | .arr (item :: items) =>
    '[' :: (lineBreak (depth + 1) ++ pretty (depth + 1) item ++ prettyItems (depth + 1) items
      ++ lineBreak depth ++ [']'])
  | .obj [] => ['{', '}']
  | .obj ((key, value) :: members) =>
    '{' :: (lineBreak (depth + 1) ++ quote key ++ ':' :: ' ' :: pretty (depth + 1) value
      ++ prettyMembers (depth + 1) members ++ lineBreak depth ++ ['}'])

/-- The items after the first, each behind a comma and a line break. -/
def prettyItems (depth : Nat) : List Json → List Char
  | [] => []
  | item :: items => ',' :: (lineBreak depth ++ pretty depth item ++ prettyItems depth items)

/-- The members after the first, each behind a comma and a line break. -/
def prettyMembers (depth : Nat) : List (String × Json) → List Char
  | [] => []
  | (key, value) :: members =>
    ',' :: (lineBreak depth ++ quote key ++ ':' :: ' ' :: pretty depth value
      ++ prettyMembers depth members)

end

/-- The compact text. -/
def toText (value : Json) : String := String.ofList (compact value)

/-- The pretty text. -/
def toPrettyText (value : Json) : String := String.ofList (pretty 0 value)

end Json

end SourceAudit
