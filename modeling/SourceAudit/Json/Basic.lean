/-!
# JSON values — what trees, issues and reports are exchanged as

A value keeps the members of an object in the order they are written, because a report is
compared with its text. A number is kept as the token it is written with: only a token of plain
digits says which natural number it is, and every other token (a sign, a fraction, an exponent)
stays text. That is the whole arithmetic of this library, so nothing here rounds.

Decided here: what a value is, and how a record is read from one. Texts are in `Json.Printer`
and `Json.Parser`.
-/

namespace SourceAudit

/-- A number as it is written. -/
inductive Numeral where
  /-- A token of digits only. -/
  | natural (value : Nat)
  /-- Any other token, for instance `-1`, `1.0` or `1e3`. -/
  | other (token : String)
  deriving DecidableEq, Repr

/-- A JSON value. -/
inductive Json where
  | null
  | bool (value : Bool)
  | num (value : Numeral)
  | str (value : String)
  | arr (items : List Json)
  | obj (members : List (String × Json))
  deriving Repr, Inhabited

namespace Json

/-- The number `n`, written with digits only. -/
def nat (n : Nat) : Json := .num (.natural n)

/-- A value that may be absent is written as null when it is. -/
def orNull (write : α → Json) : Option α → Json
  | none => .null
  | some value => write value

/-- The text of a string value. -/
def text? : Json → Option String
  | .str value => some value
  | _ => none

/-- The truth value of a boolean. -/
def bool? : Json → Option Bool
  | .bool value => some value
  | _ => none

/-- The items of an array. -/
def items? : Json → Option (List Json)
  | .arr items => some items
  | _ => none

/-- The first member of an object named `key`. -/
def member? (key : String) : Json → Option Json
  | .obj members => members.lookup key
  | _ => none

/-- Every count and line number this library reads is below this bound. -/
def wordBound : Nat := Nat.pow 2 64

/-- A number of digits only, below the bound. -/
def word? : Json → Option Nat
  | .num (.natural value) => if value < wordBound then some value else none
  | _ => none

/-- Reads a value that may be null. -/
def optional? (read : Json → Option α) : Json → Option (Option α)
  | .null => some none
  | value => (read value).map some

end Json

/-- A record as it is written: by the names of its fields, or by their places. -/
inductive Layout (α : Type) where
  | named (members : List (String × α))
  | placed (items : List α)

namespace Layout

/-- The fields `names` of a record, in that order.

By name, a field may be absent, and members of other names are passed over. By place, every field
is there and nothing else. -/
def fields? (names : List String) : Layout α → Option (List (Option α))
  | .named members => some (names.map fun name => members.lookup name)
  | .placed items => if items.length = names.length then some (items.map some) else none

/-- The tag of a tagged record, and the record without it: the member called `key`, or the first
item. -/
def tagged? (key : String) : Layout α → Option (α × Layout α)
  | .named members => (members.lookup key).map (·, .named members)
  | .placed [] => none
  | .placed (tag :: items) => some (tag, .placed items)

end Layout

/-- The record that a value is. -/
def Json.layout? : Json → Option (Layout Json)
  | .obj members => some (.named members)
  | .arr items => some (.placed items)
  | _ => none

end SourceAudit
