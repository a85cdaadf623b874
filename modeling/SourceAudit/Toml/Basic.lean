import SourceAudit.Text.Basic

/-!
# TOML values

A value is a text, an integer, a float, a truth value, a date or time, an array, or a table. A
table keeps its entries in the order of the document. A float is kept as it is written: nothing in
this library computes with one.
-/

namespace SourceAudit

namespace Toml

/-- A day of the calendar. -/
structure Date where
  year : Nat
  month : Nat
  day : Nat
  deriving DecidableEq, Repr

/-- A time of the day. -/
structure Time where
  hour : Nat
  minute : Nat
  second : Nat
  nanosecond : Nat
  deriving DecidableEq, Repr

/-- The difference to universal time. -/
inductive Offset where
  | zulu
  | custom (negative : Bool) (hours minutes : Nat)
  deriving DecidableEq, Repr

/-- A date, a time, or both. -/
structure DateTime where
  date : Option Date := none
  time : Option Time := none
  offset : Option Offset := none
  deriving DecidableEq, Repr

/-- A value of a document. -/
inductive Value where
  | string (value : String)
  | integer (value : Int)
  | float (token : String)
  | boolean (value : Bool)
  | dateTime (value : DateTime)
  | array (items : List Value)
  | table (entries : List (String × Value))
  deriving Repr

/-- The entries of a table. -/
abbrev Table := List (String × Value)

/-! ## The text of a date or time -/

/-- A number with zeros before it, up to `width` digits. -/
def padded (width n : Nat) : String :=
  let digits := Nat.toDigits 10 n
  String.ofList (List.replicate (width - digits.length) '0' ++ digits)

/-- Year, month and day. -/
def Date.text (date : Date) : String :=
  padded 4 date.year ++ "-" ++ padded 2 date.month ++ "-" ++ padded 2 date.day

/-- The fraction of a second, without trailing zeros; nothing for none. -/
def fractionText (nanosecond : Nat) : String :=
  if nanosecond = 0 then ""
  else
    let digits := (padded 9 nanosecond).toList.reverse.dropWhile (· = '0')
    "." ++ String.ofList digits.reverse

/-- Hour, minute, second and fraction. -/
def Time.text (time : Time) : String :=
  padded 2 time.hour ++ ":" ++ padded 2 time.minute ++ ":" ++ padded 2 time.second ++
    fractionText time.nanosecond

/-- `Z`, or sign, hours and minutes. No difference has a positive sign. -/
def Offset.text : Offset → String
  | .zulu => "Z"
  | .custom negative hours minutes =>
    (if negative && (hours != 0 || minutes != 0) then "-" else "+") ++ padded 2 hours ++ ":" ++
      padded 2 minutes

/-- A date or time in one spelling: a capital letter between date and time. -/
def DateTime.text (value : DateTime) : String :=
  let date := (value.date.map Date.text).getD ""
  let between := if value.date.isSome && value.time.isSome then "T" else ""
  let time := (value.time.map Time.text).getD ""
  date ++ between ++ time ++ (value.offset.map Offset.text).getD ""

end Toml

end SourceAudit
