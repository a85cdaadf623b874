import SourceAudit.Toml.Basic

/-!
# Bare values: truth values, numbers, dates and times

A bare value is the longest run of the characters that such values are made of. Whatever may
follow a value is none of those characters, so what a run is can be decided from the whole of it.
One case needs more: a date and a time may have a blank between them instead of a letter.

Underscores may stand between digits and nowhere else. Integers are signed words of 64 bits. A
float that is larger than every double is refused.
-/

namespace SourceAudit

namespace Toml

/-- The characters of bare values. -/
def isBare (c : Char) : Bool :=
  c.isAlphanum || c = '_' || c = '+' || c = '-' || c = '.' || c = ':'

/-! ## Numbers -/

/-- Digits of a kind, perhaps with single underscores between them. -/
def isDigitRun (isDigit : Char → Bool) : List Char → Bool
  | [] => false
  | [c] => isDigit c
  | c :: '_' :: rest => isDigit c && isDigitRun isDigit rest
  | c :: rest => isDigit c && isDigitRun isDigit rest

/-- Decimal digits without a superfluous leading zero. -/
def isWhole (digits : List Char) : Bool :=
  isDigitRun Char.isDigit digits && (digits.head? != some '0' || digits.length = 1)

/-- A token without its underscores. -/
def plain (token : List Char) : List Char := token.filter (· != '_')

/-- A sign, if there is one, and the rest; the truth value says whether it is a minus. -/
def sign : List Char → Bool × List Char
  | '-' :: rest => (true, rest)
  | '+' :: rest => (false, rest)
  | rest => (false, rest)

/-- The value of a digit in a base up to sixteen. -/
def digitValue (c : Char) : Nat :=
  if c.isDigit then c.toNat - 48 else if c.isLower then c.toNat - 87 else c.toNat - 55

/-- The value of digits in a base. -/
def digitsValue (base : Nat) (digits : List Char) : Nat :=
  digits.foldl (fun value c => value * base + digitValue c) 0

/-- Whether a character is a hexadecimal digit. -/
def isHexDigit (c : Char) : Bool :=
  c.isDigit || ('a' ≤ c && c ≤ 'f') || ('A' ≤ c && c ≤ 'F')

/-- The first number that does not fit into a signed word of 64 bits. -/
def signedBound : Nat := Nat.pow 2 63

/-- A number that fits into a signed word of 64 bits. -/
def inWord (n : Int) : Option Int :=
  if -(signedBound : Int) ≤ n ∧ n < signedBound then some n else none

/-- Digits behind the mark of a base. -/
def basedInteger? (base : Nat) (isDigit : Char → Bool) (digits : List Char) : Option Int :=
  if isDigitRun isDigit digits then inWord (digitsValue base (plain digits)) else none

/-- The integer that a token is. -/
def integer? (token : List Char) : Option Int :=
  match token with
  | '0' :: 'x' :: digits => basedInteger? 16 isHexDigit digits
  | '0' :: 'o' :: digits => basedInteger? 8 (fun c => '0' ≤ c && c ≤ '7') digits
  | '0' :: 'b' :: digits => basedInteger? 2 (fun c => c = '0' || c = '1') digits
  | _ =>
    let (negative, digits) := sign token
    if isWhole digits then
      let value : Int := digitsValue 10 (plain digits)
      inWord (if negative then -value else value)
    else none

/-- The exponent behind its letter. -/
def exponent? (token : List Char) : Option Int :=
  let (negative, digits) := sign token
  if isDigitRun Char.isDigit digits then
    let value : Int := digitsValue 10 (plain digits)
    some (if negative then -value else value)
  else none

/-- A decimal: digits and the power of ten they are multiplied by. -/
structure Decimal where
  digits : List Char
  power : Int

/-- Whether a character marks an exponent. -/
def isExponentMark (c : Char) : Bool := c = 'e' || c = 'E'

/-- The decimal that an unsigned token with a fraction or an exponent is. -/
def decimal? (token : List Char) : Option Decimal := do
  let whole := token.takeWhile fun c => c != '.' && !isExponentMark c
  guard (isWhole whole)
  match token.drop whole.length with
  | [] => none
  | '.' :: rest =>
    let fraction := rest.takeWhile fun c => !isExponentMark c
    guard (isDigitRun Char.isDigit fraction)
    let digits := plain whole ++ plain fraction
    let places : Int := (plain fraction).length
    match rest.drop fraction.length with
    | [] => return ⟨digits, -places⟩
    | _ :: rest => return ⟨digits, (← exponent? rest) - places⟩
  | _ :: rest => return ⟨plain whole, ← exponent? rest⟩

/-- The least number that rounds beyond the largest double. -/
def doubleBound : Nat := Nat.pow 2 1024 - Nat.pow 2 970

/-- Whether a decimal is larger than every double. -/
def Decimal.overflows (decimal : Decimal) : Bool :=
  let digits := decimal.digits.dropWhile (· = '0')
  let size : Int := digits.length + decimal.power
  if digits.isEmpty || size < 300 then false
  else if 320 < size then true
  else if 0 ≤ decimal.power then
    doubleBound ≤ digitsValue 10 digits * Nat.pow 10 decimal.power.toNat
  else doubleBound * Nat.pow 10 (-decimal.power).toNat ≤ digitsValue 10 digits

/-- Whether a token is a float. -/
def isFloat (token : List Char) : Bool :=
  let (negative, rest) := sign token
  rest = ['i', 'n', 'f'] || rest = ['n', 'a', 'n'] ||
    match decimal? rest with
    | some decimal => negative || !decimal.overflows
    | none => false

/-! ## Dates and times -/

/-- Two digits. -/
def twoDigits? : List Char → Option (Nat × List Char)
  | a :: b :: rest =>
    if a.isDigit && b.isDigit then some (digitsValue 10 [a, b], rest) else none
  | _ => none

/-- Four digits. -/
def fourDigits? : List Char → Option (Nat × List Char)
  | a :: b :: c :: d :: rest =>
    if a.isDigit && b.isDigit && c.isDigit && d.isDigit then
      some (digitsValue 10 [a, b, c, d], rest)
    else none
  | _ => none

/-- One given character. -/
def character? (wanted : Char) : List Char → Option (List Char)
  | c :: rest => if c = wanted then some rest else none
  | [] => none

/-- The number of days in a month. -/
def daysIn (year month : Nat) : Nat :=
  if month = 2 then
    if year % 4 = 0 && (year % 100 != 0 || year % 400 = 0) then 29 else 28
  else if month = 4 || month = 6 || month = 9 || month = 11 then 30
  else 31

/-- A date at the start of the text. -/
def date? (text : List Char) : Option (Date × List Char) := do
  let (year, text) ← fourDigits? text
  let text ← character? '-' text
  let (month, text) ← twoDigits? text
  guard (1 ≤ month ∧ month ≤ 12)
  let text ← character? '-' text
  let (day, text) ← twoDigits? text
  guard (1 ≤ day ∧ day ≤ daysIn year month)
  return (⟨year, month, day⟩, text)

/-- Nanoseconds of a fraction; digits beyond the ninth are dropped. -/
def nanoseconds (digits : List Char) : Nat :=
  let digits := digits.take 9
  digitsValue 10 digits * Nat.pow 10 (9 - digits.length)

/-- The fraction at the start of the text, if there is one. -/
def fraction : List Char → Nat × List Char
  | '.' :: rest =>
    let digits := rest.takeWhile Char.isDigit
    if digits.isEmpty then (0, '.' :: rest)
    else (nanoseconds digits, rest.dropWhile Char.isDigit)
  | rest => (0, rest)

/-- Which times and differences there are. -/
structure ClockRules where
  /-- The last hour that counts. -/
  lastHour : Nat
  /-- Whether a difference may have these hours and minutes. -/
  allowsOffset : Nat → Nat → Bool

/-- In a bare value, the last hour is 23, and a difference is less than a day. -/
def ClockRules.bare : ClockRules := ⟨23, fun hours minutes => hours ≤ 23 && minutes ≤ 59⟩

/-- A time at the start of the text; a minute may have a sixty-first second. -/
def time? (rules : ClockRules) (text : List Char) : Option (Time × List Char) := do
  let (hour, text) ← twoDigits? text
  guard (hour ≤ rules.lastHour)
  let text ← character? ':' text
  let (minute, text) ← twoDigits? text
  guard (minute ≤ 59)
  let text ← character? ':' text
  let (second, text) ← twoDigits? text
  guard (second ≤ 60)
  let (nanosecond, text) := fraction text
  return (⟨hour, minute, second, nanosecond⟩, text)

/-- The difference to universal time that the whole text is. Minutes beyond the sixtieth make
hours. -/
def offset? (rules : ClockRules) : List Char → Option Offset
  | ['Z'] => some .zulu
  | ['z'] => some .zulu
  | c :: rest => do
    guard (c = '+' ∨ c = '-')
    let (hours, rest) ← twoDigits? rest
    let rest ← character? ':' rest
    let (minutes, rest) ← twoDigits? rest
    guard (rules.allowsOffset hours minutes ∧ rest.isEmpty)
    return .custom (c = '-') (hours + minutes / 60) (minutes % 60)
  | [] => none

/-- Whether a character may stand between a date and a time. -/
def isTimeMark (c : Char) : Bool := c = 'T' || c = 't' || c = ' '

/-- The date or time that a token is. -/
def dateTime? (rules : ClockRules) (token : List Char) : Option DateTime :=
  match date? token with
  | some (date, []) => some { date := date }
  | some (date, mark :: rest) => do
    guard (isTimeMark mark)
    let (time, rest) ← time? rules rest
    if rest.isEmpty then return { date := date, time := time }
    else return { date := date, time := time, offset := ← offset? rules rest }
  | none =>
    match time? rules token with
    | some (time, []) => some { time := time }
    | _ => none

/-! ## Tokens -/

/-- The value that a token is. -/
def ofToken? (token : List Char) : Option Value :=
  if token = ['t', 'r', 'u', 'e'] then some (.boolean true)
  else if token = ['f', 'a', 'l', 's', 'e'] then some (.boolean false)
  else
    match dateTime? .bare token with
    | some value => some (.dateTime value)
    | none =>
      if isFloat token then some (.float (String.ofList token))
      else (integer? token).map .integer

/-- Whether the text behind a date goes on with a blank and an hour. -/
def continuesWithTime : List Char → Bool
  | ' ' :: a :: b :: ':' :: _ => a.isDigit && b.isDigit
  | _ => false

/-- The bare value at the start of the text. -/
def scalar? (text : List Char) : Option (Value × List Char) :=
  let token := text.takeWhile isBare
  let rest := text.dropWhile isBare
  if (date? token).any (·.2.isEmpty) && continuesWithTime rest then
    let time := (rest.drop 1).takeWhile isBare
    (ofToken? (token ++ ' ' :: time)).map (·, (rest.drop 1).dropWhile isBare)
  else (ofToken? token).map (·, rest)

end Toml

end SourceAudit
