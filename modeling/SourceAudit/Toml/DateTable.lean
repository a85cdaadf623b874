import SourceAudit.Toml.Scalar

/-!
# Dates and times that are written as tables

A date or time can be written as a table: its first entry has a name that is set aside for this, and
the text of the date or time for its value. What follows that entry is passed over. Only the first
entry counts, so a table in which the name comes later is a table like any other.

As a text, a date or time may say more than as a bare value: 24 is an hour, and the difference to
universal time may be up to a whole day, with any two digits for its minutes.

`Value.withDates?` puts dates and times in the place of the tables they are written as, and has no
answer if the first entry of a table has the name but not the text.
-/

namespace SourceAudit

namespace Toml

/-- The name that is set aside. -/
def dateKey : String := "$__toml_private_datetime"

/-- In a text, 24 is an hour, and a difference is at most a day. -/
def ClockRules.spelled : ClockRules := ⟨24, fun hours minutes => hours * 60 + minutes ≤ 24 * 60⟩

/-- The date or time that a text is. -/
def DateTime.ofText? (text : String) : Option DateTime := dateTime? .spelled text.toList

/-- The date or time that a value spells. -/
def DateTime.ofValue? : Value → Option DateTime
  | .string text => DateTime.ofText? text
  | _ => none

mutual

/-- A value with dates and times in the place of the tables they are written as. -/
def Value.withDates? : Value → Option Value
  | .array items => (allWithDates? items).map .array
  | .table [] => some (.table [])
  | .table ((key, value) :: entries) =>
    if key = dateKey then (DateTime.ofValue? value).map .dateTime
    else do
      let value ← value.withDates?
      let entries ← entriesWithDates? entries
      return .table ((key, value) :: entries)
  | value => some value

def allWithDates? : List Value → Option (List Value)
  | [] => some []
  | value :: values => do
    let value ← value.withDates?
    let values ← allWithDates? values
    return value :: values

def entriesWithDates? : List (String × Value) → Option Table
  | [] => some []
  | (key, value) :: entries => do
    let value ← value.withDates?
    let entries ← entriesWithDates? entries
    return (key, value) :: entries

end

end Toml

end SourceAudit
