import SourceAudit.Config.Basic
import SourceAudit.Toml.DateTable
import SourceAudit.Toml.Parser

/-!
# Reading settings

Settings stand in a document of their own, or in the section `tool.pyaudit` of the document that
describes a project. In both they are a record with the fields `preset` and `checkers`, and what is
said of one checker is a record with the field `enabled`. Every field may be absent. A field of
another name is passed over in the settings and refused in what is said of a checker.

As in a tree, a record may also be an array that gives its fields by place, and may break off
early. The two places differ in three respects: a document of its own passes over what stands behind
the last field, where a section refuses it; a section takes a date or time for its text; and in the
document that it is part of, a date or time may be written as a table, also outside the section.
-/

namespace SourceAudit

namespace Config

/-- Where settings stand. -/
inductive Place where
  /-- A document of their own. -/
  | file
  /-- The section of a project's document. -/
  | section
  deriving DecidableEq, Repr

/-- A text. -/
def text? (place : Place) : Toml.Value → Option String
  | .string value => some value
  | .dateTime value => if place = .section then some value.text else none
  | _ => none

/-- A truth value. -/
def truth? : Toml.Value → Option Bool
  | .boolean value => some value
  | _ => none

/-- Whether what stands behind the last field is passed over. -/
def allowsSurplus (place : Place) (surplus : List Toml.Value) : Bool :=
  place = .file || surplus.isEmpty

/-- What is said of one checker. -/
def activation? (place : Place) : Toml.Value → Option (Option Bool)
  | .table entries =>
    if entries.all (·.1 == "enabled") then
      match entries with
      | [] => some none
      | (_, value) :: _ => (truth? value).map some
    else none
  | .array [] => some none
  | .array (value :: surplus) =>
    if allowsSurplus place surplus then (truth? value).map some else none
  | _ => none

/-- What is said of every checker that is named. -/
def checkers? (place : Place) : Toml.Value → Option (List (String × Option Bool))
  | .table entries =>
    entries.mapM fun (name, value) => (activation? place value).map (name, ·)
  | _ => none

/-- Reads a field that may be absent. -/
def fieldOr (default : α) (read : Toml.Value → Option α) : Option Toml.Value → Option α
  | none => some default
  | some value => read value

/-- The settings with these two fields. -/
def ofFields? (place : Place) (preset checkers : Option Toml.Value) : Option Config := do
  let preset ← fieldOr none (fun value => (text? place value).map some) preset
  let checkers ← fieldOr [] (checkers? place) checkers
  return ⟨preset, checkers⟩

/-- The settings that a value is. -/
def ofValue? (place : Place) : Toml.Value → Option Config
  | .table entries => ofFields? place (entries.lookup "preset") (entries.lookup "checkers")
  | .array items =>
    if allowsSurplus place (items.drop 2) then ofFields? place items[0]? items[1]? else none
  | _ => none

/-- The value of the section in a project's document. -/
def section? (document : Toml.Table) : Option Toml.Value :=
  match document.lookup "tool" with
  | some (.table tools) => tools.lookup "pyaudit"
  | _ => none

/-- Whether a project's document has the section. -/
def hasSection (document : Toml.Table) : Bool :=
  match document.lookup "tool" with
  | some (.table tools) => tools.any (·.1 == "pyaudit")
  | _ => false

/-- An answer, or the error that there is none. -/
def orMalformed : Option Config → Except ConfigError Config
  | some config => .ok config
  | none => .error .malformed

/-- The settings of a document of their own. -/
def parse (content : String) : Except ConfigError Config :=
  orMalformed do ofValue? .file (.table (← Toml.parse? content))

/-- The project's document that a text is. -/
def projectDocument? (content : String) : Option Toml.Table := do
  Toml.entriesWithDates? (← Toml.parse? content)

/-- The settings in a project's document; without the section there are none. -/
def parseProject (content : String) : Except ConfigError Config :=
  orMalformed do
    match section? (← projectDocument? content) with
    | some value => ofValue? .section value
    | none => some {}

/-- Whether a text is a project's document with the section. -/
def describesProject (content : String) : Bool :=
  match projectDocument? content with
  | some document => hasSection document
  | none => false

end Config

end SourceAudit
