import SourceAudit.Text.Basic

/-!
# Why a source is refused, and where

A source that does not parse is refused as a whole: there is one error, with one cause and at most
one position. The cause is a `Fault`; its wording stands in `Fault.message` and nowhere else.

A `Diagnostic` is the error laid against its source text: the label marks one byte at the position,
or nothing behind the end of the text.
-/

namespace SourceAudit

/-- A place in a source text: line and column counted from one, the offset from zero; columns and
offsets count bytes. -/
structure Position where
  line : Nat
  column : Nat
  offset : Nat
  deriving DecidableEq, Repr

/-- What is wrong with a source. -/
inductive Fault where
  /-- The grammar does not take the text. -/
  | invalid
  /-- The grammar had to supply a token of this kind. -/
  | missing (kind : String)
  /-- The tree would nest deeper than the limit. -/
  | tooDeep
  /-- The statement form of `print`, which the language no longer has. -/
  | printStatement
  /-- The statement form of `exec`, which the language no longer has. -/
  | execStatement
  /-- A handler lists the types it takes without parentheses. -/
  | bareTypes
  /-- A cause that someone else found, in their words. -/
  | noted (message : String)
  deriving DecidableEq, Repr

/-- The wording of a cause. -/
def Fault.message : Fault → String
  | .invalid => "invalid syntax"
  | .missing kind => "missing `" ++ kind ++ "`"
  | .tooDeep => "too deeply nested"
  | .printStatement => "Missing parentheses in call to 'print'"
  | .execStatement => "Missing parentheses in call to 'exec'"
  | .bareTypes => "multiple exception types must be parenthesized"
  | .noted message => message

/-- A source that does not parse. -/
structure ParseError where
  /-- The name of the source. -/
  sourceName : String
  /-- What is wrong. -/
  fault : Fault
  /-- Where, if it is known. -/
  position : Option Position := none
  deriving DecidableEq, Repr

namespace ParseError

/-- The line of the error, if it is known. -/
def line (error : ParseError) : Option Nat := error.position.map Position.line

/-- The error in one sentence. -/
def display (error : ParseError) : String :=
  let place := match error.line with
    | none => ""
    | some line => " at line " ++ Text.decimal line
  "Parse error in " ++ error.sourceName ++ place ++ ": " ++ error.fault.message

end ParseError

/-- A marked stretch of bytes. -/
structure Label where
  offset : Nat
  length : Nat
  deriving DecidableEq, Repr

/-- An error laid against its source text. -/
structure Diagnostic where
  message : String
  help : Option String
  label : Option Label
  deriving DecidableEq, Repr

/-- The code under which parse errors are shown. -/
def Diagnostic.code : String := "pyaudit::parse"

/-- The diagnostic of an error in `source`: the label stays inside the text. -/
def ParseError.diagnose (error : ParseError) (source : String) : Diagnostic where
  message := error.display
  help := error.line.map fun line =>
    "the file does not parse as Python 3 (line " ++ Text.decimal line ++ ")"
  label := error.position.map fun position =>
    let offset := min position.offset source.utf8ByteSize
    ⟨offset, if offset < source.utf8ByteSize then 1 else 0⟩

end SourceAudit
