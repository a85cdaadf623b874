import SourceAudit.Concrete.Basic
import SourceAudit.Json.Basic
import SourceAudit.Text.Basic

/-!
# The flat JSON form of a concrete tree

A tree is written as the list of its nodes in document order. Each is one array: its depth, its
kind, its fields with commas between them, its marks, its first byte and the first byte behind it,
and its row and column. The marks are letters: `n` for named, `x` for extra, `e` for an error and
`m` for missing.
-/

namespace SourceAudit

/-- The fields written in one text. -/
def fieldsOf (text : String) : List String :=
  if text.isEmpty then [] else Text.split ',' text

/-- The row that an array is. -/
def Row.ofJson? : Json → Option Row
  | .arr [depth, kind, fields, marks, start, stop, row, column] => do
    let marks := (← marks.text?).toList
    return {
      depth := ← depth.word?
      tag := {
        kind := ← kind.text?
        fields := fieldsOf (← fields.text?)
        named := marks.contains 'n'
        extra := marks.contains 'x'
        error := marks.contains 'e'
        missing := marks.contains 'm'
        start := ← start.word?
        stop := ← stop.word?
        row := ← row.word?
        column := ← column.word? } }
  | _ => none

/-- The concrete tree that a list of rows is. -/
def Concrete.ofJson? (value : Json) : Option Concrete := do
  Concrete.ofRows? (← (← value.items?).mapM Row.ofJson?)

end SourceAudit
