import SourceAudit.Disk.Basic
import SourceAudit.Glob.Expression
import SourceAudit.Ignore.Rule

/-!
# Lists of what is left out

A list is a file with a rule on each line. A line that is at fault says nothing, and the others
still count; but a list with a pattern that is nested too deeply says nothing at all. The first
fault of a list is kept, because some lists must have none.

A file that is not text is a list up to its first line that is not.
-/

namespace SourceAudit

/-- What a list says. -/
structure IgnoreList where
  rules : List IgnoreRule := []

namespace IgnoreList

/-- What is wrong with a list. -/
inductive Fault where
  /-- The line with this number, of which the first is 1. -/
  | line (number : Nat) (fault : IgnoreRule.Fault)
  /-- A pattern that is nested too deeply. -/
  | nesting (spoiler : Glob.Spoiler)

/-- The wording of a fault of the list at a path. -/
def Fault.message (path : String) : Fault → String
  | .line number fault => path ++ ": line " ++ Text.decimal number ++ ": " ++ fault.message
  | .nesting spoiler => spoiler.message

/-! ## Lines -/

/-- A line less the carriage return at its end. -/
def dropReturn (line : List Char) : List Char :=
  if line.getLast? = some '\r' then line.dropLast else line

/-- A text less the byte order marks in front. -/
def dropMarks (line : List Char) : List Char := line.dropWhile (· = '\uFEFF')

/-- The lines of a text. Only the end of a line takes a carriage return with it. -/
def linesOf (text : List Char) : List (List Char) :=
  let lines := Text.splitList '\n' text
  match lines.dropLast.map dropReturn ++ (lines.getLast?).toList with
  | first :: lines => dropMarks first :: lines
  | [] => []

/-- The text that bytes start with, up to the first line that is none. -/
def readableText (bytes : List UInt8) : List Char :=
  let lines := (Text.splitList 10 bytes).map fun line => String.fromUTF8? ⟨line.toArray⟩
  ("\n".intercalate ((lines.takeWhile Option.isSome).filterMap id)).toList

/-- The lines of the list in a file. -/
def linesIn : Content → List (List Char)
  | .text s => linesOf s.toList
  | .bytes raw => linesOf (readableText raw)

/-! ## Lists -/

/-- The rules on lines, as far as they have any. -/
def rulesOn (lines : List (List Char)) : List IgnoreRule :=
  lines.filterMap fun line =>
    match IgnoreRule.ofLine line with
    | .ok rule => rule
    | .error _ => none

/-- The first line that is at fault. -/
def lineFault? (lines : List (List Char)) : Option Fault :=
  (lines.zipIdx 1).findSome? fun (line, number) =>
    match IgnoreRule.ofLine line with
    | .ok _ => none
    | .error fault => some (.line number fault)

/-- The pattern of some rules that is nested too deeply. -/
def spoiler? (rules : List IgnoreRule) : Option Glob.Spoiler := Glob.spoiler? (rules.map (·.glob))

/-- What the list in a file says. -/
def ofContent (content : Content) : IgnoreList :=
  let rules := rulesOn (linesIn content)
  if (spoiler? rules).isSome then {} else ⟨rules⟩

/-- What is wrong with the list in a file. -/
def fault? (content : Content) : Option Fault :=
  let lines := linesIn content
  lineFault? lines <|> (spoiler? (rulesOn lines)).map .nesting

/-- What a list says of what has this path below its folder. -/
def decide? (list : IgnoreList) (isFolder : Bool) (path : String) : Option Verdict :=
  IgnoreRule.decide? isFolder path list.rules

end IgnoreList

end SourceAudit
