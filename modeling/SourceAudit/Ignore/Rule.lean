import SourceAudit.Glob.Parser
import SourceAudit.Text.Blank

/-!
# Rules for what is left out

A rule is one line: a pattern, perhaps with a sign before it or a slash at either end. Most rules
leave out what they apply to, and one that starts with `!` takes it back in. A line can also be a
comment or empty, and then it says nothing; and it can have a pattern that is none, and then it is
at fault.
-/

namespace SourceAudit

/-- What a rule says. -/
inductive Verdict where
  | leaveOut
  | takeIn
  deriving DecidableEq, Repr

/-- A line that says something. -/
structure IgnoreRule where
  glob : Glob
  verdict : Verdict
  /-- The rule applies to folders only. -/
  foldersOnly : Bool

namespace IgnoreRule

/-! ## The parts of a line -/

/-- What a line says before its pattern starts: the verdict, and whether the pattern is bound to the
folder of the list. A backslash keeps `!` and `#` from saying anything. -/
def opening : List Char → Verdict × Bool × List Char
  | '\\' :: '!' :: rest => (.leaveOut, false, '!' :: rest)
  | '\\' :: '#' :: rest => (.leaveOut, false, '#' :: rest)
  | '!' :: '/' :: rest => (.takeIn, true, rest)
  | '!' :: rest => (.takeIn, false, rest)
  | '/' :: rest => (.leaveOut, true, rest)
  | line => (.leaveOut, false, line)

/-- What the end of a line says: a slash makes it a rule for folders, and a backslash before that
slash says nothing. -/
def closing (line : List Char) : Bool × List Char :=
  match line.reverse with
  | '/' :: '\\' :: rest => (true, rest.reverse)
  | '/' :: rest => (true, rest.reverse)
  | _ => (false, line)

/-- The pattern for a line. Without a slash in it, it holds in every folder below; and `**` at the
end means what is inside, not the folder itself. -/
def pattern (bound : Bool) (line : List Char) : List Char :=
  let anywhere := !bound && !line.contains '/' && line != ['*', '*']
  let line := if anywhere then "**/".toList ++ line else line
  if "/**".toList.isSuffixOf line then line ++ "/*".toList else line

/-- A line less the blanks at its end. A blank behind a backslash stays, and then so does all. -/
def trimLine (line : List Char) : List Char :=
  if "\\ ".toList.isSuffixOf line then line else Text.trimRightChars line

/-! ## Lines -/

/-- What is wrong with a line. -/
structure Fault where
  /-- The line, less the blanks at its end. -/
  line : String
  /-- What is wrong with its pattern. -/
  cause : Glob.Fault
  deriving DecidableEq, Repr

/-- The wording of a fault. -/
def Fault.message (fault : Fault) : String :=
  "error parsing glob '" ++ fault.line ++ "': " ++ fault.cause.message

/-- The rule of a line that is not a comment and has no blanks at its end. -/
def ofTrimmed (line : List Char) : Except Fault IgnoreRule :=
  let (verdict, bound, inner) := opening line
  let (foldersOnly, inner) := closing inner
  match Glob.parse (pattern bound inner) with
  | .ok glob => .ok ⟨glob, verdict, foldersOnly⟩
  | .error cause => .error ⟨String.ofList line, cause⟩

/-- The rule of a line, if it has one. -/
def ofLine (line : List Char) : Except Fault (Option IgnoreRule) :=
  if line.head? = some '#' then .ok none
  else
    match trimLine line with
    | [] => .ok none
    | line => (ofTrimmed line).map some

/-! ## Verdicts -/

/-- Whether a rule applies to what has this path below the folder of the list. -/
def applies (isFolder : Bool) (path : String) (rule : IgnoreRule) : Bool :=
  (isFolder || !rule.foldersOnly) && rule.glob.isMatch path

/-- What rules say of what has this path: the last rule that applies decides. -/
def decide? (isFolder : Bool) (path : String) (rules : List IgnoreRule) : Option Verdict :=
  (rules.reverse.find? (applies isFolder path)).map (·.verdict)

end IgnoreRule

end SourceAudit
