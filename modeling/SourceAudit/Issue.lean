import SourceAudit.Json.Basic
import SourceAudit.Text.Basic

/-!
# Findings, issues and the sink that collects them

A checker makes findings: a line and an explanation. A finding becomes an issue when it is
reported into a sink, which adds the code and the name of the checker that is running. The sink
only ever grows at its end, so issues stand in the order of discovery.

A line that is not known is reported as line zero.
-/

namespace SourceAudit

/-- What a checker has to say about a line. -/
structure Finding where
  line : Nat
  explanation : String
  deriving DecidableEq, Repr

/-- A finding with the checker that made it. -/
structure Issue where
  line : Nat
  explanation : String
  /-- The code of the checker. -/
  code : String
  /-- The name of the checker. -/
  checker : String
  deriving DecidableEq, Repr

namespace Issue

/-- The entry of an issue in a text report. -/
def entry (issue : Issue) : String :=
  "Line: " ++ Text.decimal issue.line ++ "\nIssue: " ++ issue.explanation ++ "\n"

/-- An issue on one line: of the explanation only the first line is shown. -/
def summary (issue : Issue) : String :=
  Text.decimal issue.line ++ ": [" ++ issue.code ++ "] " ++ Text.firstLine issue.explanation

/-- The object of an issue. -/
def toJson (issue : Issue) : Json :=
  .obj [("line", .nat issue.line), ("explanation", .str issue.explanation),
    ("code", .str issue.code), ("checker", .str issue.checker)]

/-- The issue that a value is; every field is required. -/
def ofJson? (value : Json) : Option Issue := do
  match (← value.layout?).fields? ["line", "explanation", "code", "checker"] with
  | some [some line, some explanation, some code, some checker] =>
    return ⟨← line.word?, ← explanation.text?, ← code.text?, ← checker.text?⟩
  | _ => none

end Issue

/-- Issues in the order of discovery, and the checker that findings are attributed to. -/
structure Sink where
  issues : List Issue := []
  code : String := ""
  checker : String := ""
  deriving DecidableEq, Repr

namespace Sink

/-- Attributes what follows to a checker. -/
def credit (code checker : String) (sink : Sink) : Sink :=
  { sink with code := code, checker := checker }

/-- Adds a finding at the end. -/
def report (sink : Sink) (finding : Finding) : Sink :=
  { sink with
    issues := sink.issues ++ [⟨finding.line, finding.explanation, sink.code, sink.checker⟩] }

/-- Forgets the issues. -/
def clear (sink : Sink) : Sink := { sink with issues := [] }

end Sink

end SourceAudit
