import SourceAudit.Json.Printer
import SourceAudit.Session

/-!
# Reports

A report lists the files in which something was found and the files that do not parse, both in the
order in which they were analysed, and the number of files analysed. A file with nothing to say is
only counted.

Each file is analysed in a session of its own, so no file has an influence on what is said of
another. A file that cannot be read is different: then there is no report.

Three renderings: text, with an entry for each issue under its file; JSON, which holds everything;
and compact, with one line for each issue.
-/

namespace SourceAudit

/-- The issues of one file. -/
structure FileReport where
  file : String
  issues : List Issue
  deriving DecidableEq, Repr

/-- A file that does not parse. -/
structure FileError where
  file : String
  message : String
  line : Option Nat
  deriving DecidableEq, Repr

/-- The results of one run over files. -/
structure Report where
  /-- The files with issues. -/
  files : List FileReport := []
  /-- The files that do not parse. -/
  errors : List FileError := []
  /-- The number of files analysed, those that do not parse included. -/
  filesChecked : Nat := 0
  deriving DecidableEq, Repr

/-- How a report is rendered. -/
inductive Report.Format where
  | text
  | json
  | compact
  deriving DecidableEq, Repr

/-- What a report says of a source that does not parse. -/
def FileError.ofParseError (error : ParseError) : FileError :=
  ⟨error.sourceName, error.fault.message, error.line⟩

namespace Report

/-! ## Analysing files -/

/-- Adds the outcome of the analysis of one file. -/
def add (report : Report) (file : String) : Except ParseError (List Issue) → Report
  | .ok [] => { report with filesChecked := report.filesChecked + 1 }
  | .ok issues =>
    { report with
      files := report.files ++ [⟨file, issues⟩]
      filesChecked := report.filesChecked + 1 }
  | .error error =>
    { report with
      errors := report.errors ++ [.ofParseError error]
      filesChecked := report.filesChecked + 1 }

/-- The outcome of the analysis of one text in a session of its own. -/
def outcome (provider : Provider) (registry : Registry) (file text : String) :
    Except ParseError (List Issue) :=
  ((Session.start file text).analyse provider registry).1

/-- Analyses files on top of a report; the error is the first file that cannot be read. -/
def extend (provider : Provider) (registry : Registry) (read : String → Option String)
    (report : Report) : List String → Except String Report
  | [] => .ok report
  | file :: files =>
    match read file with
    | none => .error file
    | some text =>
      extend provider registry read (report.add file (outcome provider registry file text)) files

/-- The report over files. -/
def ofFiles (provider : Provider) (registry : Registry) (read : String → Option String)
    (files : List String) : Except String Report :=
  extend provider registry read {} files

/-- The number of issues in all files. -/
def issueCount (report : Report) : Nat :=
  report.files.foldr (fun file count => file.issues.length + count) 0

/-! ## Rendering -/

/-- The line under each entry of a text report. -/
def separator : String := String.ofList (List.replicate 40 '-')

/-- The part of a text report for one file. -/
def textSection (file : FileReport) : String :=
  "File: " ++ file.file ++ "\n\n" ++
    String.join (file.issues.map fun issue => issue.entry ++ separator ++ "\n")

/-- The text rendering. -/
def renderText (report : Report) : String :=
  if report.issueCount = 0 then "No issues found.\n"
  else String.join (report.files.map textSection)

/-- The compact rendering. -/
def renderCompact (report : Report) : String :=
  String.join (report.files.flatMap fun file =>
    file.issues.map fun issue => file.file ++ ":" ++ issue.summary ++ "\n")

/-- The object of a report. -/
def toJson (report : Report) : Json :=
  .obj [
    ("files", .arr (report.files.map fun file =>
      .obj [("file", .str file.file), ("issues", .arr (file.issues.map Issue.toJson))])),
    ("errors", .arr (report.errors.map fun error =>
      .obj [("file", .str error.file), ("message", .str error.message),
        ("line", Json.orNull Json.nat error.line)])),
    ("files_checked", .nat report.filesChecked)]

/-- The JSON rendering. -/
def renderJson (report : Report) : String := report.toJson.toPrettyText ++ "\n"

/-- A report in one of the formats. -/
def render (report : Report) : Format → String
  | .text => report.renderText
  | .json => report.renderJson
  | .compact => report.renderCompact

/-- The format of a name. -/
def Format.ofName? (name : String) : Option Format :=
  if name = "text" then some .text
  else if name = "json" then some .json
  else if name = "compact" then some .compact
  else none

end Report

end SourceAudit
