import Mathlib.Data.List.Basic
import SourceAudit.Proofs.Json.Pretty
import SourceAudit.Report

/-!
# The JSON rendering of a report loses nothing

A report is read back from its JSON rendering, member by member: the files with their issues, the
files that do not parse, and the count (`Report.ofJson?`). Texts may hold anything. A number is read
below `Json.wordBound` only, so a report is read back if its numbers are (`Report.Fits`); that two
reports differ shows in their renderings without that proviso.
-/

namespace SourceAudit

/-! ## Reading a report -/

/-- The issues of one file that a value is. -/
def FileReport.ofJson? (value : Json) : Option FileReport := do
  let file ← (← value.member? "file").text?
  let issues ← (← value.member? "issues").items?
  return ⟨file, ← issues.mapM Issue.ofJson?⟩

/-- The file that does not parse that a value is. -/
def FileError.ofJson? (value : Json) : Option FileError := do
  let file ← (← value.member? "file").text?
  let message ← (← value.member? "message").text?
  return ⟨file, message, ← (← value.member? "line").optional? Json.word?⟩

/-- The report that a value is. -/
def Report.ofJson? (value : Json) : Option Report := do
  let files ← (← value.member? "files").items?
  let errors ← (← value.member? "errors").items?
  let filesChecked ← (← value.member? "files_checked").word?
  return ⟨← files.mapM FileReport.ofJson?, ← errors.mapM FileError.ofJson?, filesChecked⟩

/-- Every number in a report can be read back. -/
structure Report.Fits (report : Report) : Prop where
  issues : ∀ file ∈ report.files, ∀ issue ∈ file.issues, issue.line < Json.wordBound
  errors : ∀ error ∈ report.errors, ∀ line ∈ error.line, line < Json.wordBound
  filesChecked : report.filesChecked < Json.wordBound

/-! ## Writing, then reading -/

/-- A number below the bound is read back from how it is written. -/
theorem Json.word?_nat {n : Nat} (small : n < wordBound) : (Json.nat n).word? = some n :=
  if_pos small

/-- A list that is written item by item is read back item by item. -/
theorem mapM_map_eq_some {α : Type} {write : α → Json} {read : Json → Option α} {values : List α}
    (each : ∀ value ∈ values, read (write value) = some value) :
    (values.map write).mapM read = some values := by
  induction values with
  | nil => rfl
  | cons value values ih =>
    rw [List.forall_mem_cons] at each
    rw [List.map_cons, List.mapM_cons, each.1, ih each.2]
    rfl

/-- An issue whose line fits is read back from its object, field by field. -/
theorem Issue.ofJson?_toJson {issue : Issue} (small : issue.line < Json.wordBound) :
    Issue.ofJson? issue.toJson = some issue := by
  show (do
    return ⟨← (Json.nat issue.line).word?, ← some issue.explanation, ← some issue.code,
      ← some issue.checker⟩ : Option Issue) = _
  rw [Json.word?_nat small]
  rfl

namespace Report

/-- The value of the issues of one file. -/
def fileJson (file : FileReport) : Json :=
  .obj [("file", .str file.file), ("issues", .arr (file.issues.map Issue.toJson))]

/-- The value of a file that does not parse. -/
def errorJson (error : FileError) : Json :=
  .obj [("file", .str error.file), ("message", .str error.message),
    ("line", Json.orNull Json.nat error.line)]

theorem toJson_eq (report : Report) :
    report.toJson = .obj [("files", .arr (report.files.map fileJson)),
      ("errors", .arr (report.errors.map errorJson)),
      ("files_checked", .nat report.filesChecked)] := rfl

/-- The report on a file is read back if the lines of all its issues fit. -/
theorem ofJson?_fileJson {file : FileReport}
    (small : ∀ issue ∈ file.issues, issue.line < Json.wordBound) :
    FileReport.ofJson? (fileJson file) = some file := by
  show (do return ⟨file.file, ← (file.issues.map Issue.toJson).mapM Issue.ofJson?⟩ :
    Option FileReport) = _
  rw [mapM_map_eq_some fun issue mem => Issue.ofJson?_toJson (small issue mem)]
  rfl

/-- The error of a file is read back if its line fits, and an unknown line is read back from
null. -/
theorem ofJson?_errorJson {error : FileError} (small : ∀ line ∈ error.line, line < Json.wordBound) :
    FileError.ofJson? (errorJson error) = some error := by
  obtain ⟨file, message, line⟩ := error
  cases line with
  | none => rfl
  | some line =>
    show (do return ⟨file, message, ← (Json.word? (Json.nat line)).map some⟩ :
      Option FileError) = _
    rw [Json.word?_nat (small line rfl)]
    rfl

/-- A report in which all numbers fit is read back from its object. -/
theorem Fits.ofJson?_toJson {report : Report} (fits : report.Fits) :
    Report.ofJson? report.toJson = some report := by
  show (do
    let filesChecked ← (Json.nat report.filesChecked).word?
    return ⟨← (report.files.map fileJson).mapM FileReport.ofJson?,
      ← (report.errors.map errorJson).mapM FileError.ofJson?, filesChecked⟩ : Option Report) = _
  rw [Json.word?_nat fits.filesChecked,
    mapM_map_eq_some fun file mem => ofJson?_fileJson (fits.issues file mem),
    mapM_map_eq_some fun error mem => ofJson?_errorJson (fits.errors error mem)]
  rfl

/-! ## The text in between -/

/-- All numbers in the object of a report are natural, so its pretty text can be read back as it
stands. -/
theorem plain_toJson (report : Report) : report.toJson.Plain := by
  rw [toJson_eq]
  apply Json.Plain.obj
  simp only [List.forall_mem_cons, List.not_mem_nil, false_implies, implies_true, and_true]
  refine ⟨.arr ?_, .arr ?_, .nat _⟩
  · intro value mem
    obtain ⟨file, -, rfl⟩ := List.mem_map.mp mem
    apply Json.Plain.obj
    simp only [List.forall_mem_cons, List.not_mem_nil, false_implies, implies_true, and_true]
    refine ⟨.str _, .arr ?_⟩
    intro value mem
    obtain ⟨issue, -, rfl⟩ := List.mem_map.mp mem
    apply Json.Plain.obj
    simp only [List.forall_mem_cons, List.not_mem_nil, false_implies, implies_true, and_true]
    exact ⟨.nat _, .str _, .str _, .str _⟩
  · intro value mem
    obtain ⟨error, -, rfl⟩ := List.mem_map.mp mem
    apply Json.Plain.obj
    simp only [List.forall_mem_cons, List.not_mem_nil, false_implies, implies_true, and_true]
    refine ⟨.str _, .str _, ?_⟩
    cases error.line with
    | none => exact .null
    | some line => exact .nat line

/-- What is rendered is the pretty text of the object of the report and is parsed to just that
object, whatever its strings hold. -/
theorem parse?_renderJson (report : Report) :
    Json.parse? report.renderJson = some report.toJson :=
  Json.parse?_toPrettyText report.plain_toJson

/-- Reports with the same object are the same, whether or not their numbers fit: writing loses
nothing, and only reading is bounded. -/
theorem toJson_injective : Function.Injective toJson := by
  have issue : Function.Injective Issue.toJson := by
    rintro ⟨⟩ ⟨⟩ same
    simpa [Issue.toJson, Json.nat] using same
  have file : Function.Injective fileJson := by
    rintro ⟨_, issues⟩ ⟨_, others⟩ same
    simpa [fileJson, (List.map_injective_iff.mpr issue).eq_iff] using same
  have error : Function.Injective errorJson := by
    rintro ⟨_, _, line⟩ ⟨_, _, other⟩ same
    cases line with
    | none =>
      cases other with
      | none => simpa [errorJson, Json.orNull] using same
      | some _ => simp [errorJson, Json.orNull, Json.nat] at same
    | some _ =>
      cases other with
      | none => simp [errorJson, Json.orNull, Json.nat] at same
      | some _ => simpa [errorJson, Json.orNull, Json.nat] using same
  rintro ⟨files, errors, count⟩ ⟨otherFiles, otherErrors, otherCount⟩ same
  simpa [toJson_eq, Json.nat, (List.map_injective_iff.mpr file).eq_iff,
    (List.map_injective_iff.mpr error).eq_iff] using same

/-- **The JSON rendering of a report loses nothing.** It is the text of an object, and if the
numbers in the report are of the size that is read, the report is read back from that object: files
with their issues, files that do not parse, and the count. Different reports have different
renderings, whatever their numbers. -/
theorem renderJson_lossless (report : Report) :
    (∃ members, Json.parse? report.renderJson = some (.obj members) ∧
        (report.Fits → Report.ofJson? (.obj members) = some report)) ∧
      ∀ other : Report, other.renderJson = report.renderJson ↔ other = report := by
  refine ⟨⟨_, report.parse?_renderJson, ?_⟩, ?_⟩
  · intro fits
    exact fits.ofJson?_toJson
  · intro other
    constructor
    · intro same
      have read : some other.toJson = some report.toJson := by
        rw [← parse?_renderJson, ← parse?_renderJson, same]
      exact toJson_injective (Option.some.inj read)
    · rintro rfl
      rfl

/-- A report with the largest number that is read, a line that is not known, a file without issues,
and texts that need every kind of escape. -/
def oddReport : Report where
  files := [⟨"a \"b\"\\c.py", [⟨18446744073709551615, "\x01\n\t\r\x08\x0c/\u007f", "é𝄞", ""⟩]⟩,
    ⟨"", []⟩]
  errors := [⟨"\x1f", "missing `)`", none⟩, ⟨"x.py", "", some 0⟩]
  filesChecked := 4

/-- That report is read back. -/
theorem renderJson_lossless_oddReport :
    oddReport.Fits ∧ ∃ members, Json.parse? oddReport.renderJson = some (.obj members) ∧
      Report.ofJson? (.obj members) = some oddReport := by
  have fits : oddReport.Fits := by
    refine ⟨?_, ?_, ?_⟩ <;> simp [oddReport, Json.wordBound]
  obtain ⟨⟨members, parsed, read⟩, -⟩ := renderJson_lossless oddReport
  exact ⟨fits, members, parsed, read fits⟩

end Report

end SourceAudit
