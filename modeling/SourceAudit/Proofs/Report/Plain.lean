import Mathlib.Data.List.Forall2
import SourceAudit.Proofs.Text
import SourceAudit.Report

/-!
# The plain renderings of a report

The compact rendering has a line for each issue. That an issue takes one line and not more rests on
what it is made of: of the explanation no more than the first line is shown, a number is written in
digits, and names of files and codes of checkers are taken to hold no line feed (`Report.Unbroken`).

The text rendering counts the issues before it says that there are none, and the compact one just
has no line then. `Report.plain_renderings_agree` says that both see the same issues.
-/

namespace SourceAudit

namespace Text

theorem notMem_decimal (n : Nat) : '\n' ∉ (decimal n).toList := by
  intro mem
  rw [decimal, String.toList_ofList] at mem
  have digit := Nat.isDigit_of_mem_toDigits (by decide) (by decide) mem
  revert digit
  decide

end Text

namespace Report

/-- The issues of a report, each with its file: file by file, and in the order of discovery. -/
def found (report : Report) : List (String × Issue) :=
  report.files.flatMap fun file => file.issues.map (file.file, ·)

/-- No name of a file and no code of a checker holds a line feed. -/
def Unbroken (report : Report) : Prop :=
  ∀ file ∈ report.files, '\n' ∉ file.file.toList ∧
    ∀ issue ∈ file.issues, '\n' ∉ issue.code.toList

/-- The line names the file, the line number and the code of the issue, and it shows the first line
of the explanation. -/
def Tells (entry : String × Issue) (line : String) : Prop :=
  ∃ first : String, Text.IsFirstLine entry.2.explanation.toList first.toList ∧
    line = entry.1 ++ ":" ++ Text.decimal entry.2.line ++ ": [" ++ entry.2.code ++ "] " ++ first

/-- The line of an issue in the compact rendering. -/
def compactLine (entry : String × Issue) : String := entry.1 ++ ":" ++ entry.2.summary

section

variable {report : Report} {entry : String × Issue}

/-- There are as many entries to show as there are issues. -/
theorem length_found (report : Report) : report.found.length = report.issueCount := by
  obtain ⟨files, errors, checked⟩ := report
  show (files.flatMap _).length = files.foldr _ 0
  induction files with
  | nil => rfl
  | cons file files ih =>
    rw [List.flatMap_cons, List.length_append, List.length_map, ih, List.foldr_cons]

/-- In an unbroken report no entry to show has a line feed in its file or its code. -/
theorem Unbroken.of_mem (unbroken : report.Unbroken) (mem : entry ∈ report.found) :
    '\n' ∉ entry.1.toList ∧ '\n' ∉ entry.2.code.toList := by
  obtain ⟨file, fileMem, mem⟩ := List.mem_flatMap.mp mem
  obtain ⟨issue, issueMem, rfl⟩ := List.mem_map.mp mem
  obtain ⟨name, codes⟩ := unbroken file fileMem
  exact ⟨name, codes issue issueMem⟩

/-! ## Lines -/

/-- The compact form is one line for each entry, in their order, and each line is ended. -/
theorem renderCompact_eq (report : Report) :
    report.renderCompact = String.join ((report.found.map compactLine).map (· ++ "\n")) := by
  rw [renderCompact, found, List.map_map, List.map_flatMap]
  simp only [List.map_map]
  rfl

/-- There is one line that tells of an issue. -/
theorem tells_iff {line : String} : Tells entry line ↔ line = compactLine entry := by
  have first (text : String) :
      Text.IsFirstLine entry.2.explanation.toList text.toList ↔
        text = Text.firstLine entry.2.explanation := by
    rw [← Text.firstLineChars_eq_iff, Text.firstLine, ← String.toList_inj, String.toList_ofList]
    exact eq_comm
  simp only [Tells, first, exists_eq_left, compactLine, Issue.summary, String.append_assoc]

/-- A line that tells of an entry has no line feed in it: of the text it takes only the first
line. -/
theorem Tells.notMem {line : String} (tells : Tells entry line) (file : '\n' ∉ entry.1.toList)
    (code : '\n' ∉ entry.2.code.toList) : '\n' ∉ line.toList := by
  obtain ⟨first, isFirst, rfl⟩ := tells
  simp only [String.toList_append, List.mem_append, not_or]
  exact ⟨⟨⟨⟨⟨⟨file, by decide⟩, Text.notMem_decimal _⟩, by decide⟩, code⟩, by decide⟩,
    isFirst.notMem⟩

/-! ## Nothing found -/

/-- The compact form is empty exactly if there is no issue, whatever errors there are. -/
theorem renderCompact_eq_empty (report : Report) :
    report.renderCompact = "" ↔ report.issueCount = 0 := by
  rw [renderCompact_eq, ← length_found, List.length_eq_zero_iff]
  cases report.found with
  | nil => exact iff_of_true rfl rfl
  | cons entry rest =>
    refine iff_of_false (fun empty => ?_) (List.cons_ne_nil _ _)
    have chars := congrArg String.toList empty
    simp at chars

/-- The full form is the one sentence exactly if there is no issue. -/
theorem renderText_eq_none (report : Report) :
    report.renderText = "No issues found.\n" ↔ report.issueCount = 0 := by
  rw [renderText]
  split
  next none => exact iff_of_true rfl none
  next some =>
    refine iff_of_false (fun same => ?_) some
    cases files : report.files with
    | nil => simp [issueCount, files] at some
    | cons file rest =>
      -- A section begins with another letter.
      rw [files] at same
      have first := congrArg (fun text => text.toList.head?) same
      simp [textSection] at first

end

/-- **The plain renderings agree on what was found.** Where names of files and codes of checkers
hold no line feed, the compact rendering is made of lines without a line feed, each ended by one:
as many as there are issues, and each of them tells of the issue in its place. And whatever the
report, the text rendering says that there are no issues exactly if none are counted, and so the
compact rendering is empty. -/
theorem plain_renderings_agree (report : Report) :
    (report.Unbroken → ∃ lines : List String,
      report.renderCompact = String.join (lines.map (· ++ "\n")) ∧
      (∀ line ∈ lines, '\n' ∉ line.toList) ∧
      lines.length = report.issueCount ∧
      List.Forall₂ Tells report.found lines) ∧
      (report.renderText = "No issues found.\n" ↔ report.issueCount = 0) ∧
      (report.renderCompact = "" ↔ report.issueCount = 0) := by
  refine ⟨?_, report.renderText_eq_none, report.renderCompact_eq_empty⟩
  intro unbroken
  refine ⟨report.found.map compactLine, report.renderCompact_eq, ?_, ?_, ?_⟩
  · intro line mem
    obtain ⟨entry, entryMem, rfl⟩ := List.mem_map.mp mem
    obtain ⟨file, code⟩ := unbroken.of_mem entryMem
    exact (tells_iff.mpr rfl).notMem file code
  · rw [List.length_map, length_found]
  · rw [List.forall₂_map_right_iff, List.forall₂_same]
    exact fun entry _ => tells_iff.mpr rfl

/-- A report with explanations that break lines in each way, and with a file without issues. -/
def brokenExplanations : Report where
  files := [
    ⟨"a.py", [⟨3, "first\r\nsecond", "PA001", "one"⟩, ⟨4, "", "PA002", "two"⟩]⟩,
    ⟨"b.py", []⟩,
    ⟨"c.py", [⟨0, "lone\rreturn\nsecond", "PA001", "one"⟩, ⟨7, "\nsecond", "PA002", "two"⟩]⟩]
  filesChecked := 3

/-- The four issues take four lines, and the first of them ends before the carriage return. -/
theorem plain_renderings_agree_brokenExplanations :
    brokenExplanations.Unbroken ∧
      ∃ lines : List String,
        brokenExplanations.renderCompact = String.join (lines.map (· ++ "\n")) ∧
        (∀ line ∈ lines, '\n' ∉ line.toList) ∧ lines.length = 4 ∧
        lines.head? = some "a.py:3: [PA001] first" := by
  have unbroken : brokenExplanations.Unbroken := by
    unfold Unbroken
    decide
  obtain ⟨lines, joined, clean, count, tells⟩ :=
    (plain_renderings_agree brokenExplanations).1 unbroken
  obtain ⟨line, rest, told, -, rfl⟩ := List.forall₂_cons_left_iff.mp tells
  refine ⟨unbroken, line :: rest, joined, clean, count, ?_⟩
  rw [List.head?_cons, tells_iff.mp told]
  decide

end Report

end SourceAudit
