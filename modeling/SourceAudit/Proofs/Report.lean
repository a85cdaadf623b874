import SourceAudit.Proofs.Session
import SourceAudit.Report

/-!
# What a report says

A report is made file by file, on top of what it said before, and each file is analysed in a session
of its own. So the report over some texts is said at once by what each text adds, whatever stands
before it and behind it: `Report.ofTexts` lists the issues of the texts that have some, the errors
of those that do not parse, and counts them all.
-/

namespace SourceAudit

/-- What is said of a text in which something is found. -/
def FileReport.ofText? (provider : Provider) (registry : Registry) (entry : String × String) :
    Option FileReport :=
  match provider entry.2 entry.1 with
  | .ok tree =>
    if (registry.issues tree).isEmpty then none else some ⟨entry.1, registry.issues tree⟩
  | .error _ => none

/-- What is said of a text that does not parse. -/
def FileError.ofText? (provider : Provider) (entry : String × String) : Option FileError :=
  match provider entry.2 entry.1 with
  | .ok _ => none
  | .error error => some (.ofParseError error)

namespace Report

/-- The report over texts, each under the name of its file. -/
def ofTexts (provider : Provider) (registry : Registry) (texts : List (String × String)) :
    Report where
  files := texts.filterMap (FileReport.ofText? provider registry)
  errors := texts.filterMap (FileError.ofText? provider)
  filesChecked := texts.length

/-- One report after another. -/
def append (report next : Report) : Report where
  files := report.files ++ next.files
  errors := report.errors ++ next.errors
  filesChecked := report.filesChecked + next.filesChecked

section

variable {provider : Provider} {registry : Registry} {report : Report}
  {read : String → Option String} {files : List String} {texts : List (String × String)}

/-- A session of its own sees the text and nothing else. -/
theorem outcome_eq (provider : Provider) (registry : Registry) (file text : String) :
    outcome provider registry file text = (provider text file).map registry.issues := by
  have nothing : Session.KeepsTruth provider (Session.start file text) := by
    intro outcome h
    cases h
  exact (Session.analyse_eq nothing registry).1

/-- To add the outcome of one file is to append the report over that file alone. -/
theorem add_outcome (file text : String) :
    report.add file (outcome provider registry file text) =
      report.append (ofTexts provider registry [(file, text)]) := by
  rw [outcome_eq]
  cases parsed : provider text file with
  | error error =>
    simp [Except.map, add, append, ofTexts, FileReport.ofText?, FileError.ofText?, parsed]
  | ok tree =>
    cases found : registry.issues tree with
    | nil =>
      simp [Except.map, add, append, ofTexts, FileReport.ofText?, FileError.ofText?, parsed, found]
    | cons issue issues =>
      simp [Except.map, add, append, ofTexts, FileReport.ofText?, FileError.ofText?, parsed, found]

theorem empty_append (report : Report) : append {} report = report := by
  simp only [append, List.nil_append, Nat.zero_add]

/-- Reports over three lists of files can be put together in either way. -/
theorem append_assoc (next last : Report) :
    (report.append next).append last = report.append (next.append last) := by
  simp only [append, List.append_assoc, Nat.add_assoc]

/-- The report over all files is that over some of them and then that over the rest. -/
theorem ofTexts_append (more : List (String × String)) :
    ofTexts provider registry (texts ++ more) =
      (ofTexts provider registry texts).append (ofTexts provider registry more) := by
  simp only [ofTexts, append, List.filterMap_append, List.length_append]

/-- Files that can all be read are reported in order, on top of what was said before. -/
theorem extend_eq_ok (h : files.mapM (fun file => (read file).map (file, ·)) = some texts) :
    extend provider registry read report files =
      .ok (report.append (ofTexts provider registry texts)) := by
  induction files generalizing report texts with
  | nil =>
    cases h
    simp [extend, append, ofTexts]
  | cons file files ih =>
    rw [List.mapM_cons] at h
    obtain ⟨entry, hentry, h⟩ := Option.bind_eq_some_iff.mp h
    obtain ⟨rest, hrest, h⟩ := Option.bind_eq_some_iff.mp h
    obtain ⟨text, htext, rfl⟩ := Option.map_eq_some_iff.mp hentry
    cases h
    rw [extend, htext]
    dsimp only
    rw [ih hrest, add_outcome, append_assoc, ← ofTexts_append, List.singleton_append]

/-- A file that cannot be read leaves no report, however many can be read before it. -/
theorem extend_eq_error {file : String} (mem : file ∈ files) (h : read file = none) :
    ∃ first, extend provider registry read report files = .error first := by
  induction files generalizing report with
  | nil => cases mem
  | cons other files ih =>
    rw [extend]
    cases hother : read other with
    | none => exact ⟨other, rfl⟩
    | some text =>
      rcases List.mem_cons.mp mem with rfl | mem
      · rw [h] at hother
        cases hother
      · exact ih mem

end

end Report

end SourceAudit
