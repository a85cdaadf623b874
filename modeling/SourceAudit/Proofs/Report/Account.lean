import SourceAudit.Proofs.Concrete.Acceptance
import SourceAudit.Proofs.Report

/-!
# A report accounts for every file once

A file that can be read either does not parse, or has issues, or has none, and which of these it is
depends on the file alone (`Report.Fails`, `Report.Finds`, `Report.IsClean`). A report lists the
files of the first two kinds, each kind in a list of its own.

One file may be given twice, so what is listed are the places in the list of files and not the
names: `Report.ListsInOrder` says that the entries go through the places where a file has something
to be listed, from first to last, and leave none out. As the places ascend, none has two entries.
-/

namespace SourceAudit

/-! ## Errors are about the source that was given -/

/-- Whatever lowering has against a node, it says so under the name of the source. -/
theorem Concrete.sourceName_of_mem_refusals {source : Source} {node : Concrete}
    {error : ParseError} (mem : error ∈ node.refusals source) :
    error.sourceName = source.name := by
  unfold refusals at mem
  split_ifs at mem with tried printed chevron execed
  · obtain ⟨clause, -, mem⟩ := List.mem_flatMap.mp mem
    obtain ⟨comma, -, rfl⟩ := List.mem_map.mp mem
    rfl
  · cases mem
  · rw [List.mem_singleton.mp mem]
    rfl
  · rw [List.mem_singleton.mp mem]
    rfl
  · cases mem

/-- An error names the source that it is about, at whatever stage the source is refused. -/
theorem Grammar.sourceName_of_provider {grammar : Grammar} {text name : String}
    {error : ParseError} (h : grammar.provider text name = .error error) :
    error.sourceName = name := by
  rcases Tree.ofConcrete_eq_error h with
    ⟨bad, -, rfl⟩ | ⟨-, levels, node, -, refusal | ⟨-, rfl⟩⟩
  · rfl
  · exact Concrete.sourceName_of_mem_refusals refusal
  · rfl

namespace Report

/-! ## Entries in the order of the files -/

/-- The entries are those of the files that have one, place by place from first to last. -/
def ListsInOrder {α : Type} (Has : String → α → Prop) (files : List String) (entries : List α) :
    Prop :=
  ∃ places : List Nat, places.Pairwise (· < ·) ∧
    (∀ place, place ∈ places ↔ ∃ file ∈ files[place]?, ∃ entry, Has file entry) ∧
    List.Forall₂ (fun place entry => ∃ file ∈ files[place]?, Has file entry) places entries

/-- A file that has no entry may stand in front without a trace in the list. -/
theorem ListsInOrder.cons_none {α : Type} {Has : String → α → Prop} {file : String}
    {files : List String} {entries : List α} (none : ∀ entry, ¬Has file entry)
    (h : ListsInOrder Has files entries) : ListsInOrder Has (file :: files) entries := by
  obtain ⟨places, ascend, complete, each⟩ := h
  refine ⟨places.map (· + 1), ?_, ?_, ?_⟩
  · rw [List.pairwise_map]
    exact ascend.imp fun before => Nat.succ_lt_succ before
  · intro place
    cases place with
    | zero => simp [none]
    | succ place => simp [complete]
  · rw [List.forall₂_map_left_iff]
    exact each

/-- A file that has an entry may stand in front, and then its entry does. -/
theorem ListsInOrder.cons_some {α : Type} {Has : String → α → Prop} {file : String}
    {files : List String} {entry : α} {entries : List α} (has : Has file entry)
    (h : ListsInOrder Has files entries) : ListsInOrder Has (file :: files) (entry :: entries) := by
  obtain ⟨places, ascend, complete, each⟩ := h
  refine ⟨0 :: places.map (· + 1), ?_, ?_, ?_⟩
  · rw [List.pairwise_cons, List.pairwise_map]
    refine ⟨?_, ascend.imp fun before => Nat.succ_lt_succ before⟩
    intro place mem
    obtain ⟨before, -, rfl⟩ := List.mem_map.mp mem
    exact Nat.succ_pos before
  · intro place
    cases place with
    | zero => simpa using ⟨entry, has⟩
    | succ place => simp [complete]
  · refine .cons ⟨file, rfl, has⟩ ?_
    rw [List.forall₂_map_left_iff]
    exact each

/-- What a list of files is mapped to, where each has at most one entry, is in order. -/
theorem listsInOrder_filterMap {α : Type} {Has : String → α → Prop} {said? : String → Option α}
    {files : List String}
    (has : ∀ file ∈ files, ∀ entry, Has file entry ↔ said? file = some entry) :
    ListsInOrder Has files (files.filterMap said?) := by
  induction files with
  | nil => exact ⟨[], .nil, by simp, .nil⟩
  | cons file files ih =>
    rw [List.forall_mem_cons] at has
    obtain ⟨first, others⟩ := has
    cases found : said? file with
    | none =>
      rw [List.filterMap_cons_none found]
      refine (ih others).cons_none ?_
      intro entry has
      rw [first, found] at has
      cases has
    | some entry =>
      rw [List.filterMap_cons_some found]
      exact (ih others).cons_some ((first entry).mpr found)

/-! ## What becomes of one file -/

section

variable (grammar : Grammar) (registry : Registry) (read : String → Option String)

/-- The file does not parse, and this is what is said of it. -/
def Fails (file : String) (entry : FileError) : Prop :=
  ∃ text error, read file = some text ∧ grammar.provider text file = .error error ∧
    entry = ⟨file, error.fault.message, error.line⟩

/-- A session over the file alone finds something in it, and this is what is said of it. -/
def Finds (file : String) (entry : FileReport) : Prop :=
  ∃ text issues, read file = some text ∧
    ((Session.start file text).analyse grammar.provider registry).1 = .ok issues ∧
    issues ≠ [] ∧ entry = ⟨file, issues⟩

/-- A session over the file alone finds nothing in it. -/
def IsClean (file : String) : Prop :=
  ∃ text, read file = some text ∧
    ((Session.start file text).analyse grammar.provider registry).1 = .ok []

/-- What a report over files says of them. -/
structure Accounts (files : List String) (report : Report) : Prop where
  /-- Every file is counted. -/
  count : report.filesChecked = files.length
  /-- The files that do not parse are listed as errors. -/
  fails : ListsInOrder (Fails grammar read) files report.errors
  /-- The files in which something is found are listed with their issues. -/
  finds : ListsInOrder (Finds grammar registry read) files report.files
  /-- No file is listed both ways. -/
  apart : ∀ file error found, Fails grammar read file error →
    ¬Finds grammar registry read file found
  /-- A file is listed neither way exactly if it parses and nothing is found in it. -/
  clean : ∀ file ∈ files, IsClean grammar registry read file ↔
    (∀ error, ¬Fails grammar read file error) ∧ ∀ found, ¬Finds grammar registry read file found
  /-- Every file that is listed with its issues has some. -/
  issues : ∀ entry ∈ report.files, entry.issues ≠ []

end

section

variable {grammar : Grammar} {registry : Registry} {read : String → Option String}
  {file text : String} {files : List String}

/-- The analysis of a file alone gives the issues of its tree. -/
theorem analyse_eq_ok_iff {issues : List Issue} :
    ((Session.start file text).analyse grammar.provider registry).1 = .ok issues ↔
      ∃ tree, grammar.provider text file = .ok tree ∧ registry.issues tree = issues := by
  have alone := outcome_eq grammar.provider registry file text
  rw [outcome] at alone
  rw [alone]
  cases grammar.provider text file with
  | error error => simp [Except.map]
  | ok tree => simp [Except.map]

/-- A file that can be read fails in just the cases in which the report makes an error of its
text. -/
theorem fails_iff (readable : read file = some text) (entry : FileError) :
    Fails grammar read file entry ↔
      FileError.ofText? grammar.provider (file, text) = some entry := by
  simp only [Fails, FileError.ofText?, readable, Option.some.injEq]
  cases parsed : grammar.provider text file with
  | ok tree => simp [parsed]
  | error error =>
    have name : error.sourceName = file := Grammar.sourceName_of_provider parsed
    simp [parsed, FileError.ofParseError, name, eq_comm]

/-- A file that can be read has issues in just the cases in which the report makes an entry of its
text. -/
theorem finds_iff (readable : read file = some text) (entry : FileReport) :
    Finds grammar registry read file entry ↔
      FileReport.ofText? grammar.provider registry (file, text) = some entry := by
  simp only [Finds, FileReport.ofText?, readable, Option.some.injEq, analyse_eq_ok_iff]
  cases parsed : grammar.provider text file with
  | error error => simp [parsed]
  | ok tree =>
    by_cases filled : registry.issues tree = []
    · simp [parsed, filled]
    · simp [parsed, filled, eq_comm (a := entry)]

/-- A file that can be read is clean exactly if it parses and no checker that runs has an issue with
it. -/
theorem isClean_iff (readable : read file = some text) :
    IsClean grammar registry read file ↔
      ∃ tree, grammar.provider text file = .ok tree ∧ registry.issues tree = [] := by
  simp only [IsClean, readable, Option.some.injEq, exists_eq_left', analyse_eq_ok_iff]

/-- A file that does not parse has no issues. -/
theorem Fails.not_finds {error : FileError} {found : FileReport}
    (fails : Fails grammar read file error) : ¬Finds grammar registry read file found := by
  obtain ⟨text, _, readable, failed, -⟩ := fails
  rw [finds_iff readable, FileReport.ofText?, failed]
  exact Option.some_ne_none found ∘ Eq.symm

/-- A file that can be read is clean exactly if it is of neither of the other kinds. -/
theorem isClean_iff_neither (readable : read file = some text) :
    IsClean grammar registry read file ↔
      (∀ error, ¬Fails grammar read file error) ∧
        ∀ found, ¬Finds grammar registry read file found := by
  simp only [isClean_iff readable, fails_iff readable, finds_iff readable, FileError.ofText?,
    FileReport.ofText?]
  cases grammar.provider text file with
  | error error => simp
  | ok tree => by_cases filled : registry.issues tree = [] <;> simp [filled]

/-! ## What becomes of all of them -/

/-- The files with their texts; one that cannot be read counts as empty. -/
def named (read : String → Option String) (files : List String) : List (String × String) :=
  files.map fun file => (file, (read file).getD "")

theorem read_eq_some (readable : ∀ file ∈ files, read file ≠ none) (mem : file ∈ files) :
    read file = some ((read file).getD "") := by
  obtain ⟨text, there⟩ := Option.ne_none_iff_exists'.mp (readable file mem)
  rw [there]
  rfl

/-- If every file can be read, reading them one after the other comes to an end, with each text
under the name of its file. -/
theorem mapM_read_eq_some (readable : ∀ file ∈ files, read file ≠ none) :
    files.mapM (fun file => (read file).map (file, ·)) = some (named read files) := by
  induction files with
  | nil => rfl
  | cons file files ih =>
    have first := read_eq_some readable List.mem_cons_self
    rw [List.mapM_cons, ih fun file mem => readable file (List.mem_cons_of_mem _ mem), first]
    rfl

/-- If every file can be read, the report over the files is the one over their texts. -/
theorem ofFiles_eq_ok (readable : ∀ file ∈ files, read file ≠ none) :
    ofFiles grammar.provider registry read files =
      .ok (ofTexts grammar.provider registry (named read files)) := by
  rw [ofFiles, extend_eq_ok (mapM_read_eq_some readable), empty_append]

/-- The report over the texts of all files accounts for each of them, place by place. -/
theorem accounts_ofTexts (readable : ∀ file ∈ files, read file ≠ none) :
    Accounts grammar registry read files
      (ofTexts grammar.provider registry (named read files)) where
  count := List.length_map _
  fails := by
    show ListsInOrder _ _ ((named read files).filterMap _)
    rw [named, List.filterMap_map]
    apply listsInOrder_filterMap
    intro file mem
    exact fails_iff (read_eq_some readable mem)
  finds := by
    show ListsInOrder _ _ ((named read files).filterMap _)
    rw [named, List.filterMap_map]
    apply listsInOrder_filterMap
    intro file mem
    exact finds_iff (read_eq_some readable mem)
  apart := fun file error found fails => fails.not_finds
  clean := fun file mem => isClean_iff_neither (read_eq_some readable mem)
  issues := by
    intro entry mem
    obtain ⟨⟨file, text⟩, listed, said⟩ := List.mem_filterMap.mp mem
    obtain ⟨_, _, pair⟩ := List.mem_map.mp listed
    cases pair
    obtain ⟨_, issues, -, -, filled, rfl⟩ :=
      (finds_iff (read_eq_some readable ‹_›) entry).mpr said
    exact filled

/-- Where files cannot all be read, the first that cannot is the answer. -/
theorem extend_eq_first {provider : Provider} {report : Report} {before after : List String}
    (readable : ∀ file ∈ before, read file ≠ none) (unread : read file = none) :
    extend provider registry read report (before ++ file :: after) = .error file := by
  induction before generalizing report with
  | nil => rw [List.nil_append, extend, unread]
  | cons other before ih =>
    rw [List.forall_mem_cons] at readable
    obtain ⟨text, there⟩ := Option.ne_none_iff_exists'.mp readable.1
    rw [List.cons_append, extend, there]
    exact ih readable.2

/-- Files that cannot all be read have a first one that cannot, and there is no report. -/
theorem ofFiles_eq_error {provider : Provider} (unread : ∃ file ∈ files, read file = none) :
    ∃ before first after, files = before ++ first :: after ∧
      (∀ file ∈ before, read file ≠ none) ∧ read first = none ∧
      ofFiles provider registry read files = .error first := by
  have found : (files.find? fun file => (read file).isNone).isSome := by
    rw [List.find?_isSome]
    simpa using unread
  obtain ⟨first, hfirst⟩ := Option.isSome_iff_exists.mp found
  obtain ⟨none, before, after, rfl, readable⟩ := List.find?_eq_some_iff_append.mp hfirst
  rw [Option.isNone_iff_eq_none] at none
  have others : ∀ file ∈ before, read file ≠ Option.none := by
    intro file mem unread
    simpa [unread] using readable file mem
  exact ⟨before, first, after, rfl, others, none, extend_eq_first others none⟩

/-- There is a report only if every file could be read, so a report never passes over an unreadable
one. -/
theorem readable_of_ofFiles {provider : Provider} {report : Report}
    (h : ofFiles provider registry read files = .ok report) :
    ∀ file ∈ files, read file ≠ none := by
  intro file mem unread
  obtain ⟨first, failed⟩ : ∃ first, ofFiles provider registry read files = .error first :=
    extend_eq_error mem unread
  rw [h] at failed
  cases failed

end

/-- **A report accounts for every file once.** If all files can be read there is a report, and it
counts every file, lists those that do not parse with the message and the line of the error, and
lists those in which a session of their own finds something with what it finds; both lists are in
the order of the files, and no file is in both. The report over some files and then others is the
one report and then the other. If some file cannot be read there is no report, and the first such
file is the answer. -/
theorem ofFiles_accounts (grammar : Grammar) (registry : Registry)
    (read : String → Option String) :
    (∀ files, (∀ file ∈ files, read file ≠ none) →
        ∃ report, ofFiles grammar.provider registry read files = .ok report ∧
          Accounts grammar registry read files report) ∧
      (∀ files more report next, ofFiles grammar.provider registry read files = .ok report →
        ofFiles grammar.provider registry read more = .ok next →
        ofFiles grammar.provider registry read (files ++ more) =
          .ok ⟨report.files ++ next.files, report.errors ++ next.errors,
            report.filesChecked + next.filesChecked⟩) ∧
      ∀ files, (∃ file ∈ files, read file = none) →
        ∃ before first after, files = before ++ first :: after ∧
          (∀ file ∈ before, read file ≠ none) ∧ read first = none ∧
          ofFiles grammar.provider registry read files = .error first := by
  refine ⟨?_, ?_, ?_⟩
  · intro files readable
    exact ⟨_, ofFiles_eq_ok readable, accounts_ofTexts readable⟩
  · intro files more report next first second
    have readable : ∀ file ∈ files ++ more, read file ≠ none :=
      List.forall_mem_append.mpr ⟨readable_of_ofFiles first, readable_of_ofFiles second⟩
    rw [ofFiles_eq_ok (readable_of_ofFiles first)] at first
    rw [ofFiles_eq_ok (readable_of_ofFiles second)] at second
    cases first
    cases second
    rw [ofFiles_eq_ok readable, named, List.map_append, ofTexts_append]
    rfl
  · intro files unread
    exact ofFiles_eq_error unread

/-- Takes a statement of old for what it is, and the empty text. -/
def oldGrammar : Grammar := fun text =>
  if text = "exec x\n" then .execModule else .construct 0 0 "module" [] 0 0 []

/-- A checker that finds something in one file only. -/
def oneRemark : Registry where
  entries := [⟨⟨"remark", "T001", "", true,
    fun tree => if tree.sourceName = "a.py" then [⟨1, "noted"⟩] else []⟩, true⟩]

/-- Empty files, one file with a statement of old, and one that cannot be read. -/
def readMixed (file : String) : Option String :=
  if file = "old.py" then some "exec x\n" else if file = "gone.py" then none else some ""

/-- The statement of old is refused on its first line, under the name of the file. -/
theorem fails_old : Fails oldGrammar readMixed "old.py"
    ⟨"old.py", "Missing parentheses in call to 'exec'", some 1⟩ := by
  refine ⟨"exec x\n", ⟨"old.py", .execStatement, some ⟨1, 1, 0⟩⟩, rfl, ?_, rfl⟩
  show Tree.ofConcrete ⟨"old.py", "exec x\n"⟩ .execModule = _
  rw [Tree.ofConcrete, Concrete.firstBad?_eq_none rfl]
  rfl

/-- An empty text has an empty tree. -/
theorem provider_empty (file : String) : oldGrammar.provider "" file = .ok ⟨file, []⟩ := by
  show Tree.ofConcrete ⟨file, ""⟩ (.construct 0 0 "module" [] 0 0 []) = _
  rw [Tree.ofConcrete, Concrete.firstBad?_eq_none rfl]
  rfl

/-- Of four files one is given twice and does not parse, one has an issue, and one has none; there
is no report over a file that is not there. -/
theorem ofFiles_accounts_mixed :
    (∃ report, ofFiles oldGrammar.provider oneRemark readMixed
          ["old.py", "a.py", "b.py", "old.py"] = .ok report ∧
        Accounts oldGrammar oneRemark readMixed ["old.py", "a.py", "b.py", "old.py"] report ∧
        Fails oldGrammar readMixed "old.py"
          ⟨"old.py", "Missing parentheses in call to 'exec'", some 1⟩ ∧
        Finds oldGrammar oneRemark readMixed "a.py" ⟨"a.py", [⟨1, "noted", "T001", "remark"⟩]⟩ ∧
        IsClean oldGrammar oneRemark readMixed "b.py") ∧
      (∃ report next,
        ofFiles oldGrammar.provider oneRemark readMixed ["old.py", "a.py"] = .ok report ∧
        ofFiles oldGrammar.provider oneRemark readMixed ["b.py", "old.py"] = .ok next ∧
        ofFiles oldGrammar.provider oneRemark readMixed ["old.py", "a.py", "b.py", "old.py"] =
          .ok ⟨report.files ++ next.files, report.errors ++ next.errors,
            report.filesChecked + next.filesChecked⟩) ∧
      ofFiles oldGrammar.provider oneRemark readMixed ["a.py", "gone.py", "old.py"] =
        .error "gone.py" := by
  obtain ⟨all, joined, none⟩ := ofFiles_accounts oldGrammar oneRemark readMixed
  obtain ⟨report, made, accounts⟩ := all ["old.py", "a.py", "b.py", "old.py"] (by decide)
  obtain ⟨first, hfirst, -⟩ := all ["old.py", "a.py"] (by decide)
  obtain ⟨second, hsecond, -⟩ := all ["b.py", "old.py"] (by decide)
  refine ⟨⟨report, made, accounts, fails_old, ?_, ?_⟩,
    ⟨first, second, hfirst, hsecond, joined _ _ _ _ hfirst hsecond⟩, ?_⟩
  · refine ⟨"", _, rfl, analyse_eq_ok_iff.mpr ⟨_, provider_empty "a.py", rfl⟩, ?_, rfl⟩
    exact List.cons_ne_nil _ _
  · exact ⟨"", rfl, analyse_eq_ok_iff.mpr ⟨_, provider_empty "b.py", rfl⟩⟩
  · obtain ⟨before, file, after, apart, readable, unread, failed⟩ :=
      none ["a.py", "gone.py", "old.py"] ⟨"gone.py", by decide, rfl⟩
    have only : ∀ file ∈ ["a.py", "gone.py", "old.py"], readMixed file = Option.none →
        file = "gone.py" := by decide
    rw [failed, only file (apart ▸ List.mem_append_right _ List.mem_cons_self) unread]

end Report

end SourceAudit
