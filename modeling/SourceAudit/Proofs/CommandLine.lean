import SourceAudit.CommandLine.Run
import SourceAudit.Proofs.Disk
import SourceAudit.Proofs.Outcome
import SourceAudit.Proofs.Report

/-!
# What a run shows and what it leaves behind

A check fails for one of five reasons, `Surroundings.CannotCheck`, and each of them is enough,
whatever else is the case: it does not matter in which order the stages come. Without any of them
the check goes through (`Surroundings.CheckOf`), and what it reports is the report over the texts of
all selected files.

The disk is only ever touched by one write at the end, so a run that fails leaves it as it was, also
if it fails at the last of many files.
-/

namespace SourceAudit

namespace Surroundings

variable {around : Surroundings} {provider : Provider} {path : Path} {options : CheckOptions}
  {explicit : Option Path} {registry : Registry} {texts : List (String × String)}

/-- The files that are selected for a path. -/
def selected (around : Surroundings) (path : Path) (options : CheckOptions) :
    Except Selection.Failure (List Path) :=
  Selection.ofPath around.disk around.here around.personal path options.exclude

/-- The walk through the folder at a place, for a path that leads there. -/
def walk (around : Surroundings) (path : Path) (place : Place) : Walk where
  disk := around.disk
  here := around.here
  path := path
  place := place
  personal := around.personal

/-- Why a check cannot be made. -/
inductive CannotCheck (around : Surroundings) (path : Path) (options : CheckOptions)
    (explicit : Option Path) : Prop
  /-- The settings cannot be loaded. -/
  | settings {error : ConfigError}
      (h : (around.source path explicit).load around.disk around.here = .error error)
  /-- The preset that is in effect does not exist. -/
  | preset {config : Config}
      (h : (around.source path explicit).load around.disk around.here = .ok config)
      (unknown : Preset.ofName? (effectivePreset options.preset config) = none)
  /-- The path leads nowhere. -/
  | missing (h : around.disk.locate? around.here path = none)
  /-- The path leads to a folder that is walked through, and a list in a folder above it is
  faulty. -/
  | lists {place outer : Place} {way : List String}
      (h : around.disk.locate? around.here path = some place)
      (folder : around.disk.isFile place = false) (walked : Selection.isDash path = false)
      (above : (outer, way) ∈ place.ways)
      (faulty : (around.walk path place).faultIn? outer.toPath ≠ none)
  /-- A selected file cannot be read as text. -/
  | unreadable {files : List Path} {file : Path} (h : around.selected path options = .ok files)
      (mem : file ∈ files) (unread : around.read? file = none)

/-- A check can be made: with this registry, and over these texts under the names of their files,
which are those of all selected files. -/
structure CheckOf (around : Surroundings) (path : Path) (options : CheckOptions)
    (explicit : Option Path) (registry : Registry) (texts : List (String × String)) : Prop where
  configured : ∃ config, (around.source path explicit).load around.disk around.here = .ok config ∧
    options.registry config = .ok registry
  readable : ∃ files, around.selected path options = .ok files ∧
    files.mapM (fun file => (around.read? file).map (file.text, ·)) = some texts

/-! ## Stages -/

/-- The first stage fails exactly where the settings cannot be loaded, and its failure names the
document. -/
theorem settings_eq (around : Surroundings) (path : Path) (explicit : Option Path) :
    around.settings (around.source path explicit) =
      ((around.source path explicit).load around.disk around.here).mapError fun _ =>
        .settings ((around.source path explicit).path?.getD .current) := by
  unfold settings
  cases (around.source path explicit).load around.disk around.here <;> rfl

/-- A preset that does not exist ends the second stage, whatever else is asked for. -/
theorem registry_eq_error {config : Config}
    (unknown : Preset.ofName? (effectivePreset options.preset config) = none) :
    ∃ failure, Surroundings.registry options config = .error failure := by
  unfold Surroundings.registry CheckOptions.registry configuredRegistry
  dsimp only
  rw [unknown]
  exact ⟨_, rfl⟩

/-- The third stage goes through with the files that are selected. -/
theorem files_eq_ok {files : List Path} (h : around.selected path options = .ok files) :
    around.files path options.exclude = .ok files := by
  unfold Surroundings.files
  rw [← selected, h]

theorem files_eq_error {failure : Selection.Failure}
    (h : around.selected path options = .error failure) :
    ∃ failure, around.files path options.exclude = .error failure := by
  unfold Surroundings.files
  rw [← selected, h]
  cases failure <;> exact ⟨_, rfl⟩

/-- Where the path leads nowhere, nothing is selected. -/
theorem selected_eq_missing (h : around.disk.locate? around.here path = none) :
    around.selected path options = .error .missing := by
  unfold selected Selection.ofPath
  rw [h]

/-- One faulty list above the walked folder is enough for nothing to be selected, though another
list may be the one that is named. -/
theorem selected_eq_lists {place outer : Place} {way : List String}
    (h : around.disk.locate? around.here path = some place)
    (folder : around.disk.isFile place = false) (walked : Selection.isDash path = false)
    (above : (outer, way) ∈ place.ways)
    (faulty : (around.walk path place).faultIn? outer.toPath ≠ none) :
    ∃ fault, around.selected path options = .error (.lists fault) := by
  have found : (around.walk path place).fault?.isSome := by
    unfold Walk.fault?
    rw [List.isSome_findSome?, List.any_reverse]
    exact List.any_eq_true.mpr ⟨_, above, Option.isSome_iff_ne_none.mpr faulty⟩
  obtain ⟨fault, hfault⟩ := Option.isSome_iff_exists.mp found
  refine ⟨fault, ?_⟩
  unfold selected Selection.ofPath
  rw [h]
  dsimp only
  rw [folder, walked]
  show Selection.ofFolder options.exclude (around.walk path place) = _
  unfold Selection.ofFolder
  rw [hfault]

/-- If every file can be read, the last stage reports over the texts of all of them. -/
theorem analyse_eq_ok {files : List Path}
    (h : files.mapM (fun file => (around.read? file).map (file.text, ·)) = some texts) :
    around.analyse provider registry files = .ok (Report.ofTexts provider registry texts) := by
  have named : (files.map Path.text).mapM (fun name => (around.read? ⟨name⟩).map (name, ·)) =
      some texts := by
    rw [List.mapM_map]
    exact h
  unfold analyse Report.ofFiles
  rw [Report.extend_eq_ok named, Report.empty_append]
  rfl

/-- One file that cannot be read is enough for there to be no report, however many were read before
it. -/
theorem analyse_eq_error {files : List Path} {file : Path} (mem : file ∈ files)
    (unread : around.read? file = none) :
    ∃ failure, around.analyse provider registry files = .error failure := by
  obtain ⟨first, h⟩ : ∃ first, Report.ofFiles provider registry (fun file => around.read? ⟨file⟩)
      (files.map Path.text) = .error first :=
    Report.extend_eq_error (List.mem_map_of_mem mem) unread
  unfold analyse
  rw [h]
  exact ⟨_, rfl⟩

/-- Two stages fail together if the second fails after every success of the first. So a reason at a
later stage need not ask what the earlier ones did. -/
theorem exists_failure_of_bind {α β : Type} {step : Except CheckFailure α}
    {next : α → Except CheckFailure β}
    (h : ∀ value, step = .ok value → ∃ failure, next value = .error failure) :
    ∃ failure, step >>= next = .error failure := by
  cases step with
  | error failure => exact ⟨failure, rfl⟩
  | ok value => exact h value rfl

/-- One reason is enough, at whatever stage it shows. -/
theorem CannotCheck.check_eq_error (h : around.CannotCheck path options explicit) :
    ∃ failure, around.check provider path options explicit = .error failure := by
  unfold check
  cases h with
  | settings h =>
    rw [settings_eq, h]
    exact ⟨_, rfl⟩
  | preset h unknown =>
    rw [settings_eq, h]
    obtain ⟨failure, failed⟩ := registry_eq_error unknown
    refine ⟨failure, ?_⟩
    show (Surroundings.registry options _ >>= _) = _
    rw [failed]
    rfl
  | missing h =>
    -- The stages before this one may fail as well, and then they do so first.
    obtain ⟨failure, failed⟩ := files_eq_error (selected_eq_missing h)
    refine exists_failure_of_bind fun config _ =>
      exists_failure_of_bind fun registry _ => ⟨failure, ?_⟩
    rw [failed]
    rfl
  | lists h folder walked above faulty =>
    obtain ⟨fault, chosen⟩ := selected_eq_lists h folder walked above faulty
    obtain ⟨failure, failed⟩ := files_eq_error chosen
    refine exists_failure_of_bind fun config _ =>
      exists_failure_of_bind fun registry _ => ⟨failure, ?_⟩
    rw [failed]
    rfl
  | unreadable h mem unread =>
    refine exists_failure_of_bind fun config _ => exists_failure_of_bind fun registry _ => ?_
    rw [files_eq_ok h]
    exact analyse_eq_error mem unread

/-- A check that can be made gives the report over the texts of all selected files. -/
theorem CheckOf.check_eq_ok (h : around.CheckOf path options explicit registry texts) :
    around.check provider path options explicit = .ok (Report.ofTexts provider registry texts) := by
  obtain ⟨config, loaded, configured⟩ := h.configured
  obtain ⟨files, chosen, read⟩ := h.readable
  unfold check
  rw [settings_eq, loaded]
  show (Surroundings.registry options config >>= _) = _
  rw [Surroundings.registry, configured]
  show (around.files path options.exclude >>= _) = _
  rw [files_eq_ok chosen]
  exact analyse_eq_ok read

/-! ## Outcomes -/

/-- A check that cannot be made fails with status one, shows nothing and leaves the disk as it
was. -/
theorem CannotCheck.runCheck (h : around.CannotCheck path options explicit) (provider : Provider) :
    (around.runCheck provider path options explicit).status = 1 ∧
      (around.runCheck provider path options explicit).output = "" ∧
      (around.runCheck provider path options explicit).disk = around.disk := by
  obtain ⟨failure, failed⟩ : ∃ failure, around.check provider path options explicit =
    .error failure := h.check_eq_error
  unfold Surroundings.runCheck
  rw [failed]
  exact ⟨rfl, rfl, rfl⟩

/-- A check that can be made comes down to emitting its report. -/
theorem CheckOf.runCheck (h : around.CheckOf path options explicit registry texts)
    (provider : Provider) :
    around.runCheck provider path options explicit =
      around.emit options (Log.ofCheck around provider path options explicit)
        (Report.ofTexts provider registry texts) := by
  unfold Surroundings.runCheck
  rw [h.check_eq_ok]

end Surroundings

end SourceAudit
