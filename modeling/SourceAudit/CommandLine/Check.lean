import SourceAudit.Config.Source
import SourceAudit.Preset
import SourceAudit.Report
import SourceAudit.Selection

/-!
# One check of a path

A check goes through stages, each of which can fail: the settings are found and loaded, the
registry is built from them, the files are selected, and the files are analysed. The first failure
ends it, and then there is no report. A file that does not parse is no failure: the report says so.

Decided here: the stages and the report they lead to. Nothing is written.
-/

namespace SourceAudit

/-- Where a run takes place. -/
structure Surroundings where
  disk : Disk
  /-- The folder one is in. -/
  here : Place
  /-- The folder with the settings of the user. -/
  userFolder : Option Path := none
  /-- Where the user keeps what is theirs. -/
  personal : Personal := {}

/-- The folder with the settings of the user: the one that is asked for, or else `.pyaudit` in their
home. -/
def userFolderOf (asked home : Option Path) : Option Path := asked <|> home.map (·.child ".pyaudit")

/-- What can be asked of a check. -/
structure CheckOptions where
  /-- How the report is rendered. -/
  format : Report.Format := .text
  /-- Where the report is written, instead of shown. -/
  save : Option Path := none
  /-- The checkers that are to run, with commas between them. -/
  checkers : Option String := none
  /-- The preset to start from. -/
  preset : Option String := none
  /-- What is not to be analysed. -/
  exclude : List String := []
  deriving DecidableEq, Repr

/-- Why there is no report. -/
inductive CheckFailure where
  /-- The settings at this path cannot be loaded. -/
  | settings (path : Path)
  /-- The preset does not exist. -/
  | preset (error : PresetError)
  /-- The path leads nowhere. -/
  | missing (path : Path)
  /-- The folder cannot be walked through. -/
  | lists (fault : IgnoreFault)
  /-- This file cannot be read as text. -/
  | unreadable (file : String)

/-- The wording of a failure. -/
def CheckFailure.message : CheckFailure → String
  | .settings path => "Failed to load config: " ++ path.text
  | .preset error => error.message
  | .missing path => "Path does not exist: " ++ path.text
  | .lists fault => fault.message
  | .unreadable file => "Failed to read " ++ file

namespace CheckOptions

/-- The keys in a list with commas; blanks around a key do not count. -/
def keysOf (list : String) : List String :=
  ((Text.split ',' list).map Text.trim).filter (!·.isEmpty)

/-- The keys of the checkers that are to run. -/
def keys? (options : CheckOptions) : Option (List String) := options.checkers.map keysOf

/-- The registry for a check: keys decide alone, if there are any. -/
def registry (options : CheckOptions) (config : Config) : Except PresetError Registry :=
  match configuredRegistry options.preset config with
  | .error error => .error error
  | .ok registry =>
    match options.keys? with
    | some keys => .ok (registry.retainActive keys)
    | none => .ok registry

end CheckOptions

namespace Surroundings

/-- The text of the file that a path leads to. -/
def read? (around : Surroundings) (path : Path) : Option String :=
  around.disk.read? around.here path

/-- The folder whose settings count for a path: the path itself if it leads to a folder, and else
the one above it. -/
def projectFolder (around : Surroundings) (path : Path) : Path :=
  if around.disk.leadsToFolder around.here path then path
  else
    match path.parent? with
    | some parent => if parent.text.isEmpty then .current else parent
    | none => .current

/-- Where the settings for a path come from. -/
def source (around : Surroundings) (path : Path) (explicit : Option Path) : ConfigSource :=
  .resolve around.disk around.here (around.projectFolder path) explicit around.userFolder

/-- The settings at a source. -/
def settings (around : Surroundings) (source : ConfigSource) : Except CheckFailure Config :=
  match source.load around.disk around.here with
  | .ok config => .ok config
  | .error _ => .error (.settings (source.path?.getD .current))

/-- The registry for a check with these settings. -/
def registry (options : CheckOptions) (config : Config) : Except CheckFailure Registry :=
  (options.registry config).mapError .preset

/-- The files to be analysed for a path. -/
def files (around : Surroundings) (path : Path) (exclude : List String) :
    Except CheckFailure (List Path) :=
  match Selection.ofPath around.disk around.here around.personal path exclude with
  | .ok files => .ok files
  | .error .missing => .error (.missing path)
  | .error (.lists fault) => .error (.lists fault)

/-- The report over files. -/
def analyse (around : Surroundings) (provider : Provider) (registry : Registry)
    (files : List Path) : Except CheckFailure Report :=
  (Report.ofFiles provider registry (fun file => around.read? ⟨file⟩)
    (files.map Path.text)).mapError .unreadable

/-- The report of a check. -/
def check (around : Surroundings) (provider : Provider) (path : Path) (options : CheckOptions)
    (explicit : Option Path) : Except CheckFailure Report := do
  let config ← around.settings (around.source path explicit)
  let registry ← registry options config
  let files ← around.files path options.exclude
  around.analyse provider registry files

end Surroundings

end SourceAudit
