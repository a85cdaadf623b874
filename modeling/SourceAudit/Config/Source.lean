import SourceAudit.Config.Reader
import SourceAudit.Disk.Basic

/-!
# Where settings come from

Settings that someone asks for by path are taken from there, unseen. Otherwise the nearest folder
decides, from the one in question upwards: the first of `pyaudit.toml`, `.pyaudit.toml` and a
`pyproject.toml` with the section `tool.pyaudit` that stands in it. If no folder has any of them,
the settings of the user count, and if there are none, the defaults.

Looking and loading are two things: what is found is a path, and the document behind it may still
turn out not to be settings.
-/

namespace SourceAudit

/-- Where the settings of a run come from. -/
inductive ConfigSource where
  /-- A path that someone asked for. -/
  | explicit (path : Path)
  /-- A document of their own in a folder. -/
  | project (path : Path)
  /-- The section in the document of a project. -/
  | projectSection (path : Path)
  /-- The settings of the user. -/
  | global (path : Path)
  /-- Nowhere: the defaults. -/
  | default
  deriving DecidableEq, Repr

namespace ConfigSource

/-- The path of the settings. -/
def path? : ConfigSource → Option Path
  | .explicit path => some path
  | .project path => some path
  | .projectSection path => some path
  | .global path => some path
  | .default => none

/-- Whether the settings are those of the user. -/
def isGlobal : ConfigSource → Bool
  | .global _ => true
  | _ => false

/-- The names of a settings document in a folder, in the order in which they are looked for. -/
def documentNames : List String := ["pyaudit.toml", ".pyaudit.toml"]

/-- The name of the document that describes a project. -/
def projectName : String := "pyproject.toml"

/-- The name of the user's settings in their folder. -/
def globalName : String := "config.toml"

section

variable (disk : Disk) (here : Place)

/-- The settings in one folder. -/
def inFolder? (folder : Path) : Option ConfigSource :=
  match (documentNames.map folder.child).find? (disk.leadsToFile here) with
  | some path => some (.project path)
  | none =>
    let path := folder.child projectName
    if (disk.read? here path).any Config.describesProject then some (.projectSection path)
    else none

/-- The settings of the user, which stand in the folder `userFolder`. -/
def ofUser (userFolder : Option Path) : ConfigSource :=
  match userFolder.map (·.child globalName) with
  | some path => if disk.leadsToFile here path then .global path else .default
  | none => .default

/-- The settings for a folder, looking upwards from its path as it is written. -/
def resolveFrom (folder : Path) (explicit userFolder : Option Path) : ConfigSource :=
  match explicit with
  | some path => .explicit path
  | none => (folder.ancestors.findSome? (inFolder? disk here)).getD (ofUser disk here userFolder)

/-- The settings for a folder. A folder that exists is looked at under the path of its place. -/
def resolve (folder : Path) (explicit userFolder : Option Path) : ConfigSource :=
  let folder := match disk.locate? here folder with
    | some place => place.toPath
    | none => folder
  resolveFrom disk here folder explicit userFolder

/-- The settings that are found at the source. -/
def load : ConfigSource → Except ConfigError Config
  | .default => .ok {}
  | .projectSection path =>
    match disk.read? here path with
    | some content => Config.parseProject content
    | none => .error (.unreadable path.text)
  | .explicit path | .project path | .global path =>
    match disk.read? here path with
    | some content => Config.parse content
    | none => .error (.unreadable path.text)

end

end ConfigSource

end SourceAudit
