import SourceAudit.CommandLine.Run
import SourceAudit.Concrete.Stored

/-!
# The program

Takes a snapshot of what a run can look at, runs on it, shows the outcome and writes what the run
wrote. Everything that decides anything is in `Surroundings.run`.

A run looks at what is below the folder one is in and below each argument that is a path, and in the
folders above them at settings and lists of what is left out; and it looks at what the user keeps.
-/

namespace SourceAudit

namespace Program

/-- Adds what stands at a place of the machine to a disk, and what is below it. Links are passed
over, so there is no way round in circles. -/
partial def takeAll (disk : Disk) (place : Place) : IO Disk := do
  let .ok path ← (IO.FS.realPath place.toPath.text).toBaseIO | return disk
  match ← path.readDir.toBaseIO with
  | .ok entries =>
    let mut disk := disk.plant place .folder
    for entry in entries do
      if (← entry.path.symlinkMetadata).type != .symlink then
        disk ← takeAll disk (place ++ [entry.fileName])
    return disk
  | .error _ =>
    match ← (IO.FS.readBinFile path).toBaseIO with
    | .ok bytes => return disk.plant place (.file (.ofBytes bytes.toList))
    | .error _ => return disk

/-- The place of a path on the machine. -/
def placeOf (path : String) : IO (Option Place) := do
  match ← (IO.FS.realPath path).toBaseIO with
  | .ok real => return some ((Path.mk real.toString).pieces.filter fun piece => !Path.isIdle piece)
  | .error _ => return none

/-- Adds what a path leads to to a disk, but not what is below it. -/
def takeOne (disk : Disk) (path : Path) : IO Disk := do
  let some place ← placeOf path.text | return disk
  match ← (IO.FS.readBinFile path.text).toBaseIO with
  | .ok bytes => return disk.plant place (.file (.ofBytes bytes.toList))
  | .error _ => return if (disk.item? place).isSome then disk else disk.plant place .folder

/-- What is looked at in the folders above. -/
def namesAbove : List String :=
  ["pyaudit.toml", ".pyaudit.toml", "pyproject.toml", ".ignore", ".gitignore", ".git", ".jj"]

/-- Adds the list of the repository with the root `folder` to a disk, and what leads to it. -/
def takeExclusions (disk : Disk) (here : Place) (folder : Path) : IO Disk := do
  let mut disk := disk
  if let some (.file content) := disk.find? here (folder.child ".git") then
    if let .line line := content.firstLine then
      let named := (Path.mk line).without Disk.pointerMark
      disk ← takeOne disk (named.child "commondir")
  if let .ok (some path) := disk.exclusionsPath here folder then disk ← takeOne disk path
  return disk

/-- Adds a place of the machine to a disk, with what is looked at above it. -/
def takeWithAbove (here : Place) (disk : Disk) (place : Place) : IO Disk := do
  let mut disk ← takeAll disk place
  for (folder, _) in place.ways do
    for name in namesAbove do
      disk ← takeOne disk (folder.toPath.child name)
    disk ← takeExclusions disk here folder.toPath
  return disk

/-- Adds the list of the user to a disk, and what leads to it. -/
def takePersonal (here : Place) (disk : Disk) (personal : Personal) : IO Disk := do
  let mut disk := disk
  for path in personal.settingsFiles do
    disk ← takeOne disk path
  if let some path := personal.listPath? disk here then disk ← takeOne disk path
  return disk

/-- How a level is shown. -/
def levelWord : Level → String
  | .debug => "DEBUG"
  | .info => " INFO"
  | .warn => " WARN"

/-- Shows an outcome and writes what the run wrote. -/
def finish (before : Disk) (outcome : Outcome) : IO UInt32 := do
  for line in outcome.log do
    IO.eprintln (levelWord line.level ++ " " ++ line.message)
  for (place, text) in Disk.news before outcome.disk do
    IO.FS.writeFile place.toPath.text text
  IO.print outcome.output
  if let some error := outcome.error then IO.eprintln ("Error: " ++ error)
  return outcome.status.toUInt32

/-- Runs the program on the machine. -/
def run (arguments : List String) : IO UInt32 := do
  let here := (← placeOf ".").getD []
  let asked := (← IO.getEnv "PYAUDIT_CONFIG_DIR").map Path.mk
  let home := (← IO.getEnv "HOME").map Path.mk
  let userFolder := userFolderOf asked home
  let paths := arguments ++ userFolder.toList.map Path.text
  let mut disk ← takeWithAbove here {} here
  for path in paths do
    if let some place ← placeOf path then disk ← takeWithAbove here disk place
  let personal := personalOf home ((← IO.getEnv "XDG_CONFIG_HOME").map Path.mk)
  disk ← takePersonal here disk personal
  let around : Surroundings := { disk, here, userFolder, personal }
  finish disk (around.run disk.grammar.provider arguments)

end Program

end SourceAudit

/-- Runs the program. -/
def main (arguments : List String) : IO UInt32 := SourceAudit.Program.run arguments
