import SourceAudit.Ignore.List

/-!
# Lists that belong to repositories

A folder is the root of a repository if something in it is called `.git` or `.jj`. A repository has
a list of its own beside those in its folders: `info/exclude` in the folder `.git`. Where `.git` is
a file, its first line names another folder, and the file `commondir` in that folder names the one
that counts; a name that starts with a dot counts from the folder it stands in, and any other from
the folder one is in. If the way breaks off, the repository has no such list.
-/

namespace SourceAudit

/-- Why a walk cannot start. -/
inductive IgnoreFault where
  /-- There is something wrong with the list at a path. -/
  | list (path : Path) (fault : IgnoreList.Fault)
  /-- The first line of the file at a path is not text. -/
  | notText (path : Path)
  /-- There is a folder at a path where a file should be. -/
  | notFile (path : Path)

/-- The wording of a fault. -/
def IgnoreFault.message : IgnoreFault → String
  | .list path fault => fault.message path.text
  | .notText path => path.text ++ ": stream did not contain valid UTF-8"
  | .notFile path => path.text ++ ": Is a directory (os error 21)"

/-! ## First lines -/

/-- What a file starts with. -/
inductive FirstLine where
  /-- Nothing: the file is empty. -/
  | nothing
  /-- A line. -/
  | line (line : String)
  /-- A line that is not text. -/
  | notText
  deriving DecidableEq, Repr

/-- What the content of a file starts with. -/
def Content.firstLine : Content → FirstLine
  | .text s => if s.isEmpty then .nothing else .line (Text.firstLine s)
  | .bytes raw =>
    let line := raw.takeWhile (· != 10)
    match String.fromUTF8? ⟨line.toArray⟩ with
    | none => .notText
    | some s => .line (if line.length < raw.length then Text.firstLine (s ++ "\n") else s)

namespace Disk

/-! ## The list of a repository -/

/-- Whether a folder is the root of a repository. -/
def isRepository (disk : Disk) (folder : Place) : Bool :=
  (disk.item? (folder ++ [".git"])).isSome || (disk.item? (folder ++ [".jj"])).isSome

/-- What stands before the name of the other folder. -/
def pointerMark : String := "gitdir: "

/-- The folder that `commondir` names, which stands in `folder`. -/
def commonFolder (disk : Disk) (here : Place) (folder : Path) : Except IgnoreFault (Option Path) :=
  let path := folder.child "commondir"
  match disk.find? here path with
  | none => .ok none
  | some .folder => .error (.notFile path)
  | some (.file content) =>
    match content.firstLine with
    | .nothing => .ok none
    | .notText => .error (.notText path)
    | .line line =>
      .ok (some (if line.toList.head? = some '.' then folder.child line else ⟨line⟩))

/-- The folder for which `path` stands, which leads to what is called `.git`. -/
def metaFolder (disk : Disk) (here : Place) (path : Path) : Except IgnoreFault (Option Path) :=
  match disk.find? here path with
  | some (.file content) =>
    match content.firstLine with
    | .nothing => .ok none
    | .notText => .error (.notText path)
    | .line line =>
      match pointerMark.toList.isPrefixOf? line.toList with
      | none => .ok none
      | some name => disk.commonFolder here ⟨String.ofList name⟩
  | _ => .ok (some path)

/-- The path of the list of a repository whose root is `folder`. -/
def exclusionsPath (disk : Disk) (here : Place) (folder : Path) :
    Except IgnoreFault (Option Path) :=
  (disk.metaFolder here (folder.child ".git")).map fun found => found.map (·.child "info/exclude")

/-! ## Lists at paths -/

/-- What the list at a path says; nothing if there is none. -/
def listAt (disk : Disk) (here : Place) (path : Path) : IgnoreList :=
  match disk.find? here path with
  | some (.file content) => .ofContent content
  | _ => {}

/-- What is wrong with the list at a path. -/
def listFault? (disk : Disk) (here : Place) (path : Path) : Option IgnoreFault :=
  match disk.find? here path with
  | some (.file content) => (IgnoreList.fault? content).map (.list path)
  | _ => none

/-- What the list of a repository says; nothing if it cannot be found. -/
def exclusions (disk : Disk) (here : Place) (folder : Path) : IgnoreList :=
  match disk.exclusionsPath here folder with
  | .ok (some path) => disk.listAt here path
  | _ => {}

/-- What is wrong with the list of a repository. -/
def exclusionsFault? (disk : Disk) (here : Place) (folder : Path) : Option IgnoreFault :=
  match disk.exclusionsPath here folder with
  | .ok (some path) => disk.listFault? here path
  | .ok none => none
  | .error fault => some fault

end Disk

end SourceAudit
