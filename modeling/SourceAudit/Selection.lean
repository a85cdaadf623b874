import SourceAudit.Ignore.Walk

/-!
# Which files are analysed

A file that is asked for is analysed, whatever its name. Of a folder, the files with the extension
`py` are, unless they are left out of walks or one of the exclusions holds. A folder called `-` is
not walked through when it is asked for by that name alone.

An exclusion is a text that is looked for in the path of a file below the folder. The wildcards
`**/` and `/**` are deleted from it first, and one that is empty then excludes nothing. So the way
down to the folder itself has no influence.

Files are in the order of the names on their paths, name by name, whatever the order of the walk.
-/

namespace SourceAudit

namespace Selection

/-- The text that an exclusion looks for. -/
def needle (pattern : String) : String := Text.erase "/**" (Text.erase "**/" pattern)

/-- Whether an exclusion holds for what `names` lead to. -/
def excludes (pattern : String) (names : List String) : Bool :=
  !(needle pattern).isEmpty && Text.contains (needle pattern) ("/".intercalate names)

/-- Whether `names` lead to a source: a file with the extension `py`. -/
def isSource (names : List String) (item : Item) : Bool :=
  item.isFile && (names.getLast?.bind extension?) == some "py"

/-- Whether names are in order: they come before other names, name by name, or are the same. -/
def inOrder : List String → List String → Bool
  | [], _ => true
  | _ :: _, [] => false
  | a :: as, b :: bs => Text.isBefore a.toList b.toList || a == b && inOrder as bs

/-- The sources among what a walk comes to, in order, less those for which an exclusion holds. -/
def ofWalk (exclusions : List String) (walk : List (List String × Item)) : List (List String) :=
  let sources := walk.filter fun (names, item) =>
    isSource names item && !exclusions.any (excludes · names)
  (sources.map (·.1)).mergeSort inOrder

/-- Why there is nothing to be analysed for a path. -/
inductive Failure where
  /-- The path leads nowhere. -/
  | missing
  /-- The folder cannot be walked through. -/
  | lists (fault : IgnoreFault)

/-- Whether a path is a way to write `-`. -/
def isDash (path : Path) : Bool :=
  match path.pieces with
  | "-" :: pieces => pieces.all Path.isIdle
  | _ => false

/-- The files to be analysed in the folder that a walk is through. -/
def ofFolder (exclusions : List String) (walk : Walk) : Except Failure (List Path) :=
  match walk.fault? with
  | some fault => .error (.lists fault)
  | none => .ok ((ofWalk exclusions walk.entries).map walk.path.descend)

/-- The files to be analysed for a path. -/
def ofPath (disk : Disk) (here : Place) (personal : Personal) (path : Path)
    (exclusions : List String) : Except Failure (List Path) :=
  match disk.locate? here path with
  | none => .error .missing
  | some place =>
    if disk.isFile place then .ok [path]
    else if isDash path then .ok []
    else ofFolder exclusions { disk, here, path, place, personal }

end Selection

end SourceAudit
