import SourceAudit.Ignore.Personal

/-!
# What a walk comes to

A folder can hold lists of what is to be left out of walks through it and the folders below it.
There are four kinds of lists, and the first kind that decides counts:

- `.ignore`, in any folder above;
- `.gitignore`, in the folders above up to the root of the repository;
- the lists of the repositories whose roots are among those folders;
- the list of the user, in a repository only.

Where no folder above is the root of a repository, only the first kind counts. Of the lists of one
kind, the nearest that decides counts.

A list is about paths below its folder, and what such a path is depends on how paths are written:
the path of the folder is taken off the front of the path of the thing, letter by letter. A dot and
a slash in front say nothing, but only once for a folder and twice for a thing; what is left of them
stays. For the folders above the one that the walk is through, paths are written from the root of
the disk.

A walk comes to a thing if neither it nor a folder on the way down to it is left out: a folder that
is left out is not entered, so nothing inside it can be taken back in. The lists in the folders
above the one that the walk is through must be without fault, or else there is no walk.
-/

namespace SourceAudit

/-! ## Paths as lists see them -/

namespace Path

/-- A path less the text in front of it, if it starts with that. -/
def without (front : String) (path : Path) : Path :=
  match front.toList.isPrefixOf? path.text.toList with
  | some rest => ⟨String.ofList rest⟩
  | none => path

/-- A path less a dot and a slash in front. -/
def withoutDot (path : Path) : Path := path.without "./"

/-- Whether a path is a way to write `.`. -/
def isCurrent (path : Path) : Bool :=
  match path.pieces with
  | "." :: pieces => pieces.all isIdle
  | _ => false

/-- A path as the lists of a folder see it. A path without a slash stays as it is. -/
def seenFrom (path folder : Path) : Path :=
  let folder := folder.withoutDot
  let path := path.withoutDot
  if folder.isCurrent || !path.text.toList.contains '/' then path
  else if folder.text.toList.isPrefixOf path.text.toList then
    (path.without folder.text).without "/"
  else path

/-- The path one comes to from a path by following another one. -/
def join (path next : Path) : Path := if next.isAbsolute then next else path.child next.text

end Path

/-! ## Lookouts -/

/-- A folder with lists, and the path of the thing in question as it is written there. -/
structure Lookout where
  place : Place
  folder : Path
  path : Path

namespace Lookout

/-- The path of the thing below the folder. -/
def seen (lookout : Lookout) : String := (lookout.path.seenFrom lookout.folder).text

end Lookout

/-- A walk through a folder. -/
structure Walk where
  disk : Disk
  /-- The folder one is in. -/
  here : Place
  /-- The path of the folder that the walk is through. -/
  path : Path
  /-- The place of that folder. -/
  place : Place
  /-- Where the user keeps what is theirs. -/
  personal : Personal := {}

namespace Walk

variable (walk : Walk)

/-- The path of what `names` lead to, less one dot and slash. -/
def pathOf (names : List String) : Path := (walk.path.descend names).withoutDot

/-- The path of what `names` lead to, written from the root of the disk. -/
def fullPathOf (names : List String) : Path :=
  let path := walk.pathOf names
  let rest :=
    if walk.path.isCurrent then path
    else (path.without walk.path.withoutDot.text).without "/"
  walk.place.toPath.join rest

/-- The folders from which what `names` lead to is looked at, the nearest first. -/
def lookouts (names : List String) : List Lookout :=
  let inside := (Place.ways names).map fun (folder, _) =>
    ⟨walk.place ++ folder, walk.path.descend folder, walk.pathOf names⟩
  let above := walk.place.ways.map fun (folder, _) =>
    ⟨folder, folder.toPath, walk.fullPathOf names⟩
  inside ++ above

/-- The lookouts of the innermost repository, if there is one. -/
def tracked (lookouts : List Lookout) : List Lookout :=
  match lookouts.findIdx? fun lookout => walk.disk.isRepository lookout.place with
  | some root => lookouts.take (root + 1)
  | none => []

/-- What the nearest list that decides says, of those that `list` finds in folders. -/
def nearest? (list : Path → IgnoreList) (isFolder : Bool) (lookouts : List Lookout) :
    Option Verdict :=
  lookouts.findSome? fun lookout => (list lookout.folder).decide? isFolder lookout.seen

/-- What the list called `name` in a folder says. -/
def listCalled (name : String) (folder : Path) : IgnoreList :=
  walk.disk.listAt walk.here (folder.child name)

/-- What the list of the user says. -/
def personal? (isFolder : Bool) (names : List String) : Option Verdict :=
  (walk.personal.list walk.disk walk.here).decide? isFolder
    ((walk.pathOf names).seenFrom walk.here.toPath).text

/-- What the lists say of what `names` lead to. -/
def verdict? (isFolder : Bool) (names : List String) : Option Verdict :=
  let lookouts := walk.lookouts names
  let tracked := walk.tracked lookouts
  nearest? (walk.listCalled ".ignore") isFolder lookouts
    <|> nearest? (walk.listCalled ".gitignore") isFolder tracked
    <|> nearest? (walk.disk.exclusions walk.here) isFolder tracked
    <|> if tracked.isEmpty then none else walk.personal? isFolder names

/-- Whether the walk comes to what `names` lead to: neither that nor a folder on the way is left
out. -/
def isVisible (names : List String) (item : Item) : Bool :=
  walk.verdict? item.isFolder names != some .leaveOut &&
    (Place.ways names).all fun (folder, _) =>
      folder.isEmpty || walk.verdict? true folder != some .leaveOut

/-- What the walk comes to, by the names that lead there. -/
def entries : List (List String × Item) :=
  (walk.disk.below walk.place).filter fun (names, item) => walk.isVisible names item

/-! ## Faults -/

/-- What is wrong with the lists in a folder. -/
def faultIn? (folder : Path) : Option IgnoreFault :=
  walk.disk.listFault? walk.here (folder.child ".ignore")
    <|> walk.disk.listFault? walk.here (folder.child ".gitignore")
    <|> walk.disk.exclusionsFault? walk.here folder

/-- Why there is no walk, of which the outermost folder comes first. -/
def fault? : Option IgnoreFault :=
  walk.place.ways.reverse.findSome? fun (folder, _) => walk.faultIn? folder.toPath

end Walk

end SourceAudit
