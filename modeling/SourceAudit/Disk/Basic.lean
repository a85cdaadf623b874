import SourceAudit.Disk.Path

/-!
# Disks

A disk is what a run reads and writes: files and folders, each at a place. A place is the list of
names from the root down, so that one thing has one place, however many paths lead to it.

Files hold text, or bytes that are not text; the only thing that is ever written is text. A disk is
a list of places with what stands there, and the view of it is `item?`: where a place occurs twice
the first counts, and the root is a folder whatever the list says.

`locate?` follows a path piece by piece, and every piece needs a folder to start from. So a path
that ends in a slash leads to folders only, `a/../b` leads nowhere if there is no folder `a`, and
the empty path leads nowhere at all.
-/

namespace SourceAudit

/-- Where something stands: the names from the root of the disk down to it. -/
abbrev Place := List String

/-- The ways down to a place: each folder above it, the nearest first, with the names that lead from
there to the place. -/
def Place.ways : Place → List (Place × List String)
  | [] => []
  | name :: names =>
    (Place.ways names).map (fun (folder, way) => (name :: folder, way)) ++ [([], name :: names)]

/-- What a file holds. -/
inductive Content where
  /-- A text. -/
  | text (text : String)
  /-- Bytes that are no text. -/
  | bytes (bytes : List UInt8)
  deriving DecidableEq, Repr

/-- What stands at a place. -/
inductive Item where
  | file (content : Content)
  | folder
  deriving DecidableEq, Repr

/-- Files and folders at their places. -/
structure Disk where
  items : List (Place × Item) := []
  deriving DecidableEq, Repr

/-- The content that bytes are. -/
def Content.ofBytes (bytes : List UInt8) : Content :=
  match String.fromUTF8? ⟨bytes.toArray⟩ with
  | some s => .text s
  | none => .bytes bytes

/-- The text that a file holds. -/
def Content.text? : Content → Option String
  | .text s => some s
  | .bytes _ => none

namespace Item

/-- Whether something is a file. -/
def isFile : Item → Bool
  | .file _ => true
  | .folder => false

/-- Whether something is a folder. -/
def isFolder : Item → Bool
  | .file _ => false
  | .folder => true

end Item

namespace Disk

/-! ## Places -/

/-- What stands at a place. -/
def item? (disk : Disk) (place : Place) : Option Item :=
  if place = [] then some .folder else disk.items.lookup place

/-- Whether a folder stands at a place. -/
def isFolder (disk : Disk) (place : Place) : Bool := (disk.item? place).any Item.isFolder

/-- Whether a file stands at a place. -/
def isFile (disk : Disk) (place : Place) : Bool := (disk.item? place).any Item.isFile

/-- What the file at a place holds. -/
def content? (disk : Disk) (place : Place) : Option Content :=
  match disk.item? place with
  | some (.file content) => some content
  | _ => none

/-- Puts something at a place, where it takes the place of what stood there. -/
def put (disk : Disk) (place : Place) (item : Item) : Disk :=
  ⟨(place, item) :: disk.items.filter (·.1 != place)⟩

/-- Puts something at a place and makes the folders that it needs. -/
def plant (disk : Disk) (place : Place) (item : Item) : Disk :=
  let folders := (place.ways.map (·.1)).filter fun folder => (disk.item? folder).isNone
  (folders.foldl (fun disk folder => disk.put folder .folder) disk).put place item

/-- What stands below a place, by the names that lead there from it. -/
def below (disk : Disk) (place : Place) : List (List String × Item) :=
  disk.items.filterMap fun (inner, item) =>
    match place.isPrefixOf? inner with
    | some [] => none
    | some names => some (names, item)
    | none => none

/-- The texts on a disk that did not stand there before. -/
def news (before after : Disk) : List (Place × String) :=
  after.items.filterMap fun (place, item) =>
    match item with
    | .file (.text text) => if before.item? place = some item then none else some (place, text)
    | _ => none

/-! ## Paths -/

/-- One step of following a path. -/
def step? (disk : Disk) (place : Place) (piece : String) : Option Place :=
  if !disk.isFolder place then none
  else if Path.isIdle piece then some place
  else if piece = ".." then some place.dropLast
  else
    let next := place ++ [piece]
    if (disk.item? next).isSome then some next else none

/-- Where a path starts, for someone who is in the folder `here`. -/
def origin (here : Place) (path : Path) : Place := if path.isAbsolute then [] else here

/-- The place that a path leads to from the folder `here`, if something stands there. -/
def locate? (disk : Disk) (here : Place) (path : Path) : Option Place :=
  if path.text.isEmpty then none
  else path.pieces.foldlM disk.step? (origin here path)

/-- What a path leads to. -/
def find? (disk : Disk) (here : Place) (path : Path) : Option Item :=
  (disk.locate? here path).bind disk.item?

/-- Whether a path leads to a folder. -/
def leadsToFolder (disk : Disk) (here : Place) (path : Path) : Bool :=
  (disk.find? here path).any Item.isFolder

/-- Whether a path leads to a file. -/
def leadsToFile (disk : Disk) (here : Place) (path : Path) : Bool :=
  (disk.find? here path).any Item.isFile

/-- The text of the file that a path leads to. -/
def read? (disk : Disk) (here : Place) (path : Path) : Option String :=
  match disk.find? here path with
  | some (.file content) => content.text?
  | _ => none

/-- The place where a text written to a path comes to stand: a name in a folder, at which no folder
stands. -/
def target? (disk : Disk) (here : Place) (path : Path) : Option Place := do
  let name ← path.pieces.getLast?
  let folder ← path.pieces.dropLast.foldlM disk.step? (origin here path)
  let place := folder ++ [name]
  if Path.isIdle name || name = ".." || !disk.isFolder folder || disk.isFolder place then none
  else some place

/-- The disk with a text written to a path. -/
def write? (disk : Disk) (here : Place) (path : Path) (text : String) : Option Disk :=
  (disk.target? here path).map fun place => disk.put place (.file (.text text))

end Disk

/-- The path of a place. -/
def Place.toPath (place : Place) : Path := Path.root.descend place

end SourceAudit
