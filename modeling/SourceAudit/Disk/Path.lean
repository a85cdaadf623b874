import SourceAudit.Text.Basic

/-!
# Paths

A path is a text that says where something stands, from the root of the disk or from the folder one
is in. It is shown as it was written, so two texts for one place stay two paths: nothing here looks
at a disk or tidies a path up.

The pieces of a path stand between its slashes. A piece that is empty, or a dot, leads nowhere. So
the path above a path drops the last piece that leads somewhere, and with it what leads nowhere in
front of it. A leading slash stays; so does a leading dot, which counts as a step of its own: above
`./a` comes `.`, and above that the empty path.
-/

namespace SourceAudit

/-- A path, as it is written. -/
structure Path where
  text : String
  deriving DecidableEq, Repr

namespace Path

/-- The folder one is in. -/
def current : Path := ⟨"."⟩

/-- The root of the disk. -/
def root : Path := ⟨"/"⟩

/-- The texts between the slashes of a path. -/
def pieces (path : Path) : List String := Text.split '/' path.text

/-- Whether a path starts at the root of the disk. -/
def isAbsolute (path : Path) : Bool := path.text.toList.head? = some '/'

/-- The path of `name` inside the folder of a path. -/
def child (path : Path) (name : String) : Path :=
  if path.text.isEmpty || path.text.toList.getLast? = some '/' then ⟨path.text ++ name⟩
  else ⟨path.text ++ "/" ++ name⟩

/-- The path one comes to from a path by going down through `names`. -/
def descend (path : Path) (names : List String) : Path := names.foldl child path

/-! ## Upwards -/

/-- Whether a piece leads nowhere. -/
def isIdle (piece : String) : Bool := piece = "" || piece = "."

/-- A leading slash or a leading dot, and the pieces behind it. -/
def opening (path : Path) : String × List String :=
  match path.text.toList with
  | '/' :: rest => ("/", (Text.splitList '/' rest).map String.ofList)
  | ['.'] => (".", [])
  | '.' :: '/' :: rest => (".", "" :: (Text.splitList '/' rest).map String.ofList)
  | cs => ("", (Text.splitList '/' cs).map String.ofList)

/-- The path with an opening and pieces, of which the last comes first. -/
def assemble (opening : String) (pieces : List String) : Path :=
  ⟨opening ++ "/".intercalate (pieces.dropWhile isIdle).reverse⟩

/-- The paths above the path with an opening and pieces, of which the last comes first. -/
def aboveFrom (opening : String) : List String → List Path
  | [] => if opening = "." then [⟨""⟩] else []
  | piece :: pieces =>
    if isIdle piece then aboveFrom opening pieces
    else assemble opening pieces :: aboveFrom opening pieces

/-- The paths above a path, the nearest first. -/
def above (path : Path) : List Path := aboveFrom path.opening.1 path.opening.2.reverse

/-- The path right above a path. -/
def parent? (path : Path) : Option Path := path.above.head?

/-- A path and the paths above it, the nearest first. -/
def ancestors (path : Path) : List Path := path :: path.above

end Path

/-- What stands behind the last dot of a name, if anything stands before it. -/
def extension? (name : String) : Option String :=
  match (Text.split '.' name).reverse with
  | last :: before => if before = [] || before = [""] then none else some last
  | [] => none

end SourceAudit
