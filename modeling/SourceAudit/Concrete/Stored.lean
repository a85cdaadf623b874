import SourceAudit.Concrete.Json
import SourceAudit.Disk.Basic
import SourceAudit.Json.Parser

/-!
# Concrete trees that are stored beside their sources

No grammar is built in. The concrete tree of a source is kept in a file beside it, under the name of
the source with `.cst` behind it, in the flat JSON form. Such a disk is a grammar for the texts on
it: a text whose tree is stored has that tree, and any other text is not taken.
-/

namespace SourceAudit

/-- What is put behind the name of a source for the name of its tree. -/
def storedSuffix : String := ".cst"

/-- The tree of a text that is not taken. -/
def Concrete.untaken (text : String) : Concrete :=
  .mk ⟨"ERROR", [], true, false, true, false, 0, text.utf8ByteSize, 0, 0⟩ []

namespace Disk

/-- The tree stored for the source at a place. -/
def storedTree? (disk : Disk) (place : Place) : Option Concrete := do
  let name ← place.getLast?
  let content ← disk.content? (place.dropLast ++ [name ++ storedSuffix])
  Concrete.ofJson? (← Json.parse? (← content.text?))

/-- The text of the source at a place, with its stored tree. -/
def storedSource? (disk : Disk) (entry : Place × Item) : Option (String × Concrete) :=
  match entry with
  | (place, .file (.text s)) => (disk.storedTree? place).map (s, ·)
  | _ => none

/-- The grammar that a disk holds. -/
def grammar (disk : Disk) : Grammar :=
  let known := disk.items.filterMap disk.storedSource?
  fun text => (known.lookup text).getD (.untaken text)

end Disk

end SourceAudit
