import SourceAudit.Text.CharRange

/-!
# The property White_Space

Blanks are the characters with the property White_Space of the Unicode standard: tabs, line ends,
the spaces of every width and the separators of lines and paragraphs. Trimming takes them away from
the ends of a text.
-/

namespace SourceAudit

namespace Text

/-- The stretches of blanks, in rising order. -/
def blankRanges : List CharRange :=
  [⟨0x9, 0xd, 1⟩, ⟨0x20, 0x20, 1⟩, ⟨0x85, 0x85, 1⟩, ⟨0xa0, 0xa0, 1⟩, ⟨0x1680, 0x1680, 1⟩,
    ⟨0x2000, 0x200a, 1⟩, ⟨0x2028, 0x2029, 1⟩, ⟨0x202f, 0x202f, 1⟩, ⟨0x205f, 0x205f, 1⟩,
    ⟨0x3000, 0x3000, 1⟩]

/-- Whether a character is a blank. -/
def isBlank (c : Char) : Bool := CharRange.anyContains blankRanges c

/-- The characters less the blanks at the end. -/
def trimRightChars (cs : List Char) : List Char := (cs.reverse.dropWhile isBlank).reverse

/-- A text less the blanks at both ends. -/
def trim (s : String) : String := String.ofList (trimRightChars (s.toList.dropWhile isBlank))

end Text

end SourceAudit
