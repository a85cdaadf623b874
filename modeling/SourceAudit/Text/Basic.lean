/-!
# Texts

The small rules of text that reports, logs and file names share: how a number is written, where
the first line of a text ends, and what it means to delete or to find a text inside another.
Searching is by characters, from left to right.
-/

namespace SourceAudit

namespace Text

/-- A number in decimal digits. -/
def decimal (n : Nat) : String := String.ofList (Nat.toDigits 10 n)

/-- The first line: what stands before the first line feed, less one carriage return right before
it. A carriage return anywhere else is part of the line. -/
def firstLineChars : List Char → List Char
  | [] => []
  | '\n' :: _ => []
  | '\r' :: '\n' :: _ => []
  | c :: rest => c :: firstLineChars rest

/-- The first line of a text. -/
def firstLine (s : String) : String := String.ofList (firstLineChars s.toList)

/-- The text with the occurrences of `needle` deleted that do not overlap, from left to right;
`skip` characters of a found occurrence are still to be passed over. -/
def eraseChars (needle : List Char) (skip : Nat) : List Char → List Char
  | [] => []
  | c :: rest =>
    match skip with
    | skip + 1 => eraseChars needle skip rest
    | 0 =>
      if needle.isPrefixOf (c :: rest) then eraseChars needle (needle.length - 1) rest
      else c :: eraseChars needle 0 rest

/-- Deletes every occurrence of `needle`, which is not empty. -/
def erase (needle s : String) : String := String.ofList (eraseChars needle.toList 0 s.toList)

/-- Whether `needle` stands somewhere in the text. -/
def containsChars (needle : List Char) : List Char → Bool
  | [] => needle.isEmpty
  | c :: rest => needle.isPrefixOf (c :: rest) || containsChars needle rest

/-- Whether `needle` stands somewhere in `s`. -/
def contains (needle s : String) : Bool := containsChars needle.toList s.toList

/-- The pieces between separators; a text without a separator is one piece. -/
def splitList [DecidableEq α] (separator : α) : List α → List (List α)
  | [] => [[]]
  | c :: rest =>
    if c = separator then [] :: splitList separator rest
    else
      match splitList separator rest with
      | [] => [[c]]
      | piece :: pieces => (c :: piece) :: pieces

/-- The pieces of `s` between separators. -/
def split (separator : Char) (s : String) : List String :=
  (splitList separator s.toList).map String.ofList

/-- Whether a text comes before another one in the order of code points, character by character. -/
def isBefore : List Char → List Char → Bool
  | _, [] => false
  | [], _ :: _ => true
  | a :: as, b :: bs => a.toNat < b.toNat || a == b && isBefore as bs

/-- `s` followed by blanks up to `width` characters. -/
def padRight (width : Nat) (s : String) : String :=
  s ++ String.ofList (List.replicate (width - s.length) ' ')

end Text

end SourceAudit
