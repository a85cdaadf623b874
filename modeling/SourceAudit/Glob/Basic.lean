/-!
# Patterns for paths

A pattern describes paths below some folder, written with slashes between the names. Most
characters stand for themselves; `?` is one byte and `*` any number of bytes other than a slash;
`**` in place of a name is any number of names; square brackets list bytes, and braces list
alternatives.

A pattern is matched against the bytes of a path: a character outside ASCII that stands for itself
is all of its bytes, but `?` and brackets take one of them. Brackets take a slash like any other
byte.

`Token.rests` says what can be left of a text when a token has taken its part from the front. A
pattern matches when nothing can be left.
-/

namespace SourceAudit

/-- One sign of a pattern. -/
inductive Glob.Token where
  /-- The character itself. -/
  | literal (c : Char)
  /-- `?`: a byte other than a slash. -/
  | one
  /-- `*`: bytes other than a slash. -/
  | run
  /-- `**` in front: nothing, or everything up to a slash. -/
  | leading
  /-- `**` behind a slash at the end: the slash and everything behind it. -/
  | trailing
  /-- `**` between slashes: a slash, or everything from one slash to another. -/
  | between
  /-- Brackets: a byte of these characters and stretches of characters, or another one. -/
  | byteOf (negated : Bool) (ranges : List (Char × Char))
  /-- Braces: one of these patterns. -/
  | alternatives (options : List (List Glob.Token))

/-- A pattern. -/
structure Glob where
  tokens : List Glob.Token

namespace Glob

/-- The byte of a slash. -/
def slash : UInt8 := 0x2f

/-- The bytes of a character. -/
def bytesOf (c : Char) : List UInt8 := (String.singleton c).toUTF8.toList

/-! ## What is left of a text -/

/-- The ends of a text, the text itself first. -/
def ends : List UInt8 → List (List UInt8)
  | [] => [[]]
  | b :: rest => (b :: rest) :: ends rest

/-- What stands behind each slash of a text. -/
def afterSlashes : List UInt8 → List (List UInt8)
  | [] => []
  | b :: rest => if b = slash then rest :: afterSlashes rest else afterSlashes rest

/-- The ends of a text that start at or before its first slash. -/
def endsToSlash : List UInt8 → List (List UInt8)
  | [] => [[]]
  | b :: rest => (b :: rest) :: if b = slash then [] else endsToSlash rest

/-- The stretches of bytes that brackets list. The two ends of a stretch of characters are written
byte by byte, so the stretch lies between the last byte of one and the first byte of the other. -/
def byteRanges (range : Char × Char) : List (UInt8 × UInt8) :=
  let first := bytesOf range.1
  let last := bytesOf range.2
  if range.1 = range.2 then first.map fun b => (b, b)
  else
    first.dropLast.map (fun b => (b, b)) ++ [(first.getLastD 0, last.headD 0)]
      ++ last.tail.map fun b => (b, b)

/-- Whether brackets list a byte. -/
def listsByte (ranges : List (Char × Char)) (b : UInt8) : Bool :=
  (ranges.flatMap byteRanges).any fun range => range.1 ≤ b && b ≤ range.2

mutual

/-- Whether a token is nothing but empty alternatives. -/
def Token.isVoid : Token → Bool
  | .alternatives options => allVoid options
  | _ => false

/-- Whether tokens are nothing but empty alternatives. -/
def isVoid : List Token → Bool
  | [] => true
  | token :: tokens => token.isVoid && isVoid tokens

def allVoid : List (List Token) → Bool
  | [] => true
  | option :: options => isVoid option && allVoid options

end

mutual

/-- What can be left of a text behind a token. Empty alternatives do not count, unless there are no
others. -/
def Token.rests : Token → List UInt8 → List (List UInt8)
  | .literal c, text => ((bytesOf c).isPrefixOf? text).toList
  | .one, [] => []
  | .one, b :: rest => if b = slash then [] else [rest]
  | .run, text => endsToSlash text
  | .leading, text => text :: afterSlashes text
  | .trailing, [] => []
  | .trailing, b :: rest => if b = slash then ends rest else []
  | .between, [] => []
  | .between, b :: rest => if b = slash then rest :: afterSlashes rest else []
  | .byteOf _ _, [] => []
  | .byteOf negated ranges, b :: rest => if listsByte ranges b = negated then [] else [rest]
  | .alternatives options, text => if allVoid options then [text] else restsAny options text

def restsAll : List Token → List (List UInt8) → List (List UInt8)
  | [], texts => texts
  | token :: tokens, texts => restsAll tokens (texts.flatMap fun text => token.rests text).eraseDups

/-- What can be left of a text behind one of some alternatives. -/
def restsAny : List (List Token) → List UInt8 → List (List UInt8)
  | [], _ => []
  | option :: options, text =>
    (if isVoid option then [] else restsAll option [text]) ++ restsAny options text

end

/-- Whether a pattern is `**` alone. -/
def isEverything : Glob → Bool
  | ⟨[.leading]⟩ => true
  | _ => false

/-- Whether a pattern matches a path; `**` alone matches every path. -/
def isMatch (glob : Glob) (path : String) : Bool :=
  glob.isEverything || (restsAll glob.tokens [path.toUTF8.toList]).any List.isEmpty

end Glob

end SourceAudit
