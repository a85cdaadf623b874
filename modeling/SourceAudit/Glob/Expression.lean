import SourceAudit.Glob.Basic
import SourceAudit.Text.Basic

/-!
# Patterns as regular expressions

Every pattern can be written as a regular expression over bytes, and patterns that are more than a
text are matched through theirs. An expression must not be nested too deeply: groups, alternatives,
sequences, repetitions and sets of bytes each count as a level, and there are at most `depthLimit`
levels. Only braces can nest, so only a pattern with many braces inside each other is too deep.

A list of patterns is matched as a whole, and one pattern that is too deep spoils it. `spoiler?`
says which one is found first: those that end in an extension are looked at before the others, and
those that are matched without their expression are not counted.
-/

namespace SourceAudit

namespace Glob

/-! ## The text of an expression -/

/-- Whether a character has a meaning in expressions. -/
def isMeta (c : Char) : Bool :=
  "\\.+*?()|[]\x7b\x7d^$#&-~".toList.contains c

/-- A byte in an expression: an ASCII character, with a backslash if it has a meaning, or the number
of the byte. -/
def byteExpression (b : UInt8) : String :=
  if b < 0x80 then
    let c := Char.ofNat b.toNat
    if isMeta c then "\\" ++ c.toString else c.toString
  else "\\x" ++ String.ofList (Nat.toDigits 16 b.toNat)

/-- A character in an expression. -/
def charExpression (c : Char) : String := String.join ((bytesOf c).map byteExpression)

/-- A stretch of characters in brackets. -/
def rangeExpression (range : Char × Char) : String :=
  if range.1 = range.2 then charExpression range.1
  else charExpression range.1 ++ "-" ++ charExpression range.2

mutual

/-- The expression of a token. -/
def Token.expression : Token → String
  | .literal c => charExpression c
  | .one => "[^/]"
  | .run => "[^/]*"
  | .leading => "(?:/?|.*/)"
  | .trailing => "/.*"
  | .between => "(?:/|/.*/)"
  | .byteOf negated ranges =>
    "[" ++ (if negated then "^" else "") ++ String.join (ranges.map rangeExpression) ++ "]"
  | .alternatives options =>
    if allVoid options then "" else "(?:" ++ "|".intercalate (optionExpressions options) ++ ")"

/-- The expression of tokens, one behind the other. -/
def tokensExpression : List Token → String
  | [] => ""
  | token :: tokens => token.expression ++ tokensExpression tokens

/-- The expressions of the alternatives that are not empty. -/
def optionExpressions : List (List Token) → List String
  | [] => []
  | option :: options =>
    if isVoid option then optionExpressions options
    else tokensExpression option :: optionExpressions options

end

/-- The expression of a pattern: it takes the whole of a path. -/
def expression (glob : Glob) : String :=
  "(?-u)^" ++ (if glob.isEverything then ".*" else tokensExpression glob.tokens) ++ "$"

/-! ## Levels -/

/-- The largest number of levels. -/
def depthLimit : Nat := 250

mutual

/-- How many parts a token adds to the sequence it stands in. -/
def Token.width : Token → Nat
  | .literal c => (bytesOf c).length
  | .trailing => 2
  | .alternatives options => if allVoid options then 0 else 1
  | _ => 1

/-- How many levels there are in a token. -/
def Token.depth : Token → Nat
  | .literal _ => 0
  | .one => 1
  | .run => 2
  | .leading => 4
  | .trailing => 1
  | .between => 4
  | .byteOf _ ranges => if (ranges.flatMap byteRanges).length < 2 then 1 else 2
  | .alternatives options =>
    if allVoid options then 0
    else (if fullCount options < 2 then 1 else 2) + optionsDepth options

def tokensWidth : List Token → Nat
  | [] => 0
  | token :: tokens => token.width + tokensWidth tokens

def tokensDepth : List Token → Nat
  | [] => 0
  | token :: tokens => max token.depth (tokensDepth tokens)

/-- How many alternatives are not empty. -/
def fullCount : List (List Token) → Nat
  | [] => 0
  | option :: options => (if isVoid option then 0 else 1) + fullCount options

/-- How many levels there are in the deepest alternative; a sequence of parts is a level. -/
def optionsDepth : List (List Token) → Nat
  | [] => 0
  | option :: options =>
    max ((if tokensWidth option < 2 then 0 else 1) + tokensDepth option) (optionsDepth options)

end

/-- How many levels there are in the expression of a pattern, which is a sequence. -/
def depth (glob : Glob) : Nat := 1 + tokensDepth glob.tokens

/-- Whether a pattern is too deep for an expression. -/
def isTooDeep (glob : Glob) : Bool := depthLimit < glob.depth

/-! ## Lists of patterns -/

/-- The character of a token that stands for itself. -/
def Token.literal? : Token → Option Char
  | .literal c => some c
  | _ => none

/-- The text that tokens are, if all of them stand for themselves. -/
def spelled? (tokens : List Token) : Option (List Char) := tokens.mapM Token.literal?

/-- Whether a pattern is matched without its expression: it is a text, perhaps behind `**`, or any
name with an extension, or a folder with all that is in it. -/
def isPlain (glob : Glob) : Bool :=
  match glob.tokens with
  | .leading :: .run :: .literal '.' :: tokens =>
    (spelled? tokens).any fun cs => !cs.contains '.' && !cs.contains '/'
  | .leading :: tokens => (spelled? tokens).any (!·.isEmpty)
  | tokens =>
    (spelled? tokens).any (!·.isEmpty) ||
      match tokens.reverse with
      | .trailing :: tokens => (spelled? tokens).isSome
      | _ => false

/-- Whether tokens, the last first, are an extension and whatever stands before it. -/
def endsInExtension : List Token → Bool
  | .literal c :: tokens => c != '/' && (c = '.' || endsInExtension tokens)
  | _ => false

/-- How a pattern that is too deep is found. -/
inductive Spoiler where
  /-- By itself, because it ends in an extension. -/
  | single (glob : Glob)
  /-- Among the patterns that are left, with this many before it. -/
  | counted (before : Nat)

/-- The pattern that spoils a list, if there is one. -/
def spoiler? (globs : List Glob) : Option Spoiler :=
  let rest := globs.filter fun glob => !glob.isPlain
  let (single, joint) := rest.partition fun glob => endsInExtension glob.tokens.reverse
  match single.find? isTooDeep with
  | some glob => some (.single glob)
  | none => (joint.findIdx? isTooDeep).map .counted

/-- The wording of what is wrong with a list. -/
def Spoiler.message : Spoiler → String
  | .single glob => "error parsing glob '" ++ glob.expression ++ "': error parsing pattern 0"
  | .counted before => "error parsing pattern " ++ Text.decimal before

end Glob

end SourceAudit
