/-!
# Quoted texts

Four kinds: between single or triple marks, and either with escapes (the double quote) or literal
(the apostrophe). Between triple marks a text may run over lines; a line break right behind the
opening marks is dropped, every other one counts as a line feed however it is written, and one or
two marks in a row are part of the text.

A control character other than the tab is refused everywhere.
-/

namespace SourceAudit

namespace Toml

/-- A character that may stand in a comment, and in a text unless it is a mark of the text. -/
def isPrintable (c : Char) : Bool :=
  c = '\t' || (' ' ≤ c && c ≤ '~') || 128 ≤ c.toNat

/-- The blanks within a line. -/
def isSpace (c : Char) : Bool := c = ' ' || c = '\t'

/-- The value of a hexadecimal digit. -/
def hexDigit? (c : Char) : Option Nat :=
  if '0' ≤ c ∧ c ≤ '9' then some (c.toNat - 48)
  else if 'a' ≤ c ∧ c ≤ 'f' then some (c.toNat - 87)
  else if 'A' ≤ c ∧ c ≤ 'F' then some (c.toNat - 55)
  else none

/-- The character whose code point the hexadecimal digits give. -/
def codePoint? (digits : List Char) : Option Char := do
  let values ← digits.mapM hexDigit?
  let code := values.foldl (fun code digit => code * 16 + digit) 0
  if code < 0xD800 ∨ (0xE000 ≤ code ∧ code < 0x110000) then some (Char.ofNat code) else none

/-- The character that a one-letter escape names. -/
def namedEscape? (c : Char) : Option Char :=
  if c = 'b' then some '\x08'
  else if c = 't' then some '\t'
  else if c = 'n' then some '\n'
  else if c = 'f' then some '\x0c'
  else if c = 'r' then some '\r'
  else if c = '"' then some '"'
  else if c = '\\' then some '\\'
  else none

/-- Puts a character before what has been read. -/
def before (c : Char) (read : Option (List Char × List Char)) : Option (List Char × List Char) :=
  read.map fun (text, rest) => (c :: text, rest)

/-- A text up to its closing quote. -/
def basic? : List Char → Option (List Char × List Char)
  | [] => none
  | '"' :: rest => some ([], rest)
  | '\\' :: 'u' :: a :: b :: c :: d :: rest => do
    before (← codePoint? [a, b, c, d]) (basic? rest)
  | '\\' :: 'U' :: a :: b :: c :: d :: e :: f :: g :: h :: rest => do
    before (← codePoint? [a, b, c, d, e, f, g, h]) (basic? rest)
  | '\\' :: c :: rest => do before (← namedEscape? c) (basic? rest)
  | c :: rest => if isPrintable c && c != '\\' then before c (basic? rest) else none

/-- A literal text up to its closing apostrophe. -/
def literal? : List Char → Option (List Char × List Char)
  | [] => none
  | '\'' :: rest => some ([], rest)
  | c :: rest => if isPrintable c then before c (literal? rest) else none

/-- Whether a text goes on with blanks up to the end of the line. -/
def endsLine (text : List Char) : Bool :=
  match text.dropWhile isSpace with
  | '\n' :: _ => true
  | '\r' :: '\n' :: _ => true
  | _ => false

/-- A text over lines up to its closing quotes. Behind a backslash at the end of a line, blanks and
line breaks are passed over, which `skipping` says. -/
def multilineBasic? (skipping : Bool) : List Char → Option (List Char × List Char)
  | [] => none
  | '"' :: '"' :: '"' :: '"' :: '"' :: rest => some (['"', '"'], rest)
  | '"' :: '"' :: '"' :: '"' :: rest => some (['"'], rest)
  | '"' :: '"' :: '"' :: rest => some ([], rest)
  | '\r' :: '\n' :: rest =>
    if skipping then multilineBasic? true rest else before '\n' (multilineBasic? false rest)
  | '\n' :: rest =>
    if skipping then multilineBasic? true rest else before '\n' (multilineBasic? false rest)
  | '\\' :: 'u' :: a :: b :: c :: d :: rest => do
    before (← codePoint? [a, b, c, d]) (multilineBasic? false rest)
  | '\\' :: 'U' :: a :: b :: c :: d :: e :: f :: g :: h :: rest => do
    before (← codePoint? [a, b, c, d, e, f, g, h]) (multilineBasic? false rest)
  | '\\' :: c :: rest =>
    if endsLine (c :: rest) then multilineBasic? true (c :: rest)
    else do before (← namedEscape? c) (multilineBasic? false rest)
  | c :: rest =>
    if skipping && isSpace c then multilineBasic? true rest
    else if isPrintable c && c != '\\' then before c (multilineBasic? false rest)
    else none

/-- A literal text over lines up to its closing apostrophes. -/
def multilineLiteral? : List Char → Option (List Char × List Char)
  | [] => none
  | '\'' :: '\'' :: '\'' :: '\'' :: '\'' :: rest => some (['\'', '\''], rest)
  | '\'' :: '\'' :: '\'' :: '\'' :: rest => some (['\''], rest)
  | '\'' :: '\'' :: '\'' :: rest => some ([], rest)
  | '\r' :: '\n' :: rest => before '\n' (multilineLiteral? rest)
  | '\n' :: rest => before '\n' (multilineLiteral? rest)
  | c :: rest => if isPrintable c then before c (multilineLiteral? rest) else none

/-- Drops a line break at the start. -/
def dropBreak : List Char → List Char
  | '\n' :: rest => rest
  | '\r' :: '\n' :: rest => rest
  | rest => rest

/-- The quoted text at the start of the text. -/
def quoted? : List Char → Option (String × List Char)
  | '"' :: '"' :: '"' :: rest => asString (multilineBasic? false (dropBreak rest))
  | '"' :: rest => asString (basic? rest)
  | '\'' :: '\'' :: '\'' :: rest => asString (multilineLiteral? (dropBreak rest))
  | '\'' :: rest => asString (literal? rest)
  | _ => none
where
  asString (read : Option (List Char × List Char)) : Option (String × List Char) :=
    read.map fun (text, rest) => (String.ofList text, rest)

/-! ## Keys -/

/-- The characters of a key without quotes. -/
def isKeyChar (c : Char) : Bool := c.isAlphanum || c = '_' || c = '-'

/-- A key: quoted on one line, or a run of key characters. -/
def simpleKey? : List Char → Option (String × List Char)
  | '"' :: rest => (basic? rest).map fun (text, rest) => (String.ofList text, rest)
  | '\'' :: rest => (literal? rest).map fun (text, rest) => (String.ofList text, rest)
  | text =>
    let key := text.takeWhile isKeyChar
    if key.isEmpty then none else some (String.ofList key, text.dropWhile isKeyChar)

/-- The keys between dots, with blanks around them. -/
def dottedKey? : Nat → List Char → Option (List String × List Char)
  | 0, _ => none
  | fuel + 1, text => do
    let (key, rest) ← simpleKey? (text.dropWhile isSpace)
    match rest.dropWhile isSpace with
    | '.' :: rest => do
      let (keys, rest) ← dottedKey? fuel rest
      return (key :: keys, rest)
    | rest => return ([key], rest)

/-- The most parts a key may have, and one more than the most levels a value may nest. -/
def depthLimit : Nat := 80

/-- The parts of a key, of which there may not be too many. -/
def key? (text : List Char) : Option (List String × List Char) := do
  let (keys, rest) ← dottedKey? (text.length + 1) text
  if keys.length < depthLimit then some (keys, rest) else none

end Toml

end SourceAudit
