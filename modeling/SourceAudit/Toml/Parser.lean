import SourceAudit.Toml.Draft
import SourceAudit.Toml.Quoted
import SourceAudit.Toml.Scalar

/-!
# Reading TOML documents

A document is read line by line into a draft: headers choose the table that follows, and the other
lines give keys their values. Arrays may run over lines and hold comments; inline tables may not,
and have no comma behind their last entry.

The only question that the rest of this library asks of a document is whether it is one, and if so
what it says. So a reader answers with a value and the rest of the text, or with nothing.
-/

namespace SourceAudit

namespace Toml

/-- Passes over blanks, line breaks and comments; `inComment` says whether a comment is being
passed over. A comment must be ended by a line break. -/
def skipLayout? (inComment : Bool) : List Char → Option (List Char)
  | [] => if inComment then none else some []
  | '\n' :: rest => skipLayout? false rest
  | '\r' :: '\n' :: rest => skipLayout? false rest
  | c :: rest =>
    if inComment then if isPrintable c then skipLayout? true rest else none
    else if isSpace c then skipLayout? false rest
    else if c = '#' then skipLayout? true rest
    else if c = '\r' then none
    else some (c :: rest)

mutual

/-- The value at the start of the text, `depth` containers deep. -/
def value? : Nat → Nat → List Char → Option (Value × List Char)
  | 0, _, _ => none
  | fuel + 1, depth, text =>
    match text with
    | '[' :: rest =>
      if depth + 1 < depthLimit then
        (items? fuel (depth + 1) rest).map fun (items, rest) => (.array items, rest)
      else none
    | '{' :: rest =>
      if depth + 1 < depthLimit then
        match rest.dropWhile isSpace with
        | '}' :: rest => some (.table [], rest)
        | _ =>
          (entries? fuel (depth + 1) Draft.fresh rest).map fun (draft, rest) =>
            (.table draft.finish, rest)
      else none
    | '"' :: _ => (quoted? text).map fun (text, rest) => (.string text, rest)
    | '\'' :: _ => (quoted? text).map fun (text, rest) => (.string text, rest)
    | _ => scalar? text

/-- The items of an array up to its closing bracket. -/
def items? : Nat → Nat → List Char → Option (List Value × List Char)
  | 0, _, _ => none
  | fuel + 1, depth, text => do
    match ← skipLayout? false text with
    | ']' :: rest => return ([], rest)
    | text => do
      let (item, rest) ← value? fuel depth text
      match ← skipLayout? false rest with
      | ']' :: rest => return ([item], rest)
      | ',' :: rest => do
        let (items, rest) ← items? fuel depth rest
        return (item :: items, rest)
      | _ => none

/-- The entries of an inline table up to its closing bracket. -/
def entries? : Nat → Nat → Draft → List Char → Option (Draft × List Char)
  | 0, _, _, _ => none
  | fuel + 1, depth, draft, text => do
    let (keys, rest) ← key? text
    match rest with
    | '=' :: rest => do
      let (value, rest) ← value? fuel depth (rest.dropWhile isSpace)
      let draft ← draft.assign keys value
      match rest.dropWhile isSpace with
      | '}' :: rest => return (draft, rest)
      | ',' :: rest => entries? fuel depth draft rest
      | _ => none
    | _ => none

end

/-- The end of a line, or of the document. -/
def lineBreak? : List Char → Option (List Char)
  | [] => some []
  | '\n' :: rest => some rest
  | '\r' :: '\n' :: rest => some rest
  | _ => none

/-- Blanks, perhaps a comment, and the end of the line. -/
def lineEnd? (text : List Char) : Option (List Char) :=
  match text.dropWhile isSpace with
  | '#' :: rest => lineBreak? (rest.dropWhile isPrintable)
  | rest => lineBreak? rest

/-- A document in the making: its root, and the path of the table that the last header chose. -/
structure Document where
  root : Draft := .fresh
  path : List String := []

namespace Document

/-- Gives a key of the chosen table its value. -/
def assign (document : Document) (keys : List String) (value : Value) : Option Document :=
  (document.root.descend false (Draft.assign keys value) document.path).map
    ({ document with root := · })

/-- Defines the table at a path by `define` and chooses it. -/
def choose (document : Document) (define : String → Draft → Option Draft) (keys : List String) :
    Option Document := do
  let root ← document.root.descend false (define (← keys.getLast?)) keys.dropLast
  return ⟨root, keys⟩

/-- Reads the line at the start of the text, and says what follows it. -/
def line? (document : Document) (text : List Char) : Option (Document × List Char) :=
  match text.dropWhile isSpace with
  | '[' :: '[' :: rest => do
    let (keys, rest) ← key? rest
    match rest with
    | ']' :: ']' :: rest => return (← document.choose Draft.defineNext keys, ← lineEnd? rest)
    | _ => none
  | '[' :: rest => do
    let (keys, rest) ← key? rest
    match rest with
    | ']' :: rest => return (← document.choose Draft.define keys, ← lineEnd? rest)
    | _ => none
  | text =>
    match lineEnd? text with
    | some rest => some (document, rest)
    | none => do
      let (keys, rest) ← key? text
      match rest with
      | '=' :: rest => do
        let text := rest.dropWhile isSpace
        let (value, rest) ← value? (2 * text.length + 2) 0 text
        return (← document.assign keys value, ← lineEnd? rest)
      | _ => none

/-- Reads lines up to the end of the text. -/
def lines? : Nat → Document → List Char → Option Document
  | _, document, [] => some document
  | 0, _, _ :: _ => none
  | fuel + 1, document, text => do
    let (document, rest) ← document.line? text
    lines? fuel document rest

end Document

/-- Drops the mark that may stand before a text to say how it is encoded. -/
def dropByteOrderMark : List Char → List Char
  | '\uFEFF' :: rest => rest
  | rest => rest

/-- The table that a document is. -/
def parse? (text : String) : Option Table :=
  let chars := dropByteOrderMark text.toList
  (Document.lines? chars.length {} chars).map (·.root.finish)

end Toml

end SourceAudit
