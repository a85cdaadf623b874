import SourceAudit.Glob.Basic

/-!
# Reading patterns

A pattern is read from left to right. A backslash makes the next character stand for itself, except
inside brackets. Brackets that are never closed are no brackets: then that one and every later
opening bracket stand for themselves. There is no pattern with a stretch in brackets that runs
backwards, with braces that do not pair up, or with a backslash at the end; of several such faults
the first counts, except that braces are found to be open only at the end.

Two stars count as `**` where they take the place of a name: between slashes, or between a slash
and the beginning or end of the pattern or of an alternative. Anywhere else they are two single
stars.
-/

namespace SourceAudit

namespace Glob

/-! ## Faults -/

/-- Why a text is no pattern. -/
inductive Fault where
  /-- A stretch in brackets runs backwards, from one character to another. -/
  | backwards (start stop : Char)
  /-- Braces are closed that are not open. -/
  | unopened
  /-- Braces are open at the end. -/
  | unclosed
  /-- A backslash stands at the end. -/
  | danglingEscape
  deriving DecidableEq, Repr

/-- The wording of a fault. -/
def Fault.message : Fault → String
  | .backwards start stop =>
    "invalid range; '" ++ start.toString ++ "' > '" ++ stop.toString ++ "'"
  | .unopened =>
    "unopened alternate group; missing '\x7b' (maybe escape '\x7d' with '[\x7d]'?)"
  | .unclosed =>
    "unclosed alternate group; missing '\x7d' (maybe escape '\x7b' with '[\x7b]'?)"
  | .danglingEscape => "dangling '\\'"

/-! ## Brackets -/

/-- What stands behind an opening bracket. -/
inductive Brackets where
  /-- Characters and stretches up to the closing bracket, and what follows it. -/
  | closed (ranges : List (Char × Char)) (rest : List Char)
  /-- No closing bracket. -/
  | unclosed
  /-- A stretch that runs backwards. -/
  | backwards (start stop : Char)

/-- Reads what brackets list. The character behind the opening stands for itself, whatever it is;
`ranges` are those before, the last first, and `open` says that a hyphen behind the last of them
waits for the end of the stretch. -/
def readBrackets (first «open» : Bool) (ranges : List (Char × Char)) : List Char → Brackets
  | [] => .unclosed
  | c :: rest =>
    if c = ']' && !first then
      .closed (if «open» then ('-', '-') :: ranges else ranges).reverse rest
    else if c = '-' && !first && !«open» then readBrackets false true ranges rest
    else
      match «open», ranges with
      | true, (start, _) :: ranges =>
        if c < start then .backwards start c
        else readBrackets false false ((start, c) :: ranges) rest
      | _, ranges => readBrackets false false ((c, c) :: ranges) rest

/-- Reads brackets behind the opening one; a leading `!` or `^` negates them. -/
def readClass : List Char → Bool × Brackets
  | '!' :: rest => (true, readBrackets true false [] rest)
  | '^' :: rest => (true, readBrackets true false [] rest)
  | rest => (false, readBrackets true false [] rest)

/-! ## Drafts -/

/-- A pattern that is being read. -/
structure Draft where
  /-- The tokens of the innermost alternative, the last first. -/
  tokens : List Token := []
  /-- The braces that are open, the innermost first: the tokens before each and its finished
  alternatives, both with the last first. -/
  groups : List (List Token × List (List Token)) := []

namespace Draft

/-- Adds a token. -/
def push (draft : Draft) (token : Token) : Draft := { draft with tokens := token :: draft.tokens }

/-- Opens braces. -/
def openGroup (draft : Draft) : Draft := ⟨[], (draft.tokens, []) :: draft.groups⟩

/-- Goes on to the next alternative; outside braces a comma stands for itself. -/
def separate (draft : Draft) : Draft :=
  match draft.groups with
  | [] => draft.push (.literal ',')
  | (before, options) :: groups => ⟨[], (before, draft.tokens.reverse :: options) :: groups⟩

/-- Closes braces. -/
def closeGroup (draft : Draft) : Except Fault Draft :=
  match draft.groups with
  | [] => .error .unopened
  | (before, options) :: groups =>
    .ok ⟨.alternatives (draft.tokens.reverse :: options).reverse :: before, groups⟩

/-- Puts `token` in place of the slash before two stars. A `**` that already reaches over that slash
stays what it is. -/
def reach (draft : Draft) (token : Token) : Draft :=
  match draft.tokens with
  | .leading :: _ => draft
  | .trailing :: _ => draft
  | _ :: tokens => { draft with tokens := token :: tokens }
  | [] => draft.push token

/-- Adds two stars that stand behind `before`, and says what is left of the text behind them. -/
def doubleStar (draft : Draft) (before : Option Char) (rest : List Char) : Draft × List Char :=
  let inGroup := !draft.groups.isEmpty
  let single := ((draft.push .run).push .run, rest)
  if draft.tokens.isEmpty then
    match rest with
    | [] => (draft.push .leading, [])
    | '/' :: rest => (draft.push .leading, rest)
    | _ => single
  else if before = some '/' || inGroup && (before = some ',' || before = some '{') then
    match rest with
    | [] => (draft.reach .trailing, [])
    | '/' :: rest => (draft.reach .between, rest)
    | c :: _ => if inGroup && (c = ',' || c = '}') then (draft.reach .trailing, rest) else single
  else single

end Draft

/-! ## Patterns -/

/-- Reads the rest of a pattern, of which each step takes at least one character. `before` is the
character before the rest, and `literalBrackets` says that opening brackets stand for
themselves. -/
def readTokens (literalBrackets : Bool) (before : Option Char) (draft : Draft) :
    Nat → List Char → Except Fault Draft
  | _, [] => .ok draft
  | 0, _ :: _ => .ok draft
  | fuel + 1, c :: rest =>
    match c with
    | '?' => readTokens literalBrackets (some c) (draft.push .one) fuel rest
    | '*' =>
      match rest with
      | '*' :: rest =>
        let (draft, left) := draft.doubleStar before rest
        let last := if left.length < rest.length then '/' else '*'
        readTokens literalBrackets (some last) draft fuel left
      | _ => readTokens literalBrackets (some c) (draft.push .run) fuel rest
    | '[' =>
      if literalBrackets then
        readTokens literalBrackets (some c) (draft.push (.literal c)) fuel rest
      else
        match readClass rest with
        | (negated, .closed ranges rest) =>
          readTokens literalBrackets (some ']') (draft.push (.byteOf negated ranges)) fuel rest
        | (_, .unclosed) => readTokens true (some c) (draft.push (.literal c)) fuel rest
        | (_, .backwards start stop) => .error (.backwards start stop)
    | '{' => readTokens literalBrackets (some c) draft.openGroup fuel rest
    | '}' => do readTokens literalBrackets (some c) (← draft.closeGroup) fuel rest
    | ',' => readTokens literalBrackets (some c) draft.separate fuel rest
    | '\\' =>
      match rest with
      | [] => .error .danglingEscape
      | c :: rest => readTokens literalBrackets (some c) (draft.push (.literal c)) fuel rest
    | c => readTokens literalBrackets (some c) (draft.push (.literal c)) fuel rest

/-- The pattern of a text. -/
def parse (text : List Char) : Except Fault Glob := do
  let draft ← readTokens false none {} text.length text
  if draft.groups.isEmpty then .ok ⟨draft.tokens.reverse⟩ else .error .unclosed

end Glob

end SourceAudit
