import SourceAudit.Ignore.Repository

/-!
# The list of the user

A user can have a list of their own, which counts in all repositories. It is named in a settings
file, by a line of the form `excludesfile = name`; the letters of the word may be capitals, the name
may stand in quotes, and each `~` in it stands for the home of the user. There are two settings
files, and the first that has such a line decides. If none has, the list is at a path of its own.

`Personal.namedIn?` finds the name. It works on bytes, because settings need not be text. Gaps may
run over line ends, so the name may stand on a later line than the word; but the first byte of the
line must start the word, gaps apart, and nothing but gaps and a quote may follow the name on its
line.
-/

namespace SourceAudit

/-- Where a user keeps what is theirs. -/
structure Personal where
  /-- Their home. -/
  home : Option Path := none
  /-- The folder with their settings for other programs. -/
  settings : Option Path := home.map (·.child ".config")

/-- Where a user with this home keeps what is theirs; the folder with their settings may be one that
is asked for. -/
def personalOf (home asked : Option Path) : Personal :=
  match asked with
  | some path => if path.text.isEmpty then { home } else { home, settings := path }
  | none => { home }

/-- The bytes of a file. -/
def Content.raw : Content → List UInt8
  | .text s => s.toUTF8.toList
  | .bytes raw => raw

namespace Personal

/-! ## The name in a settings file -/

/-- The byte of a quote. -/
def quote : UInt8 := 0x22

/-- Whether a byte is a gap: a tab, a line end, or a blank. -/
def isGap (b : UInt8) : Bool := b = 0x20 || 0x9 ≤ b && b ≤ 0xd

/-- What comes behind the gaps at the start of a text. -/
def skipGaps (text : List UInt8) : List UInt8 := text.dropWhile isGap

/-- Whether nothing but gaps comes before the end of the line. -/
def endsLine (text : List UInt8) : Bool :=
  let gaps := text.takeWhile isGap
  gaps.contains 10 || gaps.length == text.length

/-- The name at the start of a text: everything up to a gap, less a quote at the end. The quote may
also stand behind the gap. -/
def name? (text : List UInt8) : Option (List UInt8) :=
  let name := text.takeWhile (!isGap ·)
  let rest := text.drop name.length
  if name.isEmpty then none
  else if endsLine rest then
    some (if name.getLast? = some quote && 1 < name.length then name.dropLast else name)
  else
    match skipGaps rest with
    | b :: rest => if b = quote && endsLine rest then some name else none
    | [] => none

/-- The name behind the sign of equality. A quote belongs to the name only if there is none
without it. -/
def value? (text : List UInt8) : Option (List UInt8) :=
  match skipGaps text with
  | b :: rest =>
    if b = quote then name? (skipGaps rest) <|> name? (b :: rest) else name? (b :: rest)
  | [] => none

/-- The word before the name. -/
def keyword : List UInt8 := "excludesfile".toUTF8.toList

/-- The small letter of a byte. -/
def lowered (b : UInt8) : UInt8 := if 0x41 ≤ b && b ≤ 0x5a then b + 0x20 else b

/-- The name that a text starts to give. -/
def given? (text : List UInt8) : Option (List UInt8) :=
  let text := skipGaps text
  if (text.take keyword.length).map lowered = keyword then
    match skipGaps (text.drop keyword.length) with
    | b :: rest => if b = 0x3d then value? rest else none
    | [] => none
  else none

/-- What comes behind each line end of a text. -/
def afterLineEnds : List UInt8 → List (List UInt8)
  | [] => []
  | b :: rest => if b = 10 then rest :: afterLineEnds rest else afterLineEnds rest

/-- The name that a text gives first, if it is text. -/
def namedIn? (text : List UInt8) : Option String := do
  let name ← (text :: afterLineEnds text).findSome? given?
  String.fromUTF8? ⟨name.toArray⟩

/-! ## The list -/

/-- A name with the home of the user for each `~`. -/
def expand (personal : Personal) (name : String) : Path :=
  match personal.home with
  | none => ⟨name⟩
  | some home =>
    ⟨String.ofList (name.toList.flatMap fun c => if c = '~' then home.text.toList else [c])⟩

/-- The path that the settings file at a path names. -/
def listNamedAt? (personal : Personal) (disk : Disk) (here : Place) (path : Path) : Option Path :=
  match disk.find? here path with
  | some (.file content) => (namedIn? content.raw).map personal.expand
  | _ => none

/-- The settings files in which the list can be named, the one that decides first. -/
def settingsFiles (personal : Personal) : List Path :=
  (personal.home.map (·.child ".gitconfig")).toList
    ++ (personal.settings.map (·.child "git/config")).toList

/-- The path of the list of the user. -/
def listPath? (personal : Personal) (disk : Disk) (here : Place) : Option Path :=
  personal.settingsFiles.findSome? (personal.listNamedAt? disk here)
    <|> personal.settings.map (·.child "git/ignore")

/-- What the list of the user says. -/
def list (personal : Personal) (disk : Disk) (here : Place) : IgnoreList :=
  ((personal.listPath? disk here).map (disk.listAt here)).getD {}

end Personal

end SourceAudit
