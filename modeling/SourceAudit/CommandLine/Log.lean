import SourceAudit.CommandLine.Check

/-!
# The log of a run

A run says what it is doing. Most of it is detail, which is shown only on request; notes and
warnings are always shown.

The log of a check follows its stages: each adds what it has to say, and the stage that fails is
the last to say anything.

A log is read on terminals, and some control characters give terminals orders. Where they come from
a name or a path, they are written out.
-/

namespace SourceAudit

/-- How much a line matters. -/
inductive Level where
  | debug
  | info
  | warn
  deriving DecidableEq, Repr

/-- One line of a log. -/
structure LogLine where
  level : Level
  message : String
  deriving DecidableEq, Repr

namespace LogLine

/-- A detail. -/
def debug (message : String) : LogLine := ⟨.debug, message⟩

/-- A note. -/
def info (message : String) : LogLine := ⟨.info, message⟩

/-- A warning. -/
def warn (message : String) : LogLine := ⟨.warn, message⟩

/-- A number in hexadecimal digits. -/
def hexadecimal (n : Nat) : String := String.ofList (Nat.toDigits 16 n)

/-- A character of a message: the ASCII characters that give terminals orders are written out with
two digits, and the control characters behind ASCII between braces. -/
def written (c : Char) : String :=
  if c = '\x07' || c = '\x08' || c = '\x0c' then "\\x0" ++ hexadecimal c.toNat
  else if c = '\x1b' || c = '\x7f' then "\\x" ++ hexadecimal c.toNat
  else if 0x80 ≤ c.toNat && c.toNat ≤ 0x9f then "\\u\x7b" ++ hexadecimal c.toNat ++ "\x7d"
  else c.toString

/-- A line that gives terminals no orders. -/
def tamed (line : LogLine) : LogLine :=
  { line with message := String.join (line.message.toList.map written) }

/-- Whether a line is shown. -/
def isShown (verbose : Bool) (line : LogLine) : Bool := verbose || line.level != .debug

end LogLine

namespace Log

/-- What is said of the settings that are found. -/
def ofSource : ConfigSource → List LogLine
  | .project path => [.debug ("Found project config: " ++ path.text)]
  | .projectSection path => [.debug ("Found [tool.pyaudit] in " ++ path.text)]
  | .global path =>
    [.debug ("Found global config: " ++ path.text), .info ("Using global config: " ++ path.text)]
  | .explicit _ | .default => []

/-- What is said of a checker that is registered. -/
def ofChecker (checker : Checker) : LogLine :=
  .debug ("Registered checker " ++ checker.name ++ " (" ++ checker.code ++ "), active: "
    ++ (if checker.enabledByDefault then "true" else "false"))

/-- What is said while the registry of a preset is built. -/
def ofPreset (preset : Preset) : List LogLine :=
  builtinCheckers.map ofChecker ++
    [.debug ("Preset " ++ preset.name ++ ": " ++ Text.decimal preset.registry.activeCount ++ " of "
      ++ Text.decimal preset.registry.size ++ " checker(s) active")]

/-- What is said while the registry of a check is built. -/
def ofRegistry (options : CheckOptions) (config : Config) : List LogLine :=
  match Preset.ofName? (effectivePreset options.preset config) with
  | none => []
  | some preset =>
    .debug ("Using preset: " ++ preset.name) :: ofPreset preset
      ++ (preset.registry.unknownSettings config).map
        (fun name => .warn ("Configuration names unknown checker: " ++ name))
      ++ (preset.registry.unknown (options.keys?.getD [])).map
        (fun key => .warn ("Unknown checker: " ++ key))

/-- What is said of the selected files. -/
def ofFiles (registry : Registry) (files : List Path) : LogLine :=
  .info ("Analyzing " ++ Text.decimal files.length ++ " file(s) with "
    ++ Text.decimal registry.activeCount ++ " checker(s)")

/-- What is said while a text is turned into a tree. -/
def ofParse (file : String) : Except ParseError Tree → List LogLine
  | .error _ => [.debug ("Parsing " ++ file)]
  | .ok tree =>
    [.debug ("Parsing " ++ file),
      .debug ("Lowered " ++ Text.decimal tree.body.length ++ " top-level statement(s) from "
        ++ file)]

/-- What is said while a tree is analysed. -/
def ofTree (registry : Registry) (file : String) (tree : Tree) : List LogLine :=
  .info ("Analysing " ++ file ++ " with " ++ Text.decimal registry.activeCount ++ " checker(s)") ::
    registry.active.map (fun checker => .debug (checker.name ++ " reported "
      ++ Text.decimal (checker.findings tree).length ++ " issue(s) in " ++ file))
    ++ [.debug (file ++ ": " ++ Text.decimal (registry.check tree {}).issues.length ++ " issue(s)")]

/-- What is said while a text is analysed. -/
def ofText (provider : Provider) (registry : Registry) (file text : String) : List LogLine :=
  let outcome := provider text file
  ofParse file outcome ++
    match outcome with
    | .ok tree => ofTree registry file tree
    | .error _ => []

/-- What is said while files are analysed, up to one that cannot be read. -/
def ofAnalysis (around : Surroundings) (provider : Provider) (registry : Registry) :
    List Path → List LogLine
  | [] => []
  | file :: files =>
    match around.read? file with
    | none => []
    | some text =>
      ofText provider registry file.text text ++ ofAnalysis around provider registry files

/-- What is said during a check. -/
def ofCheck (around : Surroundings) (provider : Provider) (path : Path) (options : CheckOptions)
    (explicit : Option Path) : List LogLine :=
  let source := around.source path explicit
  ofSource source ++
    match around.settings source with
    | .error _ => []
    | .ok config =>
      ofRegistry options config ++
        match Surroundings.registry options config, around.files path options.exclude with
        | .ok registry, .ok files =>
          ofFiles registry files :: ofAnalysis around provider registry files
        | _, _ => []

end Log

end SourceAudit
