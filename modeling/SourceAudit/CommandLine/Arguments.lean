import SourceAudit.CommandLine.Check

/-!
# Arguments

The arguments of the program are a verb and what belongs to it. Switches can stand before the verb
and behind it, operands only behind. Two switches are known everywhere: `--verbose`, and `--config`,
where what is said behind the verb counts for more.

A switch has a long name, written `--name`, and may have a letter, written `-n`. Letters can be
written together. A switch that takes a value takes it from the same argument, behind the letter or
an equals sign, or else from the next argument, which then must not look like a switch. Only `-e`
can be given more than once in one place. Behind `--` everything is an operand.

Arguments are read from left to right, and the first thing that is wrong, or that asks for help or
for the version, ends the reading.
-/

namespace SourceAudit

/-- What the program is asked to do. -/
inductive Command where
  /-- Analyse a file or a folder. -/
  | check (path : Path) (options : CheckOptions)
  /-- List the checkers. -/
  | listCheckers
  /-- Write a settings document. -/
  | init (force : Bool)
  /-- Show the tree of a file. -/
  | dump (file : Path)
  deriving DecidableEq, Repr

/-- A run of the program. -/
structure Invocation where
  /-- Whether details are logged. -/
  verbose : Bool
  /-- The settings that are asked for. -/
  config : Option Path
  command : Command
  deriving DecidableEq, Repr

/-- Why arguments do not lead to a run. -/
inductive Refusal where
  /-- They are wrong. -/
  | usage
  /-- They ask for help. -/
  | help
  /-- They ask for the version. -/
  | version
  deriving DecidableEq, Repr

namespace Arguments

/-- A first operand. -/
inductive Verb where
  | check
  | listCheckers
  | init
  | dump
  | help
  deriving DecidableEq, Repr

/-- A switch without a value. -/
inductive Flag where
  | verbose
  | help
  | version
  | force
  deriving DecidableEq, Repr

/-- A switch with a value. -/
inductive Setting where
  | config
  | format
  | save
  | checkers
  | preset
  | exclude
  deriving DecidableEq, Repr

/-- What a switch is. -/
inductive Meaning where
  | flag (flag : Flag)
  | setting (setting : Setting)
  deriving DecidableEq, Repr

/-- A switch as it is written. -/
structure Switch where
  name : String
  letter : Option Char
  meaning : Meaning
  deriving DecidableEq, Repr

/-- The verb of a name. -/
def Verb.ofName? (name : String) : Option Verb :=
  if name = "check" then some .check
  else if name = "list-checkers" then some .listCheckers
  else if name = "init" then some .init
  else if name = "dump" then some .dump
  else if name = "help" then some .help
  else none

/-- The switches that are known everywhere. -/
def commonSwitches : List Switch :=
  [⟨"verbose", some 'v', .flag .verbose⟩, ⟨"config", some 'c', .setting .config⟩,
    ⟨"help", some 'h', .flag .help⟩]

/-- The switches that are known behind a verb, or before it. -/
def switches : Option Verb → List Switch
  | none => ⟨"version", some 'V', .flag .version⟩ :: commonSwitches
  | some .check =>
    [⟨"format", some 'f', .setting .format⟩, ⟨"save", some 's', .setting .save⟩,
      ⟨"checkers", none, .setting .checkers⟩, ⟨"preset", none, .setting .preset⟩,
      ⟨"exclude", some 'e', .setting .exclude⟩] ++ commonSwitches
  | some .init => ⟨"force", none, .flag .force⟩ :: commonSwitches
  | some _ => commonSwitches

/-- The number of operands that a verb can have. -/
def operandLimit : Option Verb → Nat
  | some .check => 1
  | some .dump => 1
  | _ => 0

/-! ## What is given -/

/-- What is given behind a verb, or before it. -/
structure Given where
  flags : List Flag := []
  settings : List (Setting × String) := []
  operands : List String := []
  deriving DecidableEq, Repr

namespace Given

/-- Adds a flag. -/
def addFlag (given : Given) : Flag → Except Refusal Given
  | .help => .error .help
  | .version => .error .version
  | flag =>
    if given.flags.contains flag then .error .usage
    else .ok { given with flags := flag :: given.flags }

/-- Whether a value can be the value of a setting: paths are not empty, and formats have names. -/
def accepts : Setting → String → Bool
  | .config, value => !value.isEmpty
  | .save, value => !value.isEmpty
  | .format, value => (Report.Format.ofName? value).isSome
  | _, _ => true

/-- Adds a setting. -/
def addSetting (given : Given) (setting : Setting) (value : String) : Except Refusal Given :=
  let repeated := setting != .exclude && given.settings.any (·.1 = setting)
  if repeated || !accepts setting value then .error .usage
  else .ok { given with settings := given.settings ++ [(setting, value)] }

/-- Adds an operand, which is a path. -/
def addOperand (limit : Nat) (given : Given) (operand : String) : Except Refusal Given :=
  if operand.isEmpty || limit ≤ given.operands.length then .error .usage
  else .ok { given with operands := given.operands ++ [operand] }

/-- Whether a flag is given. -/
def has (given : Given) (flag : Flag) : Bool := given.flags.contains flag

/-- The value of a setting. -/
def value? (given : Given) (setting : Setting) : Option String := given.settings.lookup setting

/-- The values of a setting, in order. -/
def values (given : Given) (setting : Setting) : List String :=
  (given.settings.filter (·.1 = setting)).map (·.2)

end Given

/-! ## Reading switches -/

/-- Whether an argument looks like a switch. -/
def looksLikeSwitch (argument : String) : Bool :=
  match argument.toList with
  | '-' :: _ :: _ => true
  | _ => false

/-- Adds what a switch means; the setting is one that still waits for its value. -/
def addSwitch (given : Given) (value : Option String) : Meaning →
    Except Refusal (Given × Option Setting)
  | .flag flag =>
    match value with
    | none => (given.addFlag flag).map (·, none)
    | some _ => .error .usage
  | .setting setting =>
    match value with
    | none => .ok (given, some setting)
    | some value => (given.addSetting setting value).map (·, none)

/-- Reads a switch by its long name. -/
def readLong (known : List Switch) (given : Given) (text : List Char) :
    Except Refusal (Given × Option Setting) :=
  let name := String.ofList (text.takeWhile (· != '='))
  let value := match text.dropWhile (· != '=') with
    | [] => none
    | _ :: value => some (String.ofList value)
  match known.find? (·.name = name) with
  | some switch => addSwitch given value switch.meaning
  | none => .error .usage

/-- Reads switches by their letters. -/
def readLetters (known : List Switch) (given : Given) : List Char →
    Except Refusal (Given × Option Setting)
  | [] => .ok (given, none)
  | letter :: rest =>
    match (known.find? (·.letter = some letter)).map Switch.meaning with
    | none => .error .usage
    | some (.flag flag) => do readLetters known (← given.addFlag flag) rest
    | some (.setting setting) =>
      match rest with
      | [] => .ok (given, some setting)
      | '=' :: value => (given.addSetting setting (String.ofList value)).map (·, none)
      | value => (given.addSetting setting (String.ofList value)).map (·, none)

/-- Reads an argument that looks like a switch. -/
def readSwitch (known : List Switch) (given : Given) (argument : String) :
    Except Refusal (Given × Option Setting) :=
  match argument.toList with
  | '-' :: '-' :: name => readLong known given name
  | '-' :: letters => readLetters known given letters
  | _ => .error .usage

/-! ## Reading arguments -/

/-- Reads arguments behind a verb, or before it up to the verb, which is returned with the arguments
behind it. -/
def read (verb : Option Verb) (given : Given) : List String →
    Except Refusal (Given × Option (Verb × List String))
  | [] => .ok (given, none)
  | argument :: rest =>
    if argument = "--" then
      (rest.foldlM (Given.addOperand (operandLimit verb)) given).map (·, none)
    else if looksLikeSwitch argument then
      match readSwitch (switches verb) given argument with
      | .error refusal => .error refusal
      | .ok (given, none) => read verb given rest
      | .ok (given, some setting) =>
        match rest with
        | [] => .error .usage
        | value :: rest =>
          if looksLikeSwitch value then .error .usage
          else
            match given.addSetting setting value with
            | .error refusal => .error refusal
            | .ok given => read verb given rest
    else
      match verb with
      | none =>
        match Verb.ofName? argument with
        | some verb => .ok (given, some (verb, rest))
        | none => .error .usage
      | some _ =>
        match given.addOperand (operandLimit verb) argument with
        | .error refusal => .error refusal
        | .ok given => read verb given rest

/-- What a verb asks for, with what is given behind it. -/
def commandOf (given : Given) : Verb → Except Refusal Command
  | .check =>
    .ok (.check ⟨given.operands.headD "."⟩ {
      format := ((given.value? .format).bind Report.Format.ofName?).getD .text
      save := (given.value? .save).map Path.mk
      checkers := given.value? .checkers
      preset := given.value? .preset
      exclude := given.values .exclude })
  | .listCheckers => .ok .listCheckers
  | .init => .ok (.init (given.has .force))
  | .dump =>
    match given.operands with
    | file :: _ => .ok (.dump ⟨file⟩)
    | [] => .error .usage
  | .help => .error .help

/-- What follows the verb `help`: nothing, or a verb. -/
def readHelp : List String → Refusal
  | [] => .help
  | [name] => if (Verb.ofName? name).isSome then .help else .usage
  | _ => .usage

end Arguments

open Arguments in
/-- The run that arguments ask for. -/
def Invocation.ofArguments (arguments : List String) : Except Refusal Invocation := do
  match ← read none {} arguments with
  | (_, none) => throw .usage
  | (_, some (.help, rest)) => throw (readHelp rest)
  | (outer, some (verb, rest)) =>
    let (inner, _) ← read (some verb) {} rest
    let command ← commandOf inner verb
    return {
      verbose := outer.has .verbose || inner.has .verbose
      config := (inner.value? .config <|> outer.value? .config).map Path.mk
      command }

end SourceAudit
