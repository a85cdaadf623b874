import SourceAudit.CommandLine.Arguments
import SourceAudit.CommandLine.Log
import SourceAudit.Tree.Json

/-!
# Running the program

A run has an exit status, an output, a log and possibly an error, and leaves a disk behind. Status 0
is success and 1 is failure; 2 says that the arguments are wrong, or that a check found files that
do not parse. What a check finds has no influence on the status.

A run that fails shows nothing and changes nothing. At most one file is ever written: the report
that `check` is to save, or the settings document that `init` starts.
-/

namespace SourceAudit

/-- What a run leads to. -/
structure Outcome where
  status : Nat
  output : String
  error : Option String
  log : List LogLine
  /-- The disk after the run. -/
  disk : Disk

/-- The settings document that `init` writes. -/
def initialSettings : String :=
  "# pyaudit configuration\n"
    ++ "\n# Checker preset: \"recommended\" (default activation) or \"all\"\n"
    ++ "preset = \"recommended\"\n"
    ++ "\n# Per-checker activation, keyed by name or code.\n"
    ++ "# Unset keeps the preset's choice.\n"
    ++ "\n[checkers.no-output-in-try-body]\n"
    ++ "enabled = true\n"
    ++ "\n# Module-level constants that are not uppercase (off by default)\n"
    ++ "# [checkers.uppercase-constants]\n"
    ++ "# enabled = true\n"

/-- The path that `init` writes to. -/
def initialPath : Path := ⟨"./pyaudit.toml"⟩

/-- What `--version` shows. -/
def versionText : String := "pyaudit 0.1.0\n"

/-- What `--help` shows. -/
def helpText : String :=
  "Usage: pyaudit [OPTIONS] <COMMAND>\n"
    ++ "\nCommands:\n"
    ++ "  check          Analyse a Python file or directory\n"
    ++ "  list-checkers  List available checkers\n"
    ++ "  init           Initialize configuration file\n"
    ++ "  dump           Print the lowered syntax tree of a file as JSON\n"
    ++ "  help           Print this message or the help of the given subcommand(s)\n"
    ++ "\nOptions:\n"
    ++ "  -v, --verbose          Enable verbose output\n"
    ++ "  -c, --config <CONFIG>  Path to configuration file\n"
    ++ "  -h, --help             Print help\n"
    ++ "  -V, --version          Print version\n"

/-- The line of one checker in the list of checkers. -/
def listingLine (entry : Entry) : String :=
  Text.padRight 8 entry.checker.code ++ " " ++ Text.padRight 24 entry.checker.name ++ " "
    ++ Text.padRight 9 (if entry.active then "on" else "off") ++ " " ++ entry.checker.description
    ++ "\n"

/-- The list of checkers. -/
def listing : String :=
  "Available checkers:\n\n"
    ++ Text.padRight 8 "Code" ++ " " ++ Text.padRight 24 "Name" ++ " " ++ Text.padRight 9 "Default"
    ++ " Description\n"
    ++ String.ofList (List.replicate 80 '-') ++ "\n"
    ++ String.join (Preset.recommended.registry.entries.map listingLine)
    ++ "\nPresets:\n"
    ++ "  recommended  - every checker with its default activation (default)\n"
    ++ "  all          - every checker active\n"
    ++ "\nUse --checkers to run specific checkers, e.g.:\n"
    ++ "  pyaudit check --checkers no-output-in-try-body,uppercase-constants\n"
    ++ "  pyaudit check --checkers PA001,PA002\n"

namespace Surroundings

/-! ## Outcomes -/

/-- A run that ends well. -/
def succeed (around : Surroundings) (output : String) (log : List LogLine) : Outcome :=
  ⟨0, output, none, log, around.disk⟩

/-- A run that fails. -/
def fail (around : Surroundings) (error : String) (log : List LogLine) : Outcome :=
  ⟨1, "", some error, log, around.disk⟩

/-- The status of a check that leads to a report. -/
def statusOf (report : Report) : Nat := if report.errors.isEmpty then 0 else 2

/-! ## Commands -/

/-- Shows a report, or saves it. -/
def emit (around : Surroundings) (options : CheckOptions) (log : List LogLine) (report : Report) :
    Outcome :=
  let text := report.render options.format
  match options.save with
  | none => ⟨statusOf report, text, none, log, around.disk⟩
  | some path =>
    match around.disk.write? around.here path text with
    | none => around.fail ("Failed to write report to " ++ path.text) log
    | some disk =>
      ⟨statusOf report, "Report saved to " ++ path.text ++ "\n", none, log, disk⟩

/-- Analyses a file or a folder. -/
def runCheck (around : Surroundings) (provider : Provider) (path : Path) (options : CheckOptions)
    (explicit : Option Path) : Outcome :=
  let log := Log.ofCheck around provider path options explicit
  match around.check provider path options explicit with
  | .error failure => around.fail failure.message log
  | .ok report => around.emit options log report

/-- Lists the checkers. -/
def runList (around : Surroundings) : Outcome :=
  around.succeed listing (Log.ofPreset .recommended)

/-- Writes a settings document, but only over another one if that is asked for. -/
def runInit (around : Surroundings) (force : Bool) : Outcome :=
  if (around.disk.locate? around.here initialPath).isSome && !force then
    around.fail ("Configuration file already exists at " ++ initialPath.text
      ++ ". Use --force to overwrite.") []
  else
    match around.disk.write? around.here initialPath initialSettings with
    | none => around.fail ("Failed to write " ++ initialPath.text) []
    | some disk =>
      { around.succeed ("Created " ++ initialPath.text ++ "\n\nNext steps:\n"
          ++ "  1. Edit pyaudit.toml to choose checkers\n"
          ++ "  2. Run: pyaudit check\n") [] with disk := disk }

/-- Shows the tree of a file. -/
def runDump (around : Surroundings) (provider : Provider) (file : Path) : Outcome :=
  match around.read? file with
  | none => around.fail ("Failed to read " ++ file.text) []
  | some text =>
    let outcome := provider text file.text
    let log := Log.ofParse file.text outcome
    match outcome with
    | .ok tree => around.succeed (tree.toJson.toPrettyText ++ "\n") log
    | .error error => around.fail error.display log

/-- Does what a command asks for. -/
def perform (around : Surroundings) (provider : Provider) (invocation : Invocation) : Outcome :=
  match invocation.command with
  | .check path options => around.runCheck provider path options invocation.config
  | .listCheckers => around.runList
  | .init force => around.runInit force
  | .dump file => around.runDump provider file

/-- Runs the program. -/
def run (around : Surroundings) (provider : Provider) (arguments : List String) : Outcome :=
  match Invocation.ofArguments arguments with
  | .error .usage => ⟨2, "", none, [], around.disk⟩
  | .error .help => around.succeed helpText []
  | .error .version => around.succeed versionText []
  | .ok invocation =>
    let outcome := around.perform provider invocation
    { outcome with log := (outcome.log.filter (·.isShown invocation.verbose)).map LogLine.tamed }

end Surroundings

end SourceAudit
