/-!
# Settings

What a user can set: the preset to start from, and for each checker, by name or code, whether it
runs. A checker that is named without saying so keeps what the preset says.

Decided here: what settings are and why they cannot be read. `Config.Reader` reads them.
-/

namespace SourceAudit

/-- The settings of a run. -/
structure Config where
  /-- The preset to start from. -/
  preset : Option String := none
  /-- The checkers that are named, in the order of the document, each with its activation. -/
  checkers : List (String × Option Bool) := []
  deriving DecidableEq, Repr

namespace Config

/-- What is said of the checker named exactly `name`. -/
def enabled? (config : Config) (name : String) : Option Bool :=
  (config.checkers.lookup name).join

end Config

/-- Why settings cannot be read. -/
inductive ConfigError where
  /-- The document is not TOML, or not of the right shape. -/
  | malformed
  /-- The file cannot be read. -/
  | unreadable (path : String)
  deriving DecidableEq, Repr

/-- The wording of an error; a file that cannot be read counts as one that is not there. -/
def ConfigError.message : ConfigError → String
  | .malformed => "Failed to parse config"
  | .unreadable path =>
    "Failed to read config file " ++ path ++ ": No such file or directory (os error 2)"

end SourceAudit
