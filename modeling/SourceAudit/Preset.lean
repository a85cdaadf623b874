import SourceAudit.Checker.ConstantCase
import SourceAudit.Checker.TryOutput
import SourceAudit.Registry

/-!
# Presets

A preset names a starting activation of the built-in checkers. The effective preset is the one
asked for, or else the one in the settings, or else `recommended`; the settings for single checkers
come on top of it.
-/

namespace SourceAudit

/-- The built-in checkers, in the order of registration. -/
def builtinCheckers : List Checker := [.tryOutput, .constantCase]

/-- A starting activation. -/
inductive Preset where
  /-- Every checker as it is by default. -/
  | recommended
  /-- Every checker active. -/
  | all
  deriving DecidableEq, Repr

/-- A preset that does not exist. -/
structure PresetError where
  name : String
  deriving DecidableEq, Repr

/-- The wording of the error. -/
def PresetError.message (error : PresetError) : String :=
  "Unknown preset: " ++ error.name ++ " (expected `recommended` or `all`)"

namespace Preset

/-- The preset of a name. -/
def ofName? (name : String) : Option Preset :=
  if name = "recommended" then some .recommended
  else if name = "all" then some .all
  else none

/-- The name of a preset. -/
def name : Preset → String
  | .recommended => "recommended"
  | .all => "all"

/-- The built-in checkers with the activation of a preset. -/
def registry (preset : Preset) : Registry :=
  let registry := builtinCheckers.foldl Registry.register {}
  match preset with
  | .recommended => registry
  | .all => registry.activateAll

end Preset

/-- The name of the preset that is in effect. -/
def effectivePreset (preset : Option String) (config : Config) : String :=
  (preset <|> config.preset).getD Preset.recommended.name

/-- The registry for a run: the effective preset with the settings on top. -/
def configuredRegistry (preset : Option String) (config : Config) :
    Except PresetError Registry :=
  let name := effectivePreset preset config
  match Preset.ofName? name with
  | some preset => .ok (preset.registry.applyConfig config)
  | none => .error ⟨name⟩

end SourceAudit
