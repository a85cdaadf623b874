import SourceAudit.Checker.Basic
import SourceAudit.Config.Basic

/-!
# The registry of checkers

A registry holds the available checkers in the order of registration and says of each whether it
runs. Setting an activation by key changes the first checker that answers to the key and no other;
retaining keys decides over every checker at once.

A run appends to the sink what each active checker finds, in the order of registration, and does
not merge what two checkers find.
-/

namespace SourceAudit

/-- A registered checker and whether it runs. -/
structure Entry where
  checker : Checker
  active : Bool

/-- The available checkers. -/
structure Registry where
  entries : List Entry := []

namespace Entry

/-- Whether `key` addresses the checker of the entry. -/
def answersTo (entry : Entry) (key : String) : Bool := entry.checker.answersTo key

end Entry

/-- Sets the activation of the first entry that answers to `key`, if there is one. -/
def setFirst? (key : String) (active : Bool) : List Entry → Option (List Entry)
  | [] => none
  | entry :: entries =>
    if entry.answersTo key then some ({ entry with active := active } :: entries)
    else (setFirst? key active entries).map (entry :: ·)

namespace Registry

/-- Adds a checker with its default activation. -/
def register (registry : Registry) (checker : Checker) : Registry :=
  ⟨registry.entries ++ [⟨checker, checker.enabledByDefault⟩]⟩

/-- Sets an activation, and says whether a checker answers to the key. -/
def setActive (registry : Registry) (key : String) (active : Bool) : Bool × Registry :=
  match setFirst? key active registry.entries with
  | some entries => (true, ⟨entries⟩)
  | none => (false, registry)

/-- Lets the checker that answers to the key run. -/
def activate (registry : Registry) (key : String) : Bool × Registry := registry.setActive key true

/-- Keeps the checker that answers to the key from running. -/
def deactivate (registry : Registry) (key : String) : Bool × Registry :=
  registry.setActive key false

/-- Lets every checker run. -/
def activateAll (registry : Registry) : Registry :=
  ⟨registry.entries.map fun entry => { entry with active := true }⟩

/-- Lets exactly those checkers run that answer to one of the keys. -/
def retainActive (registry : Registry) (keys : List String) : Registry :=
  ⟨registry.entries.map fun entry => { entry with active := keys.any entry.answersTo }⟩

/-- Whether a checker answers to the key. -/
def isRegistered (registry : Registry) (key : String) : Bool :=
  registry.entries.any (·.answersTo key)

/-- Whether an active checker answers to the key. -/
def isActive (registry : Registry) (key : String) : Bool :=
  registry.entries.any fun entry => entry.active && entry.answersTo key

/-- The keys that no checker answers to. -/
def unknown (registry : Registry) (keys : List String) : List String :=
  keys.filter fun key => !registry.isRegistered key

/-- Applies one setting; one that does not say whether the checker runs changes nothing. -/
def applySetting (registry : Registry) (setting : String × Option Bool) : Registry :=
  match setting.2 with
  | some active => (registry.setActive setting.1 active).2
  | none => registry

/-- Applies settings in order. -/
def applySettings (registry : Registry) (settings : List (String × Option Bool)) : Registry :=
  settings.foldl applySetting registry

/-- Applies what a configuration says of checkers. -/
def applyConfig (registry : Registry) (config : Config) : Registry :=
  registry.applySettings config.checkers

/-- The names in a configuration that ask for an activation and address no checker. -/
def unknownSettings (registry : Registry) (config : Config) : List String :=
  registry.unknown ((config.checkers.filter (·.2.isSome)).map (·.1))

/-- The checkers that run, in the order of registration. -/
def active (registry : Registry) : List Checker :=
  (registry.entries.filter (·.active)).map (·.checker)

/-- The number of checkers that run. -/
def activeCount (registry : Registry) : Nat := registry.active.length

/-- The number of available checkers. -/
def size (registry : Registry) : Nat := registry.entries.length

/-- Runs the active checkers over a tree. -/
def check (registry : Registry) (tree : Tree) (sink : Sink) : Sink :=
  registry.active.foldl (fun sink checker => checker.run tree sink) sink

/-- The registry in a few words. -/
def summary (registry : Registry) : String :=
  "CheckerRegistry \x7b len: " ++ Text.decimal registry.size ++ ", .. \x7d"

end Registry

end SourceAudit
