import SourceAudit.Checker.Basic
import SourceAudit.Text.Lowercase
import SourceAudit.Text.Uppercase
import SourceAudit.Tree.Visit

/-!
# Constants that are not in capitals

A literal or a tuple that is assigned to one name outside any function or class looks like the
definition of a constant, unless the name is short or private. This checker finds those whose name
is not in capitals: a name is if some character is uppercase and none is lowercase.

The rule reads the text of an assignment only, and finds variables too that are set again later;
so the checker is off by default.
-/

namespace SourceAudit

/-- Whether assigning `value` to `name` looks like the definition of a constant. -/
def looksConstant (name : String) (value : Node) : Bool :=
  2 < name.length && name.toList.head? != some '_' &&
    match value with
    | .literal .. => true
    | .tuple .. => true
    | _ => false

/-- Whether a name is in capitals. -/
def inCapitals (name : String) : Bool :=
  name.toList.any Text.isUppercase && !name.toList.any Text.isLowercase

/-- Why a constant is found. -/
def constantExplanation (name : String) : String :=
  "Constant variable '" ++ name ++ "' should be in uppercase format."

/-- What is found at an assignment. -/
def assignFindings (line : Line) (targets : List Node) (value : Node) : List Finding :=
  match targets with
  | [.name _ id] =>
    if looksConstant id value && !inCapitals id then [⟨line.getD 0, constantExplanation id⟩] else []
  | _ => []

/-- Looks for constants. Definitions are passed over, and so is the inside of an assignment. -/
def constantVisitor : Visitor (List Finding) where
  construct
    | .definition .., _ => id
    | .assign line targets value, _ => fun findings =>
      findings ++ assignFindings line targets value
    | _, descent => descent.run

/-- Finds constants that are not in capitals. -/
def Checker.constantCase : Checker where
  name := "uppercase-constants"
  code := "PA002"
  description := "Flags module-level constants that are not in uppercase"
  enabledByDefault := false
  findings tree := tree.walk constantVisitor []

end SourceAudit
