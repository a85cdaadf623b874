import SourceAudit.Checker.Basic
import SourceAudit.Scope
import SourceAudit.Tree.Visit

/-!
# Output in protected bodies

Printing or logging on the way through a protected body usually means that the report of an error
stands before the failure it describes. This checker finds the calls of `print` and of anything on
`logging` whose **innermost** protected block holds them in its body.

The walk has a slot for one bit: whether the innermost protected block, if there is one, holds the
place in its body. A body is a scope in which it is set, the handlers and the two final clauses are
one in which it is not, and no other construct changes it. A call is found before what is inside it.
-/

namespace SourceAudit

/-- How a call gives output. -/
inductive OutputKind where
  | print
  | logging
  deriving DecidableEq, Repr

namespace OutputKind

/-- How a call of this callee gives output. -/
def ofCallee? : Node → Option OutputKind
  | .name _ id => if id = "print" then some .print else none
  | .access _ value _ => if value.identifier? = some "logging" then some .logging else none
  | _ => none

/-- The word for it in an explanation. -/
def word : OutputKind → String
  | .print => "Print"
  | .logging => "Logging"

/-- Why such a call is found. -/
def explanation (kind : OutputKind) : String :=
  kind.word ++ " statement found in try block. Consider using proper error logging in except or " ++
    "finally block instead.\nIgnore, if it serves a needed purpose."

end OutputKind

namespace TryOutput

/-- What the walk knows at a place, and what it has found. -/
structure State where
  /-- Whether the innermost protected block around the place holds it in its body. -/
  inBody : Bool := false
  findings : List Finding := []

/-- The slot for what is known at a place. -/
def place : Scope.Slot State Bool := ⟨State.inBody, fun inBody state => { state with inBody }⟩

/-- Looks at a call. -/
def State.meet (state : State) (line : Line) (func : Node) : State :=
  if state.inBody then
    match OutputKind.ofCallee? func with
    | some kind => { state with findings := state.findings ++ [⟨line.getD 0, kind.explanation⟩] }
    | none => state
  else state

/-- Looks for output. -/
def visitor : Visitor State where
  construct
    | .tryBlock .., .clauses body handlers orelse finalbody => fun state =>
      place.within false (fun state => finalbody (orelse (handlers state)))
        (place.within true body state)
    | .call line func _, descent => fun state => descent.run (state.meet line func)
    | _, descent => descent.run

end TryOutput

/-- Finds output in protected bodies. -/
def Checker.tryOutput : Checker where
  name := "no-output-in-try-body"
  code := "PA001"
  description := "Flags print/logging calls in try bodies instead of except/finally"
  findings tree := (tree.walk TryOutput.visitor {}).findings

end SourceAudit
