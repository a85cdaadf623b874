import SourceAudit.Issue
import SourceAudit.Tree.Basic

/-!
# Checkers

A checker is a pattern under a name and a code. All it can do is to find: its findings on a tree
depend on nothing but the tree.

A key addresses a checker by its name, letter for letter, or by its code, where capital and small
letters of the Latin alphabet count as the same.
-/

namespace SourceAudit

/-- A pattern that is looked for in a tree. -/
structure Checker where
  /-- The name, in words joined by hyphens. -/
  name : String
  /-- The code, a short sign for the name. -/
  code : String
  /-- What the checker looks for, in one line. -/
  description : String := ""
  /-- Whether the checker runs unless someone says otherwise. -/
  enabledByDefault : Bool := true
  /-- What it finds, in the order of discovery. -/
  findings : Tree → List Finding

/-- A text with the capital letters of the Latin alphabet made small. -/
def foldCase (s : String) : List Char := s.toList.map Char.toLower

namespace Checker

/-- Whether `key` addresses the checker. -/
def answersTo (checker : Checker) (key : String) : Bool :=
  checker.name == key || foldCase checker.code == foldCase key

/-- Reports what the checker finds, under its code and name. -/
def run (checker : Checker) (tree : Tree) (sink : Sink) : Sink :=
  (checker.findings tree).foldl Sink.report (sink.credit checker.code checker.name)

end Checker

end SourceAudit
