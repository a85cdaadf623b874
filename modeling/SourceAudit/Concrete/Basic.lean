/-!
# The concrete tree of a source

A grammar gives every text a concrete tree: each token and each construct is a node, with the
grammar's word for it, the fields under which its parent knows it, and the stretch of text it
covers. A text that the grammar does not take still has a tree, in which some node says so: it is
an error, or it is missing, which means that the grammar supplied it.

Decided here: the tree, how its nodes are asked for, and how a tree is rebuilt from the flat list
of its rows. Which texts have which trees is the grammar's business; a `Grammar` is any function.
-/

namespace SourceAudit

/-- What the grammar says of one node. -/
structure Tag where
  /-- The grammar's word for the construct or token. -/
  kind : String
  /-- The fields under which the parent knows the node. -/
  fields : List String
  /-- A construct rather than a token. -/
  named : Bool
  /-- A node that may stand anywhere, such as a comment. -/
  extra : Bool
  /-- The grammar does not take this stretch of text. -/
  error : Bool
  /-- The grammar supplied this node. -/
  missing : Bool
  /-- The first byte of the node. -/
  start : Nat
  /-- The first byte behind the node. -/
  stop : Nat
  /-- The line of the first byte, counted from zero. -/
  row : Nat
  /-- The bytes before the node on that line. -/
  column : Nat
  deriving DecidableEq, Repr

/-- A node of the concrete tree. -/
inductive Concrete where
  | mk (tag : Tag) (children : List Concrete)

/-- The concrete tree of each text. -/
abbrev Grammar := String → Concrete

namespace Concrete

/-- What the grammar says of a node. -/
def tag : Concrete → Tag
  | mk tag _ => tag

/-- The nodes inside a node, tokens as well, in source order. -/
def children : Concrete → List Concrete
  | mk _ children => children

/-- The grammar's word for a node. -/
def kind (node : Concrete) : String := node.tag.kind

/-- The line of a node, counted from one. -/
def line (node : Concrete) : Nat := node.tag.row + 1

/-- Whether a node takes part in the construct around it: it is named, and does not stand there by
accident. -/
def isPart (node : Concrete) : Bool := node.tag.named && !node.tag.extra

/-- The named nodes inside a node. -/
def named (node : Concrete) : List Concrete := node.children.filter (·.tag.named)

/-- The parts of a node. -/
def parts (node : Concrete) : List Concrete := node.children.filter isPart

/-- Whether the parent knows a node as its `field`. -/
def hasField (field : String) (node : Concrete) : Bool := node.tag.fields.contains field

/-- The node inside that is known as `field`. -/
def field? (field : String) (node : Concrete) : Option Concrete :=
  node.children.find? (hasField field)

/-- Whether the grammar did not take a node or had to supply it. -/
def isBad (node : Concrete) : Bool := node.tag.error || node.tag.missing

/-- The tree of a text with nothing in it. -/
def empty : Concrete := .mk ⟨"module", [], true, false, false, false, 0, 0, 0, 0⟩ []

end Concrete

/-- One row of a flattened tree: what the grammar says of a node, and how deep it stands. -/
structure Row where
  depth : Nat
  tag : Tag
  deriving DecidableEq, Repr

/-- Puts a row before a list of trees, each with its depth: the trees that stand deeper, up to the
first that does not, are inside the new node. -/
def Row.graft (row : Row) (forest : List (Nat × Concrete)) : List (Nat × Concrete) :=
  let inside := forest.takeWhile fun tree => row.depth < tree.1
  (row.depth, .mk row.tag (inside.map (·.2))) :: forest.drop inside.length

/-- The tree whose nodes in document order are `rows`. -/
def Concrete.ofRows? (rows : List Row) : Option Concrete :=
  match rows.foldr Row.graft [] with
  | [(0, tree)] => some tree
  | _ => none

end SourceAudit
