/-!
# The syntax tree that checkers read

A closed sum over the constructs a checker asks about: the protected block and its clauses,
definitions, plain assignments, calls, attribute access, names, literals and tuples. Every other
construct is `Node.other`, which keeps the grammar's word for it and the nodes inside it, so a
walk over all nodes still reaches each nested call and assignment.

A node's line is counted from one and may be unknown. The handlers of a protected block are not
nodes of their own: they stand only inside it.

Decided here: the shape of a tree and the order in which a node holds its parts, which is the
order of the source text and the order of every walk in this library.
-/

namespace SourceAudit

/-- The line a construct starts on, if it is known. -/
abbrev Line := Option Nat

/-- What a definition defines. -/
inductive DefinitionKind where
  | functionDef
  | classDef
  deriving DecidableEq, Repr

/-- What a literal is. -/
inductive LiteralKind where
  | int
  | float
  | str
  | bool
  | nothing
  | ellipsis
  deriving DecidableEq, Repr

mutual

/-- A node of the syntax tree. -/
inductive Node where
  /-- A protected block: its body, its handlers, what runs when nothing was raised, and what runs
  at the end in any case. -/
  | tryBlock (line : Line) (body : List Node) (handlers : List Handler)
      (orelse finalbody : List Node)
  /-- A function or class. The header holds the parameters, the bases and the annotations. -/
  | definition (line : Line) (kind : DefinitionKind) (name : String) (header body : List Node)
  /-- A plain assignment; a chain has one target for each name it sets. -/
  | assign (line : Line) (targets : List Node) (value : Node)
  /-- A call of `func`. -/
  | call (line : Line) (func : Node) (args : List Node)
  /-- The attribute `attr` of a value. -/
  | access (line : Line) (value : Node) (attr : String)
  /-- A bare identifier. -/
  | name (line : Line) (id : String)
  /-- A literal, kept as it is written. -/
  | literal (line : Line) (kind : LiteralKind) (text : String)
  /-- A tuple or a bare list of expressions. -/
  | tuple (line : Line) (elts : List Node)
  /-- Any other construct, under the grammar's word for it. -/
  | other (line : Line) (kind : String) (children : List Node)

/-- One clause that handles what a protected block raised: the type it takes, the name it binds,
and what it does. -/
inductive Handler where
  | mk (line : Line) (typeExpr : Option Node) (name : Option String) (body : List Node)

end

/-- The parsed form of one source: its statements under the name of the source. -/
structure Tree where
  /-- The name of the source, usually a path. -/
  sourceName : String
  /-- The top-level statements, in source order. -/
  body : List Node

namespace Node

/-- The line of a node. -/
def line : Node → Line
  | tryBlock line .. | definition line .. | assign line .. | call line .. | access line ..
  | name line .. | literal line .. | tuple line .. | other line .. => line

/-- The identifier of a bare name. -/
def identifier? : Node → Option String
  | name _ id => some id
  | _ => none

end Node

end SourceAudit
