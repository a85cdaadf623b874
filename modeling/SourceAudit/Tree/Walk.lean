import SourceAudit.Tree.Visit

/-!
# Walking a tree

The recorder is the visitor that announces whatever it meets, each construct at its **hook**: a
node is announced twice, first as a node and then as what it is, a handler once. The events of a
walk are these announcements in order.

A walk can be pruned: at a hook that is pruned the construct is announced and not entered.
Pruning the hook `node` stops a node before it is announced as what it is.

Decided here: `Tree.events`, and `Tree.names`, the identifiers met by a visitor that asks for names
alone.
-/

namespace SourceAudit

/-- The places at which a walk announces what it meets. -/
inductive Hook where
  | module
  | node
  | tryBlock
  | handler
  | definition
  | assign
  | call
  | access
  | name
  | literal
  | tuple
  | other
  deriving DecidableEq, Repr

/-- What is said of a construct when it is announced. -/
inductive Detail where
  | nothing
  | count (n : Nat)
  | text (s : String)
  | definition (kind : DefinitionKind) (name : String)
  | literal (kind : LiteralKind) (text : String)
  deriving DecidableEq, Repr

/-- A text that may be missing, as a detail. -/
def Detail.ofText? : Option String → Detail
  | none => .nothing
  | some s => .text s

/-- One announcement. -/
structure Event where
  /-- The place of the announcement. -/
  hook : Hook
  /-- The line of what is announced. -/
  line : Line
  /-- What is said of it. -/
  detail : Detail
  deriving DecidableEq, Repr

namespace Node

/-- The hook of a node as what it is. -/
def hook : Node → Hook
  | tryBlock .. => .tryBlock
  | definition .. => .definition
  | assign .. => .assign
  | call .. => .call
  | access .. => .access
  | name .. => .name
  | literal .. => .literal
  | tuple .. => .tuple
  | other .. => .other

/-- What is said of a node as what it is. -/
def detail : Node → Detail
  | tryBlock .. => .nothing
  | definition _ kind defined .. => .definition kind defined
  | assign _ targets _ => .count targets.length
  | call _ _ args => .count args.length
  | access _ _ attr => .text attr
  | name _ id => .text id
  | literal _ kind text => .literal kind text
  | tuple .. => .nothing
  | other _ kind _ => .text kind

end Node

/-- Announces an event, and goes on unless the walk is pruned there. -/
def announce (prune : Hook → Bool) (event : Event) (descend : List Event → List Event)
    (events : List Event) : List Event :=
  if prune event.hook then events ++ [event] else descend (events ++ [event])

/-- Records what it meets. -/
def recorder (prune : Hook → Bool) : Visitor (List Event) where
  module tree := announce prune ⟨.module, none, .count tree.body.length⟩
  node node := announce prune ⟨.node, node.line, .ofText? node.identifier?⟩
  construct node descent := announce prune ⟨node.hook, node.line, node.detail⟩ descent.run
  handler
    | .mk line _ name _ => announce prune ⟨.handler, line, .ofText? name⟩

/-- The events of a whole tree. -/
def Tree.events (prune : Hook → Bool) (tree : Tree) : List Event := tree.walk (recorder prune) []

/-- Collects the identifiers that it meets, and nothing else. -/
def nameCollector : Visitor (List String) where
  construct
    | .name _ id, _ => fun names => names ++ [id]
    | _, descent => descent.run

/-- The identifiers in a tree, in source order. -/
def Tree.names (tree : Tree) : List String := tree.walk nameCollector []

end SourceAudit
