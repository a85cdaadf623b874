import SourceAudit.Tree.Basic

/-!
# Visitors

Every walk over a tree goes the same way: a construct before what is inside it, and what is inside
in source order. What differs from walk to walk is what is done at each construct. That is a
**visitor**: it has a state, and hooks that are called on the way. A hook is given the construct it
is called for and the **descent** into it. It may run the descent, leave it out, or do something
before, behind and around it; unless a visitor says otherwise, a hook runs the descent and does
nothing else.

A node has two hooks: one for nodes of any kind, and inside it the one for the node as what it is.
Of a protected block the descent can be run clause by clause.
-/

namespace SourceAudit

/-- The way into a node, over states `σ`. -/
inductive Descent (σ : Type) where
  /-- Into all that is inside. -/
  | whole (inside : σ → σ)
  /-- Into the clauses of a protected block, each for itself. -/
  | clauses (body handlers orelse finalbody : σ → σ)

/-- Goes into all that is inside, in source order. -/
def Descent.run : Descent σ → σ → σ
  | .whole inside, state => inside state
  | .clauses body handlers orelse finalbody, state => finalbody (orelse (handlers (body state)))

/-- What a walk does at each construct, over states `σ`. -/
structure Visitor (σ : Type) where
  /-- At the root. -/
  module : Tree → (σ → σ) → σ → σ := fun _ descend => descend
  /-- At a node, whatever it is. -/
  node : Node → (σ → σ) → σ → σ := fun _ descend => descend
  /-- At a node as what it is. -/
  construct : Node → Descent σ → σ → σ := fun _ descent => descent.run
  /-- At a handler. -/
  handler : Handler → (σ → σ) → σ → σ := fun _ descend => descend

mutual

/-- Walks a node. -/
def Node.walk (visitor : Visitor σ) (node : Node) : σ → σ :=
  visitor.node node (visitor.construct node (match node with
    | .tryBlock _ body handlers orelse finalbody =>
      .clauses (walkNodes visitor body) (walkHandlers visitor handlers) (walkNodes visitor orelse)
        (walkNodes visitor finalbody)
    | .definition _ _ _ header body =>
      .whole fun state => walkNodes visitor body (walkNodes visitor header state)
    | .assign _ targets value =>
      .whole fun state => value.walk visitor (walkNodes visitor targets state)
    | .call _ func args => .whole fun state => walkNodes visitor args (func.walk visitor state)
    | .access _ value _ => .whole (value.walk visitor)
    | .name .. => .whole id
    | .literal .. => .whole id
    | .tuple _ elts => .whole (walkNodes visitor elts)
    | .other _ _ children => .whole (walkNodes visitor children)))

def walkNodes (visitor : Visitor σ) : List Node → σ → σ
  | [], state => state
  | node :: nodes, state => walkNodes visitor nodes (node.walk visitor state)

/-- Walks a handler: the type it takes comes before what it does. -/
def Handler.walk (visitor : Visitor σ) (handler : Handler) : σ → σ :=
  visitor.handler handler (match handler with
    | .mk _ typeExpr _ body =>
      fun state => walkNodes visitor body (walkTypeExpr visitor typeExpr state))

def walkHandlers (visitor : Visitor σ) : List Handler → σ → σ
  | [], state => state
  | handler :: handlers, state => walkHandlers visitor handlers (handler.walk visitor state)

def walkTypeExpr (visitor : Visitor σ) : Option Node → σ → σ
  | none, state => state
  | some node, state => node.walk visitor state

end

/-- Walks a tree. -/
def Tree.walk (visitor : Visitor σ) (tree : Tree) : σ → σ :=
  visitor.module tree (walkNodes visitor tree.body)

end SourceAudit
