import SourceAudit.Proofs.Tree.Place
import SourceAudit.Tree.Visit

/-!
# The way of a walk

The recursion of a walk is opened here, and nowhere else. At a construct the hook is called with the
descent, and the descent goes through the constructs directly inside, one after the other
(`Node.walk_eq`, `Node.run_descent`, `Handler.walk_eq`). So what a visitor does in a whole tree
follows by `Construct.inside_induction` from what its hooks do.

Most visitors only ask for nodes. Where the hook of handlers is the default, a descent goes through
the branches of a node (`Node.run_descent_branches`), and `Node.branch_induction` is enough.

Many visitors only collect: their state is a list, and they add to its end. `Collects` says what a
step adds, so that walks are compared with lists and the state is out of the way.
-/

namespace SourceAudit

variable {σ : Type} {visitor : Visitor σ}

namespace Construct

/-- Walks a construct. -/
def walk (visitor : Visitor σ) : Construct → σ → σ
  | node inner => inner.walk visitor
  | handler inner => inner.walk visitor

/-- Walks constructs one after the other. -/
def walkAll (visitor : Visitor σ) (constructs : List Construct) (state : σ) : σ :=
  constructs.foldl (fun state construct => construct.walk visitor state) state

/-- To walk through constructs and then through others is to walk through all of them. -/
theorem walkAll_append (first second : List Construct) :
    walkAll visitor (first ++ second) = fun state =>
      walkAll visitor second (walkAll visitor first state) := by
  funext state
  exact List.foldl_append

end Construct

open Construct (walkAll walkAll_append)

/-- The nodes of a list are walked as constructs. -/
theorem walkNodes_eq (nodes : List Node) :
    walkNodes visitor nodes = walkAll visitor (nodes.map .node) := by
  funext state
  induction nodes generalizing state with
  | nil => rfl
  | cons node nodes ih => exact ih _

/-- The handlers of a list are walked as constructs. -/
theorem walkHandlers_eq (handlers : List Handler) :
    walkHandlers visitor handlers = walkAll visitor (handlers.map .handler) := by
  funext state
  induction handlers generalizing state with
  | nil => rfl
  | cons handler handlers ih => exact ih _

/-! ## One construct -/

/-- The descent into a node: into the clauses of a protected block, and into what is inside any
other node. -/
def Node.descent (visitor : Visitor σ) : Node → Descent σ
  | .tryBlock _ body handlers orelse finalbody =>
    .clauses (walkAll visitor (body.map .node)) (walkAll visitor (handlers.map .handler))
      (walkAll visitor (orelse.map .node)) (walkAll visitor (finalbody.map .node))
  | node => .whole (walkAll visitor (Construct.node node).inside)

/-- At a node, both its hooks are called, the second inside the first and with the descent. -/
theorem Node.walk_eq (node : Node) :
    node.walk visitor =
      visitor.node node (visitor.construct node (node.descent visitor)) := by
  cases node with
  | tryBlock | definition | tuple | other =>
    simp only [Node.walk, Node.descent, walkNodes_eq, walkHandlers_eq, Construct.inside,
      walkAll_append]
  | assign | call =>
    simp only [Node.walk, Node.descent, walkNodes_eq, Construct.inside, walkAll_append]
    rfl
  | access | name | literal =>
    rw [Node.walk]
    rfl

/-- The descent goes through what is inside a node, in source order. -/
theorem Node.run_descent (node : Node) :
    (node.descent visitor).run = walkAll visitor (Construct.node node).inside := by
  cases node with
  | tryBlock =>
    funext state
    simp only [Node.descent, Descent.run, Construct.inside, walkAll_append]
  | _ => rfl

/-- At a handler, its hook is called with the way through what is inside. -/
theorem Handler.walk_eq (handler : Handler) :
    handler.walk visitor =
      visitor.handler handler (walkAll visitor (Construct.handler handler).inside) := by
  obtain ⟨line, typeExpr, name, body⟩ := handler
  rw [Handler.walk]
  congr 1
  funext state
  rw [walkNodes_eq, Construct.inside, walkAll_append]
  cases typeExpr with
  | none => rfl
  | some type => rfl

/-! ## Visitors without a hook for handlers -/

/-- A visitor goes through handlers as if they were not there. -/
def Visitor.PassesHandlers (visitor : Visitor σ) : Prop :=
  visitor.handler = fun _ descend => descend

/-- Constructs are walked like the nodes that they lead to. -/
theorem Visitor.PassesHandlers.walkAll_eq (passes : visitor.PassesHandlers)
    (constructs : List Construct) :
    walkAll visitor constructs =
      walkAll visitor ((constructs.flatMap Construct.leads).map .node) := by
  funext state
  induction constructs generalizing state with
  | nil => rfl
  | cons construct constructs ih =>
    have here : construct.walk visitor state =
        walkAll visitor (construct.leads.map .node) state := by
      cases construct with
      | node inner => rfl
      | handler inner =>
        rw [← Construct.inside_handler, Construct.walk, Handler.walk_eq, passes]
    rw [List.flatMap_cons, List.map_append, walkAll_append]
    dsimp only
    rw [← ih, ← here]
    rfl

/-- A visitor that passes through handlers walks through what stands in them, as if it stood in the
protected block. -/
theorem Visitor.PassesHandlers.walkAll_handlers (passes : visitor.PassesHandlers)
    (handlers : List Handler) :
    walkAll visitor (handlers.map .handler) =
      walkAll visitor ((handlers.flatMap Handler.branches).map fun branch => .node branch.2) := by
  rw [passes.walkAll_eq, List.flatMap_map, List.map_flatMap, List.map_flatMap]
  simp only [Construct.leads, List.map_map]
  rfl

/-- A visitor that passes through handlers descends from a node to its branches, and to nothing
else. -/
theorem Node.run_descent_branches (passes : visitor.PassesHandlers) (node : Node) :
    (node.descent visitor).run =
      walkAll visitor (node.branches.map fun branch => .node branch.2) := by
  rw [Node.run_descent, passes.walkAll_eq, Construct.flatMap_leads_inside, List.map_map]
  rfl

/-! ## Visitors that collect -/

/-- A step adds `found` to the end of a list. -/
def Collects {α : Type} (step : List α → List α) (found : List α) : Prop :=
  ∀ list, step list = list ++ found

/-- What a visitor collects in constructs is what it collects in each, one after the other. -/
theorem Collects.walkAll_map {α β : Type} {visitor : Visitor (List α)} {items : List β}
    {construct : β → Construct} {found : β → List α}
    (each : ∀ item ∈ items, Collects ((construct item).walk visitor) (found item)) :
    Collects (walkAll visitor (items.map construct)) (items.flatMap found) := by
  induction items with
  | nil => exact fun list => (List.append_nil list).symm
  | cons item items ih =>
    rw [List.forall_mem_cons] at each
    intro list
    show walkAll visitor (items.map construct) ((construct item).walk visitor list) = _
    rw [each.1, ih each.2, List.flatMap_cons, List.append_assoc]

/-- A walk through constructs collects what the walks of each of them do, one after the other. -/
theorem Collects.walkAll {α : Type} {visitor : Visitor (List α)} {found : Construct → List α}
    {constructs : List Construct}
    (each : ∀ construct ∈ constructs, Collects (construct.walk visitor) (found construct)) :
    Collects (Construct.walkAll visitor constructs) (constructs.flatMap found) := by
  have mapped := Collects.walkAll_map each
  rwa [List.map_id'] at mapped

theorem Collects.walkNodes {α : Type} {visitor : Visitor (List α)} {found : Node → List α}
    {nodes : List Node} (each : ∀ node ∈ nodes, Collects (node.walk visitor) (found node)) :
    Collects (SourceAudit.walkNodes visitor nodes) (nodes.flatMap found) := by
  rw [walkNodes_eq]
  exact .walkAll_map each

end SourceAudit
