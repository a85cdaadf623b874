import Mathlib.Data.List.Basic
import SourceAudit.Tree.Basic

/-!
# Sites: the nodes of a tree with the way to each

A **site** is a node together with its path, the constructs that are entered on the way to it. The
path says of each construct in which **role** the next node stands in it, so everything a rule may
ask about the surroundings of a node is read off the path: in which clauses of which protected
blocks it stands (`Site.clauses`), and how deep it lies (`Site.level`).

The order of the source is said once, in `Node.branches`: the nodes directly inside a node, each
with its role. `Node.sites` lists a node before what is inside it and one branch after
the other, which is document order. A handler is not a node and has no site of its own: what it
holds are branches of the protected block around it.

Every fact about all nodes of a tree is proved by `Node.branch_induction`, from the branches of a
node to the node, and by `Node.sites_eq`.
-/

namespace SourceAudit

/-- What a node is to the construct around it. -/
inductive Role where
  | tryBody
  | handlerType
  | handlerBody
  | tryElse
  | tryFinally
  | header
  | definitionBody
  | target
  | value
  | callee
  | argument
  | owner
  | element
  | child
  deriving DecidableEq, Repr

/-- The clauses of a protected block. -/
inductive Clause where
  | body
  | handler
  | orelse
  | finalbody
  deriving DecidableEq, Repr

/-- The clause that a node of this role stands in, if the construct around it is a protected block;
the type of a handler belongs to the handler. -/
def Role.clause? : Role → Option Clause
  | .tryBody => some .body
  | .handlerType => some .handler
  | .handlerBody => some .handler
  | .tryElse => some .orelse
  | .tryFinally => some .finalbody
  | _ => none

/-- One step of a path: the construct that is entered, and what is entered next in which role. -/
structure Step where
  around : Node
  role : Role
  inner : Node

/-- A node and the way to it. -/
structure Site where
  /-- The constructs around the node, the innermost first. -/
  path : List Step
  node : Node

namespace Site

/-- The clauses of the protected blocks around a site, the innermost first. -/
def clauses (site : Site) : List Clause := site.path.filterMap fun step => step.role.clause?

/-- How deep a site lies: statements of the source lie on level one, and each construct around a
node adds one. -/
def level (site : Site) : Nat := site.path.length + 1

/-- A site seen from further out: `path` is the way to where its own path starts. -/
def under (path : List Step) (site : Site) : Site := ⟨site.path ++ path, site.node⟩

end Site

/-! ## Branches -/

/-- The nodes directly inside a handler: the type it takes comes before what it does. -/
def Handler.branches : Handler → List (Role × Node)
  | .mk _ typeExpr _ body =>
    typeExpr.toList.map (.handlerType, ·) ++ body.map (.handlerBody, ·)

/-- The nodes directly inside a node, in source order, each with its role. -/
def Node.branches : Node → List (Role × Node)
  | .tryBlock _ body handlers orelse finalbody =>
    body.map (.tryBody, ·) ++ handlers.flatMap Handler.branches
      ++ orelse.map (.tryElse, ·) ++ finalbody.map (.tryFinally, ·)
  | .definition _ _ _ header body => header.map (.header, ·) ++ body.map (.definitionBody, ·)
  | .assign _ targets value => targets.map (.target, ·) ++ [(.value, value)]
  | .call _ func args => (.callee, func) :: args.map (.argument, ·)
  | .access _ value _ => [(.owner, value)]
  | .name .. => []
  | .literal .. => []
  | .tuple _ elts => elts.map (.element, ·)
  | .other _ _ children => children.map (.child, ·)

theorem Handler.sizeOf_lt_of_mem_branches {handler : Handler} {branch : Role × Node}
    (h : branch ∈ handler.branches) : sizeOf branch.2 < sizeOf handler := by
  obtain ⟨line, typeExpr, name, body⟩ := handler
  simp only [branches, List.mem_append, List.mem_map, Option.mem_toList] at h
  rcases h with ⟨node, h, rfl⟩ | ⟨node, h, rfl⟩
  · subst h
    simp only [Handler.mk.sizeOf_spec, Option.some.sizeOf_spec]
    omega
  · have := List.sizeOf_lt_of_mem h
    simp only [Handler.mk.sizeOf_spec]
    omega

/-- A branch is smaller than the node it is in, so recursion on branches ends. -/
theorem Node.sizeOf_lt_of_mem_branches {node : Node} {branch : Role × Node}
    (h : branch ∈ node.branches) : sizeOf branch.2 < sizeOf node := by
  -- One list of nodes inside `node`: what is in it is smaller than it.
  have inside : ∀ {role : Role} {nodes : List Node},
      branch ∈ nodes.map (role, ·) → sizeOf branch.2 < sizeOf nodes := by
    intro role nodes h
    obtain ⟨inner, mem, rfl⟩ := List.mem_map.mp h
    exact List.sizeOf_lt_of_mem mem
  cases node with
  | tryBlock line body handlers orelse finalbody =>
    simp only [branches, List.mem_append, List.mem_flatMap] at h
    simp only [Node.tryBlock.sizeOf_spec]
    rcases h with ((h | ⟨handler, mem, h⟩) | h) | h
    · have := inside h
      omega
    · have := Handler.sizeOf_lt_of_mem_branches h
      have := List.sizeOf_lt_of_mem mem
      omega
    · have := inside h
      omega
    · have := inside h
      omega
  | definition line kind name header body =>
    simp only [branches, List.mem_append] at h
    simp only [Node.definition.sizeOf_spec]
    rcases h with h | h <;> have := inside h <;> omega
  | assign line targets value =>
    simp only [branches, List.mem_append, List.mem_singleton] at h
    simp only [Node.assign.sizeOf_spec]
    rcases h with h | rfl
    · have := inside h
      omega
    · show sizeOf value < _
      omega
  | call line func args =>
    simp only [branches, List.mem_cons] at h
    simp only [Node.call.sizeOf_spec]
    rcases h with rfl | h
    · show sizeOf func < _
      omega
    · have := inside h
      omega
  | access line value attr =>
    simp only [branches, List.mem_singleton] at h
    simp only [Node.access.sizeOf_spec, h]
    omega
  | name line id => simp only [branches, List.not_mem_nil] at h
  | literal line kind text => simp only [branches, List.not_mem_nil] at h
  | tuple line elts =>
    have := inside h
    simp only [Node.tuple.sizeOf_spec]
    omega
  | other line kind children =>
    have := inside h
    simp only [Node.other.sizeOf_spec]
    omega

/-- What holds of a node whenever it holds of its branches holds of every node. -/
theorem Node.branch_induction {P : Node → Prop}
    (step : ∀ node : Node, (∀ branch ∈ node.branches, P branch.2) → P node) (node : Node) :
    P node :=
  step node fun branch _ => branch_induction step branch.2
  termination_by sizeOf node
  decreasing_by exact Node.sizeOf_lt_of_mem_branches ‹_›

/-! ## Sites -/

/-- The sites of a node that is reached by `path`, in document order. -/
def Node.sites (path : List Step) (node : Node) : List Site :=
  ⟨path, node⟩ :: node.branches.attach.flatMap fun ⟨branch, _⟩ =>
    branch.2.sites (⟨node, branch.1, branch.2⟩ :: path)
  termination_by sizeOf node
  decreasing_by exact Node.sizeOf_lt_of_mem_branches ‹_›

/-- A node comes first, and then the sites of its branches, one branch after the other. -/
theorem Node.sites_eq (path : List Step) (node : Node) :
    node.sites path = ⟨path, node⟩ :: node.branches.flatMap fun branch =>
      branch.2.sites (⟨node, branch.1, branch.2⟩ :: path) := by
  rw [Node.sites, List.flatMap_subtype fun _ _ => rfl, List.unattach_attach]

/-- The path to a node only goes to the end of the paths of its sites. -/
theorem Node.sites_under (path : List Step) (node : Node) :
    node.sites path = (node.sites []).map (Site.under path) := by
  induction node using Node.branch_induction generalizing path with
  | step node ih =>
    rw [Node.sites_eq, Node.sites_eq [], List.map_cons, List.map_flatMap]
    congr 1
    refine List.flatMap_congr fun branch mem => ?_
    rw [ih branch mem, ih branch mem [⟨node, branch.1, branch.2⟩], List.map_map]
    refine List.map_congr_left fun site _ => ?_
    simp only [Function.comp_apply, Site.under, List.append_assoc, List.singleton_append]

/-- The sites of a tree, in document order. -/
def Tree.sites (tree : Tree) : List Site := tree.body.flatMap (·.sites [])

end SourceAudit
