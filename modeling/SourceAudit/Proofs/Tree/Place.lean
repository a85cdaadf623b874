import SourceAudit.Proofs.Tree.Site

/-!
# Places: the nodes and the handlers of a tree

A site is a node with the way to it, and a handler has none. Where handlers count as well, a tree is
read by its **constructs**, which are its nodes and its handlers. `Construct.inside` says once which
constructs stand directly inside which, in source order; a **place** is a construct with the
constructs around it, and `Tree.places` lists the places of a tree in document order.

The two readings agree: the nodes among the places are those of the sites (`Tree.nodes_places`).
-/

namespace SourceAudit

/-- What a walk meets inside a tree. -/
inductive Construct where
  | node (node : Node)
  | handler (handler : Handler)

/-- A construct and the constructs around it. -/
structure Tree.Place where
  /-- The constructs around, the innermost first. -/
  around : List Construct
  construct : Construct

namespace Construct

/-- The constructs directly inside a construct, in source order. -/
def inside : Construct → List Construct
  | node (.tryBlock _ body handlers orelse finalbody) =>
    body.map node ++ handlers.map handler ++ orelse.map node ++ finalbody.map node
  | node (.definition _ _ _ header body) => header.map node ++ body.map node
  | node (.assign _ targets value) => targets.map node ++ [node value]
  | node (.call _ func args) => node func :: args.map node
  | node (.access _ value _) => [node value]
  | node (.name ..) => []
  | node (.literal ..) => []
  | node (.tuple _ elts) => elts.map node
  | node (.other _ _ children) => children.map node
  | handler (.mk _ typeExpr _ body) => typeExpr.toList.map node ++ body.map node

/-- The nodes that a construct leads to: a node to itself, a handler to those directly in it. -/
def leads : Construct → List Node
  | node inner => [inner]
  | handler inner => inner.branches.map (·.2)

theorem flatMap_leads_node (nodes : List Node) : (nodes.map node).flatMap leads = nodes := by
  rw [List.flatMap_map]
  exact List.flatMap_singleton' nodes

/-- Only nodes stand directly inside a handler, and they are those that it leads to. -/
theorem inside_handler (inner : Handler) :
    (handler inner).inside = (handler inner).leads.map node := by
  obtain ⟨line, typeExpr, name, body⟩ := inner
  simp only [inside, leads, Handler.branches, List.map_append, List.map_map, Function.comp_def]

/-- What stands inside a node leads to its branches, in their order. -/
theorem flatMap_leads_inside (outer : Node) :
    (node outer).inside.flatMap leads = outer.branches.map (·.2) := by
  have handlers (list : List Handler) :
      (list.map handler).flatMap leads = (list.flatMap Handler.branches).map (·.2) := by
    rw [List.flatMap_map, List.map_flatMap]
    rfl
  cases outer with
  | tryBlock =>
    simp only [inside, Node.branches, List.flatMap_append, flatMap_leads_node, handlers,
      List.map_append, List.map_map, Function.comp_def, List.map_id']
  | name | literal => rfl
  | definition | assign | call | access | tuple | other =>
    simp only [inside, Node.branches, List.flatMap_append, List.flatMap_cons, List.flatMap_nil,
      flatMap_leads_node, leads, List.map_append, List.map_cons, List.map_nil, List.map_map,
      Function.comp_def, List.map_id', List.append_nil, List.singleton_append]

/-- What stands inside a construct is smaller, so places can be listed by recursion. -/
theorem sizeOf_lt_of_mem_inside {outer inner : Construct} (h : inner ∈ outer.inside) :
    sizeOf inner < sizeOf outer := by
  cases outer with
  | handler outer =>
    rw [inside_handler] at h
    obtain ⟨inner, lead, rfl⟩ := List.mem_map.mp h
    obtain ⟨branch, mem, rfl⟩ := List.mem_map.mp lead
    have := Handler.sizeOf_lt_of_mem_branches mem
    simp only [node.sizeOf_spec, handler.sizeOf_spec]
    omega
  | node outer =>
    cases inner with
    | node inner =>
      -- A node inside is a branch, and branches are smaller.
      have lead : inner ∈ outer.branches.map (·.2) := by
        rw [← flatMap_leads_inside]
        exact List.mem_flatMap.mpr ⟨node inner, h, List.mem_singleton_self inner⟩
      obtain ⟨branch, mem, rfl⟩ := List.mem_map.mp lead
      have := Node.sizeOf_lt_of_mem_branches mem
      simp only [node.sizeOf_spec]
      omega
    | handler inner =>
      cases outer with
      | tryBlock line body handlers orelse finalbody =>
        have mem : inner ∈ handlers := by simpa [inside] using h
        have := List.sizeOf_lt_of_mem mem
        simp only [node.sizeOf_spec, handler.sizeOf_spec, Node.tryBlock.sizeOf_spec]
        omega
      | _ => simp [inside] at h

/-- What holds of a construct whenever it holds of what is inside holds of every construct. -/
theorem inside_induction {P : Construct → Prop}
    (step : ∀ outer : Construct, (∀ inner ∈ outer.inside, P inner) → P outer)
    (construct : Construct) : P construct :=
  step construct fun inner _ => inside_induction step inner
  termination_by sizeOf construct
  decreasing_by exact sizeOf_lt_of_mem_inside ‹_›

/-- The places in a construct with the constructs `around` it, in document order. -/
def places (around : List Construct) (construct : Construct) : List Tree.Place :=
  ⟨around, construct⟩ :: construct.inside.attach.flatMap fun ⟨inner, _⟩ =>
    inner.places (construct :: around)
  termination_by sizeOf construct
  decreasing_by exact sizeOf_lt_of_mem_inside ‹_›

/-- A construct comes first, and then the places inside it, one construct after the other. -/
theorem places_eq (around : List Construct) (construct : Construct) :
    construct.places around = ⟨around, construct⟩ ::
      construct.inside.flatMap (places (construct :: around)) := by
  rw [places, List.flatMap_subtype fun _ _ => rfl, List.unattach_attach]

/-- What is around a construct is around every place in it. -/
theorem mem_around_of_mem_places {around : List Construct} {construct outer : Construct}
    (mem : outer ∈ around) {place : Tree.Place} (h : place ∈ construct.places around) :
    outer ∈ place.around := by
  induction construct using inside_induction generalizing around with
  | step construct ih =>
    rw [places_eq] at h
    rcases List.mem_cons.mp h with rfl | h
    · exact mem
    · obtain ⟨inner, hinner, h⟩ := List.mem_flatMap.mp h
      exact ih inner hinner (List.mem_cons_of_mem _ mem) h

/-- The node that a construct is, if it is one. -/
def node? : Construct → Option Node
  | node inner => some inner
  | handler _ => none

/-- The handler that a construct is, if it is one. -/
def handler? : Construct → Option Handler
  | node _ => none
  | handler inner => some inner

/-- The nodes among the places are those of the sites, in the same order. -/
theorem nodes_places (around : List Construct) (construct : Construct) :
    (construct.places around).filterMap (·.construct.node?) =
      construct.leads.flatMap fun inner => (inner.sites []).map Site.node := by
  induction construct using inside_induction generalizing around with
  | step construct ih =>
    have deeper : (construct.inside.flatMap (places (construct :: around))).filterMap
        (·.construct.node?) =
          (construct.inside.flatMap leads).flatMap fun inner => (inner.sites []).map Site.node := by
      rw [List.filterMap_flatMap, List.flatMap_assoc]
      exact List.flatMap_congr fun inner mem => ih inner mem _
    cases construct with
    | node outer =>
      rw [places_eq, List.filterMap_cons, deeper, flatMap_leads_inside, leads,
        List.flatMap_singleton, Node.sites_eq, List.map_cons, List.map_flatMap, List.flatMap_map]
      refine congrArg (outer :: ·) (List.flatMap_congr fun branch _ => ?_)
      rw [Node.sites_under [_], List.map_map]
      rfl
    | handler outer =>
      rw [places_eq, List.filterMap_cons, deeper, inside_handler, flatMap_leads_node]
      rfl

end Construct

/-- The places of a tree, in document order. -/
def Tree.places (tree : Tree) : List Tree.Place :=
  tree.body.flatMap fun node => (Construct.node node).places []

/-- The handlers of a tree, in document order. -/
def Tree.handlers (tree : Tree) : List Handler := tree.places.filterMap (·.construct.handler?)

/-- The nodes among the places of a tree are those of its sites, in the same order: handlers come
between them and change nothing. -/
theorem Tree.nodes_places (tree : Tree) :
    tree.places.filterMap (·.construct.node?) = tree.sites.map Site.node := by
  rw [Tree.places, Tree.sites, List.filterMap_flatMap, List.map_flatMap]
  refine List.flatMap_congr fun node _ => ?_
  rw [Construct.nodes_places, Construct.leads, List.flatMap_singleton]

end SourceAudit
