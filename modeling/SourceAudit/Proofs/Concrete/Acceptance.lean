import SourceAudit.Proofs.Concrete.Faithful
import SourceAudit.Proofs.Concrete.Visits

/-!
# Which sources are refused, and where

A source is refused for one of three reasons: its tree holds a bad node, lowering comes to a
construct that it has something against, or it comes to one with no levels left. `Visited` says
which nodes lowering comes to, and with how many levels; nothing is lowered to say so.

Both directions follow. A source with none of these faults anywhere in its tree is accepted, for
each visit goes at least one edge down, so the levels last for a tree that is not too high. And a
source that is accepted has none of these faults where lowering came. Whether lowering comes to
every statement that it may refuse is the grammar's business: `Concrete.Overseen` is that promise.
-/

namespace SourceAudit

namespace Concrete

/-! ## How deep a node stands -/

/-- A node stands `depth` edges below the root. -/
inductive Below (root : Concrete) : Nat → Concrete → Prop
  | root : Below root 0 root
  | child {depth : Nat} {node child : Concrete} (above : Below root depth node)
      (mem : child ∈ node.children) : Below root (depth + 1) child

section

variable {source : Source} {root node inner child part : Concrete} {depth more : Nat}

/-- Depths add up along the way from a node to one below it and on to one below that. -/
theorem Below.trans (above : root.Below depth node) (below : node.Below more inner) :
    root.Below (depth + more) inner := by
  induction below with
  | root => exact above
  | child _ mem ih => exact .child ih mem

theorem size_le_sizes {nodes : List Concrete} (mem : node ∈ nodes) : node.size ≤ sizes nodes := by
  induction nodes with
  | nil => cases mem
  | cons first nodes ih =>
    rw [sizes]
    rcases List.mem_cons.mp mem with rfl | mem
    · exact Nat.le_add_right _ _
    · exact Nat.le_add_left_of_le (ih mem)

/-- A child is smaller than its parent, which is what inductions over a concrete tree come down
to. -/
theorem size_lt_of_mem_children (mem : child ∈ node.children) : child.size < node.size := by
  obtain ⟨tag, children⟩ := node
  rw [size]
  exact Nat.lt_succ_of_le (size_le_sizes mem)

/-- A node that stands deep leaves little room below it: its depth and its size together are at most
the size of the tree. -/
theorem Below.size_le (h : root.Below depth node) : depth + node.size ≤ root.size := by
  induction h with
  | root => exact Nat.le_of_eq (Nat.zero_add _)
  | child _ mem ih =>
    have := size_lt_of_mem_children mem
    omega

theorem mem_preorder_self (node : Concrete) : node ∈ node.preorder := by
  obtain ⟨tag, children⟩ := node
  rw [preorder]
  exact List.mem_cons_self

/-- A node is listed for some trees exactly if it is listed for one of them. -/
theorem mem_preorders {nodes : List Concrete} :
    inner ∈ preorders nodes ↔ ∃ node ∈ nodes, inner ∈ node.preorder := by
  induction nodes with
  | nil => simp [preorders]
  | cons first nodes ih => rw [preorders, List.mem_append, ih, List.exists_mem_cons_iff]

/-- A node is in a tree if it is the root, or in the tree of one of its children. -/
theorem mem_preorder :
    inner ∈ node.preorder ↔ inner = node ∨ ∃ child ∈ node.children, inner ∈ child.preorder := by
  obtain ⟨tag, children⟩ := node
  rw [preorder, List.mem_cons, mem_preorders]
  rfl

/-- What holds of a node as soon as it holds of its children holds of every node. All inductions
over concrete trees that do not follow a particular function are by this principle. -/
theorem child_induction {P : Concrete → Prop}
    (step : ∀ node : Concrete, (∀ child ∈ node.children, P child) → P node) (node : Concrete) :
    P node :=
  step node fun child _ => child_induction step child
  termination_by node.size
  decreasing_by exact size_lt_of_mem_children ‹_›

/-- A tree holds the children of every node that it holds. -/
theorem mem_preorder_child (mem : node ∈ root.preorder) (hchild : child ∈ node.children) :
    child ∈ root.preorder := by
  induction root using child_induction with
  | step root ih =>
    rcases mem_preorder.mp mem with rfl | ⟨between, hbetween, mem⟩
    · exact mem_preorder.mpr (.inr ⟨child, hchild, mem_preorder_self child⟩)
    · exact mem_preorder.mpr (.inr ⟨between, hbetween, ih between hbetween mem⟩)

/-- A node at some depth is in the tree. -/
theorem Below.mem_preorder (h : root.Below depth node) : node ∈ root.preorder := by
  induction h with
  | root => exact mem_preorder_self root
  | child _ mem ih => exact mem_preorder_child ih mem

/-- Every part is a named child; what sets parts apart is that they are not extra. -/
theorem mem_named (mem : part ∈ node.parts) : part ∈ node.named := by
  obtain ⟨mem, isPart⟩ := List.mem_filter.mp mem
  obtain ⟨named, -⟩ := (Bool.and_eq_true _ _).mp isPart
  exact List.mem_filter.mpr ⟨mem, named⟩

/-! ## What is visited stands inside -/

/-- A node stands somewhere inside another. -/
def Holds (node inner : Concrete) : Prop := ∃ depth, node.Below (depth + 1) inner

theorem Holds.of_child (mem : child ∈ node.children) : node.Holds child := ⟨0, .child .root mem⟩

theorem Holds.of_part (mem : part ∈ node.parts) : node.Holds part :=
  .of_child (List.mem_of_mem_filter mem)

theorem Holds.of_named (mem : child ∈ node.named) : node.Holds child :=
  .of_child (List.mem_of_mem_filter mem)

theorem Holds.of_field {field : String} (h : node.field? field = some inner) : node.Holds inner :=
  .of_child (List.mem_of_find?_eq_some h)

/-- What stands inside a node inside another one stands inside the outer one. -/
theorem Holds.trans (outer : root.Holds node) (h : node.Holds inner) : root.Holds inner := by
  obtain ⟨above, outer⟩ := outer
  obtain ⟨below, h⟩ := h
  exact ⟨above + 1 + below, outer.trans h⟩

/-- A node is larger than anything inside it, so going inside comes to an end. -/
theorem Holds.size_lt (h : node.Holds inner) : inner.size < node.size := by
  obtain ⟨depth, h⟩ := h
  have := h.size_le
  omega

/-- The parts of a field stand two edges down, inside the node that is known as the field. -/
theorem Holds.of_fieldParts {field : String} (mem : inner ∈ node.fieldParts field) :
    node.Holds inner := by
  obtain ⟨known, hknown, mem⟩ := List.mem_flatMap.mp mem
  exact (Holds.of_field (Option.mem_toList.mp hknown)).trans (.of_part mem)

/-- The statements of a clause stand inside its blocks, and the type of a handler is one of its
expressions or a part of one. -/
theorem Holds.of_clauseVisits (mem : inner ∈ node.clauseVisits) : node.Holds inner := by
  unfold clauseVisits handlerVisits at mem
  split at mem
  next =>
    rcases List.mem_append.mp mem with mem | mem
    · obtain ⟨block, hblock, mem⟩ := List.mem_flatMap.mp mem
      exact (Holds.of_part (List.mem_of_mem_filter hblock)).trans (.of_part mem)
    · have exprs : ∀ expr ∈ node.parts.filter (!·.isBlock), node.Holds expr :=
        fun expr mem => .of_part (List.mem_of_mem_filter mem)
      cases h : node.parts.filter (!·.isBlock) with
      | nil =>
        rw [h] at mem
        cases mem
      | cons first rest =>
        rw [h] at exprs
        have here := exprs first List.mem_cons_self
        rw [h, typeVisits] at mem
        split at mem
        next => exact here.trans (.of_part (List.mem_of_mem_take mem))
        next =>
          rw [List.mem_singleton.mp mem]
          exact here
  next =>
    split at mem
    next =>
      obtain ⟨block, hblock, mem⟩ := List.mem_flatMap.mp mem
      have here := List.mem_of_find?_eq_some (Option.mem_toList.mp hblock)
      exact (Holds.of_named here).trans (.of_part mem)
    next => cases mem

/-- An operand is the node itself, if that is no link, or stands somewhere down its left spine. -/
theorem Holds.of_operands {kind : String} (mem : inner ∈ node.operands kind) :
    inner = node ∨ node.Holds inner := by
  induction node using child_induction with
  | step node ih =>
    rcases node.operands_cases kind with ⟨left, right, -, hleft, hright, eq⟩ | eq
    · rw [eq, List.mem_append, List.mem_singleton] at mem
      rcases mem with mem | rfl
      · have here := Holds.of_field hleft
        rcases ih left (List.mem_of_find?_eq_some hleft) mem with rfl | deeper
        · exact .inr here
        · exact .inr (here.trans deeper)
      · exact .inr (.of_field hright)
    · rw [eq] at mem
      exact .inl (List.mem_singleton.mp mem)

/-- A node with both sides is a link of a chain, and none of its own operands. -/
theorem operands_of_link {left right : Concrete} (hleft : node.field? "left" = some left)
    (hright : node.field? "right" = some right) :
    node.operands node.kind = left.operands node.kind ++ [right] := by
  rw [operands_eq, hleft, hright]
  exact if_pos rfl

/-- A node that is lowered as a chain has both sides, so each of its operands stands strictly inside
it. -/
theorem Holds.of_operatorVisits (mem : inner ∈ node.operatorVisits) : node.Holds inner := by
  unfold operatorVisits at mem
  split at mem
  next left right hleft hright =>
    rw [operands_of_link hleft hright, List.mem_append, List.mem_singleton] at mem
    rcases mem with mem | rfl
    · have here := Holds.of_field hleft
      rcases Holds.of_operands mem with rfl | deeper
      · exact here
      · exact here.trans deeper
    · exact .of_field hright
  next => exact .of_part mem

/-- The targets and the value of a chain of assignments stand strictly inside it, however far to the
right the chain goes on. -/
theorem Holds.of_assignments (mem : inner ∈ node.assignments.1 ++ node.assignments.2.toList) :
    node.Holds inner := by
  induction node using child_induction with
  | step node ih =>
    rw [assignments_eq] at mem
    split at mem
    next left right hleft hright =>
      have inRight : node.Holds right := .of_field hright
      split at mem
      next =>
        rcases List.mem_cons.mp mem with rfl | mem
        · exact .of_field hleft
        · exact inRight.trans (ih right (List.mem_of_find?_eq_some hright) mem)
      next =>
        rcases List.mem_cons.mp mem with rfl | mem
        · exact .of_field hleft
        · rw [List.mem_singleton.mp mem]
          exact inRight
    next => cases mem

/-- The interpolations of a string stand inside it, or inside one of the strings that it joins. -/
theorem Holds.of_interpolations (mem : inner ∈ node.interpolations) : node.Holds inner := by
  induction node using child_induction with
  | step node ih =>
    rw [interpolations_eq] at mem
    obtain ⟨child, hchild, mem⟩ := List.mem_flatMap.mp mem
    unfold added at mem
    split at mem
    next =>
      rw [List.mem_singleton.mp mem]
      exact .of_named hchild
    next =>
      split at mem
      next =>
        have deeper := ih child (List.mem_of_mem_filter hchild) mem
        exact (Holds.of_named hchild).trans deeper
      next => cases mem

/-- An argument stands inside the list of arguments, or in its place. -/
theorem Holds.of_argumentVisits (mem : inner ∈ node.argumentVisits) : node.Holds inner := by
  unfold argumentVisits at mem
  split at mem
  next arguments found =>
    have here := Holds.of_field found
    split at mem
    next => exact here.trans (.of_part mem)
    next =>
      rw [List.mem_singleton.mp mem]
      exact here
  next => cases mem

/-- What is lowered for an assignment stands inside it, whether it is annotated, a chain, or a chain
that breaks off. -/
theorem Holds.of_assignmentVisits (mem : inner ∈ node.assignmentVisits) : node.Holds inner := by
  have chain : inner ∈ node.assignments.1 ++ node.assignments.2.toList → node.Holds inner :=
    Holds.of_assignments
  unfold assignmentVisits at mem
  split at mem
  next => exact .of_part mem
  next =>
    rcases List.mem_append.mp mem with mem | mem
    · exact chain (List.mem_append_left _ mem)
    · split at mem
      next value found =>
        rw [found] at chain
        exact chain (List.mem_append_right _ mem)
      next => exact .of_part mem

/-- Arguments and function of a call stand inside it. -/
theorem Holds.of_callVisits (mem : inner ∈ node.callVisits) : node.Holds inner := by
  unfold callVisits at mem
  split at mem
  next function found =>
    rcases List.mem_append.mp mem with mem | mem
    · exact .of_argumentVisits mem
    · rw [List.mem_singleton.mp mem]
      exact .of_field found
  next => exact .of_part mem

/-- The object of an access stands inside it. -/
theorem Holds.of_accessVisits (mem : inner ∈ node.accessVisits) : node.Holds inner := by
  unfold accessVisits at mem
  split at mem
  next object attr found _ =>
    rw [List.mem_singleton.mp mem]
    exact .of_field found
  next => exact .of_part mem

/-- What a print statement shifts stands inside its chevron, and the rest beside that. -/
theorem Holds.of_printVisits (mem : inner ∈ node.printVisits) : node.Holds inner := by
  unfold printVisits at mem
  split at mem
  next first rest parts =>
    have inParts : ∀ part ∈ first :: rest, node.Holds part := by
      rw [← parts]
      exact fun part mem => .of_part mem
    split at mem
    next =>
      rcases List.mem_append.mp mem with mem | mem
      · exact (inParts first List.mem_cons_self).trans (.of_part mem)
      · exact inParts inner (List.mem_cons_of_mem _ mem)
    next => cases mem
  next => cases mem

/-- Lowering only ever goes down. -/
theorem Holds.of_visits (mem : inner ∈ node.visits source) : node.Holds inner := by
  unfold visits at mem
  repeat' split at mem
  · rcases List.mem_append.mp mem with mem | mem
    · exact .of_fieldParts mem
    · obtain ⟨clause, hclause, mem⟩ := List.mem_flatMap.mp mem
      exact (Holds.of_named hclause).trans (.of_clauseVisits mem)
  · rcases List.mem_append.mp mem with mem | mem
    · obtain ⟨field, -, found⟩ := List.mem_filterMap.mp mem
      exact .of_field found
    · exact .of_fieldParts mem
  · exact .of_assignmentVisits mem
  · exact .of_callVisits mem
  · exact .of_accessVisits mem
  · cases mem
  · obtain ⟨interpolation, found, mem⟩ := List.mem_flatMap.mp mem
    exact (Holds.of_interpolations found).trans (.of_part mem)
  · cases mem
  · exact .of_part (List.mem_of_mem_take mem)
  · exact .of_operatorVisits mem
  · exact .of_printVisits mem
  · exact .of_part mem

/-! ## What is reached by parts -/

/-- The nodes that are reached from a node by going from part to part. -/
def reached (node : Concrete) : List Concrete := node.statementSites.map Site.node

/-- A node is reached if it is a part, or is reached from one. -/
theorem mem_reached :
    inner ∈ node.reached ↔ ∃ part ∈ node.parts, inner = part ∨ inner ∈ part.reached := by
  have ofPart (part : Concrete) :
      (∃ site ∈ part.sites [], site.node = inner) ↔ inner = part ∨ inner ∈ part.reached := by
    rw [sites_eq, List.exists_mem_cons_iff, eq_comm, reached, List.mem_map, statementSites]
    refine or_congr_right ?_
    simp only [List.mem_flatMap]
    constructor
    · rintro ⟨site, ⟨next, hnext, mem⟩, rfl⟩
      rw [sites_under] at mem
      obtain ⟨shorter, hshorter, rfl⟩ := List.mem_map.mp mem
      exact ⟨shorter, ⟨next, hnext, hshorter⟩, rfl⟩
    · rintro ⟨site, ⟨next, hnext, mem⟩, rfl⟩
      refine ⟨site.under [⟨part, next⟩], ⟨next, hnext, ?_⟩, rfl⟩
      rw [sites_under]
      exact List.mem_map_of_mem mem
  simp only [← ofPart]
  rw [reached, List.mem_map, statementSites]
  simp only [List.mem_flatMap]
  constructor
  · rintro ⟨site, ⟨part, hpart, mem⟩, same⟩
    exact ⟨part, hpart, site, mem, same⟩
  · rintro ⟨part, hpart, site, mem, same⟩
    exact ⟨site, ⟨part, hpart, mem⟩, same⟩

/-- The kinds of nodes that lowering may have something against. -/
def refusableKinds : List String := ["try_statement", "print_statement", "exec_statement"]

/-- Lowering a node overlooks nothing that it may refuse: whatever of this sort is reached from the
node is a node that it goes on to lower, or is reached from one. -/
def OverlooksNothing (source : Source) (node : Concrete) : Prop :=
  ∀ inner ∈ node.reached, inner.kind ∈ refusableKinds →
    ∃ visited ∈ node.visits source, inner = visited ∨ inner ∈ visited.reached

end

end Concrete

/-! ## What lowering comes to -/

/-- Lowering a source comes to a node with `levels` levels left for it. -/
inductive Visited (source : Source) (root : Concrete) : Nat → Concrete → Prop
  | statement {node : Concrete} (mem : node ∈ root.parts) : Visited source root nestingLimit node
  | inner {levels : Nat} {node inner : Concrete} (outer : Visited source root (levels + 1) node)
      (mem : inner ∈ node.visits source) : Visited source root levels inner

/-- What the grammar promises so that nothing is overlooked: no statement that may be refused stands
where lowering passes over a part. -/
def Concrete.Overseen (source : Source) (root : Concrete) : Prop :=
  ∀ levels node, Visited source root levels node → node.OverlooksNothing source

section

variable {source : Source} {root node : Concrete} {levels : Nat} {tree : Tree} {error : ParseError}

/-- A visit uses up no more levels than it goes edges down. -/
theorem Visited.exists_below (h : Visited source root levels node) :
    ∃ depth, nestingLimit ≤ levels + depth ∧ root.Below (depth + 1) node := by
  induction h with
  | statement mem => exact ⟨0, Nat.le_refl _, .child .root (List.mem_of_mem_filter mem)⟩
  | inner _ mem ih =>
    obtain ⟨depth, lasts, below⟩ := ih
    obtain ⟨more, inside⟩ := Concrete.Holds.of_visits mem
    refine ⟨depth + 1 + more, by omega, below.trans inside⟩

/-- Lowering comes to nodes of the tree only. -/
theorem Visited.mem_preorder (h : Visited source root levels node) : node ∈ root.preorder := by
  obtain ⟨depth, -, below⟩ := h.exists_below
  exact below.mem_preorder

/-- In a source that is accepted, lowering succeeds wherever it comes. -/
theorem Visited.lower_eq_ok (h : Tree.ofConcrete source root = .ok tree)
    (visited : Visited source root levels node) :
    ∃ lowered, lower source levels node = .ok lowered := by
  induction visited with
  | statement mem =>
    obtain ⟨-, -, body⟩ := Tree.ofConcrete_eq_ok h
    exact ((comesDownTo_mapM root.parts).ok body).2 _ mem
  | inner _ mem ih =>
    obtain ⟨lowered, outer⟩ := ih
    exact (comesDownTo_lowerKind.ok outer).2 _ mem

/-- In a source that is accepted, lowering never runs out of levels and has nothing to refuse. -/
theorem Visited.accepted (h : Tree.ofConcrete source root = .ok tree)
    (visited : Visited source root levels node) :
    0 < levels ∧ node.refusals source = [] := by
  obtain ⟨lowered, hlowered⟩ := visited.lower_eq_ok h
  cases levels with
  | zero => cases hlowered
  | succ levels => exact ⟨Nat.succ_pos levels, (comesDownTo_lowerKind.ok hlowered).1⟩

/-- Lowering fails only where it comes to something that it refuses, or has no levels left. -/
theorem Visited.exists_of_error (visited : Visited source root levels node)
    (h : lower source levels node = .error error) :
    ∃ levels node, Visited source root levels node ∧
      (error ∈ node.refusals source ∨ levels = 0 ∧ error = source.errorAt node .tooDeep) := by
  induction levels generalizing node with
  | zero =>
    cases h
    exact ⟨0, node, visited, .inr ⟨rfl, rfl⟩⟩
  | succ levels ih =>
    rcases comesDownTo_lowerKind.error h with refusal | ⟨inner, mem, failed⟩
    · exact ⟨levels + 1, node, visited, .inl refusal⟩
    · exact ih (visited.inner mem) failed

/-- If nothing is overlooked, lowering comes to every statement that it may refuse. -/
theorem Visited.of_reached (overseen : root.Overseen source)
    (h : Tree.ofConcrete source root = .ok tree) {node inner : Concrete} {levels : Nat}
    (visited : Visited source root levels node) (mem : inner = node ∨ inner ∈ node.reached)
    (kind : inner.kind ∈ Concrete.refusableKinds) :
    ∃ levels, Visited source root levels inner := by
  rcases mem with rfl | mem
  · exact ⟨levels, visited⟩
  · obtain ⟨next, hnext, deeper⟩ := overseen levels node visited inner mem kind
    obtain ⟨fewer, rfl⟩ := Nat.exists_eq_succ_of_ne_zero (Nat.ne_of_gt (visited.accepted h).1)
    exact Visited.of_reached overseen h (visited.inner hnext) deeper kind
  termination_by node.size
  decreasing_by exact (Concrete.Holds.of_visits hnext).size_lt

end

/-! ## What is accepted and what is refused -/

section

variable {source : Source} {root node : Concrete} {tree : Tree} {error : ParseError}

/-- Lowering has nothing against a node that is no statement of old, where handlers list their types
in parentheses. -/
theorem Concrete.refusals_eq_nil_iff :
    node.refusals source = [] ↔
      node.kind ≠ "exec_statement" ∧
        (node.kind = "print_statement" → node.startsWithChevron) ∧
        (node.kind = "try_statement" → ∀ clause ∈ node.named, clause.isClause .handler →
          ∀ child ∈ clause.children, child.kind ≠ ",") := by
  unfold refusals
  split_ifs with tried printed chevron execed
  · simp [tried, handlerRefusals]
  · simp [printed, chevron]
  · simp [printed, chevron]
  · simp [execed]
  · simp [tried, printed, execed]

/-- An accepted source has no bad node at all, also where lowering does not come: the tree is
searched before anything is lowered. -/
theorem Tree.isBad_of_ofConcrete (h : Tree.ofConcrete source root = .ok tree) :
    ∀ node ∈ root.preorder, node.isBad = false := by
  obtain ⟨clean, -, -⟩ := Tree.ofConcrete_eq_ok h
  rw [Concrete.firstBad?_eq] at clean
  intro node mem
  exact Bool.not_eq_true _ ▸ List.find?_eq_none.mp clean node mem

/-- What lowering has against a node, and where: a statement of old is refused where it stands, and
a protected block at a comma between the types of a handler. -/
inductive Concrete.Faulty (node : Concrete) : Concrete → Fault → Prop
  | exec (kind : node.kind = "exec_statement") : Faulty node node .execStatement
  | print (kind : node.kind = "print_statement") (without : ¬node.startsWithChevron) :
    Faulty node node .printStatement
  | comma {clause comma : Concrete} (kind : node.kind = "try_statement")
    (mem : clause ∈ node.named) (handles : clause.isClause .handler)
    (inside : comma ∈ clause.children) (separates : comma.kind = ",") :
    Faulty node comma .bareTypes

/-- Every refusal names a fault of the node and the place where it is: the node itself, or a comma
in one of its handlers. -/
theorem Concrete.exists_faulty_of_mem_refusals (mem : error ∈ node.refusals source) :
    ∃ place fault, node.Faulty place fault ∧ error = source.errorAt place fault := by
  unfold refusals at mem
  split_ifs at mem with tried printed chevron execed
  · obtain ⟨clause, hclause, mem⟩ := List.mem_flatMap.mp mem
    obtain ⟨clauseMem, handles⟩ := List.mem_filter.mp hclause
    obtain ⟨comma, hcomma, rfl⟩ := List.mem_map.mp mem
    obtain ⟨inside, separates⟩ := List.mem_filter.mp hcomma
    exact ⟨comma, .bareTypes,
      .comma tried clauseMem handles inside (decide_eq_true_eq.mp separates), rfl⟩
  · cases mem
  · exact ⟨node, .printStatement, .print printed chevron, List.mem_singleton.mp mem⟩
  · exact ⟨node, .execStatement, .exec execed, List.mem_singleton.mp mem⟩
  · cases mem

/-- A source that is refused has a bad node, of which the first is named, or else lowering comes to
something that it refuses or has no levels left for. -/
theorem Tree.ofConcrete_eq_error (h : Tree.ofConcrete source root = .error error) :
    (∃ bad, root.preorder.find? Concrete.isBad = some bad ∧
        error = source.errorAt bad bad.fault) ∨
      root.preorder.find? Concrete.isBad = none ∧
        ∃ levels node, Visited source root levels node ∧
          (error ∈ node.refusals source ∨ levels = 0 ∧ error = source.errorAt node .tooDeep) := by
  unfold Tree.ofConcrete at h
  rw [Concrete.firstBad?_eq] at h
  split at h
  next bad found =>
    cases h
    exact .inl ⟨bad, found, rfl⟩
  next clean =>
    refine .inr ⟨clean, ?_⟩
    have body : ComesDownTo (lower source nestingLimit) root.parts []
        (root.parts.mapM (lower source nestingLimit) >>= fun body =>
          .ok (Tree.mk source.name body)) :=
      (comesDownTo_mapM root.parts).map (Tree.mk source.name)
    rcases body.error h with none | ⟨node, mem, failed⟩
    · cases none
    · exact (Visited.statement mem).exists_of_error failed

/-- **Which sources are refused, and where.** A source is accepted if nothing in its tree is bad, a
statement of old, or a handler with bare types, and no node stands deeper than the limit. The other
way round, an accepted source has nothing bad in it, and no statement of old and no protected block
with bare types is reached in it, as far as lowering overlooks none. And a source is refused at its
first bad node, or, if it has none, at a node that lowering comes to: at one it has something
against, or at one it has no levels left for. The error says what is wrong there, and gives line and
column of the place, counted from one, and its first byte. -/
theorem Tree.ofConcrete_acceptance (source : Source) (root : Concrete) :
    ((∀ node ∈ root.preorder, node.isBad = false ∧ node.kind ≠ "exec_statement" ∧
          (node.kind = "print_statement" → node.startsWithChevron) ∧
          (node.isClause .handler → ∀ child ∈ node.children, child.kind ≠ ",")) →
        (∀ depth node, root.Below depth node → depth ≤ nestingLimit) →
        ∃ tree, Tree.ofConcrete source root = .ok tree) ∧
      (root.Overseen source → ∀ tree, Tree.ofConcrete source root = .ok tree →
        (∀ node ∈ root.preorder, node.isBad = false) ∧
          ∀ node ∈ root.reached, node.kind ≠ "exec_statement" ∧
            (node.kind = "print_statement" → node.startsWithChevron) ∧
            (node.kind = "try_statement" → ∀ clause ∈ node.parts, clause.isClause .handler →
              ∀ child ∈ clause.children, child.kind ≠ ",")) ∧
      ∀ error, Tree.ofConcrete source root = .error error →
        ∃ place fault,
          error = ⟨source.name, fault,
            some ⟨place.tag.row + 1, place.tag.column + 1, place.tag.start⟩⟩ ∧
          (root.preorder.find? Concrete.isBad = some place ∧
              fault = (if place.tag.missing then .missing place.kind else .invalid) ∨
            root.preorder.find? Concrete.isBad = none ∧
              ∃ levels node, Visited source root levels node ∧
                (node.Faulty place fault ∨
                  levels = 0 ∧ place = node ∧ fault = .tooDeep)) := by
  refine ⟨fun faultless shallow => ?_, fun overseen tree h => ⟨Tree.isBad_of_ofConcrete h, ?_⟩,
    fun error h => ?_⟩
  · cases h : Tree.ofConcrete source root with
    | ok tree => exact ⟨tree, rfl⟩
    | error error =>
      exfalso
      rcases Tree.ofConcrete_eq_error h with ⟨bad, found, -⟩ | ⟨-, levels, node, visited, fault⟩
      · have good := (faultless bad (List.mem_of_find?_eq_some found)).1
        have isBad : bad.isBad = true := List.find?_some found
        rw [good] at isBad
        cases isBad
      · rcases fault with refusal | ⟨rfl, -⟩
        · have none : node.refusals source = [] := by
            obtain ⟨-, execed, printed, -⟩ := faultless node visited.mem_preorder
            refine Concrete.refusals_eq_nil_iff.mpr ⟨execed, printed, fun _ clause mem => ?_⟩
            have inside := Concrete.mem_preorder_child visited.mem_preorder
              (List.mem_of_mem_filter mem)
            exact (faultless clause inside).2.2.2
          rw [none] at refusal
          cases refusal
        · -- Without levels left, more edges lie above the node than the limit allows.
          obtain ⟨depth, used, below⟩ := visited.exists_below
          have := shallow (depth + 1) node below
          omega
  · intro node mem
    by_cases kind : node.kind ∈ Concrete.refusableKinds
    · obtain ⟨part, hpart, reached⟩ := Concrete.mem_reached.mp mem
      obtain ⟨levels, visited⟩ := Visited.of_reached overseen h (.statement hpart) reached kind
      obtain ⟨-, refusals⟩ := visited.accepted h
      obtain ⟨execed, printed, tried⟩ := Concrete.refusals_eq_nil_iff.mp refusals
      exact ⟨execed, printed, fun kind clause mem => tried kind clause (Concrete.mem_named mem)⟩
    · simp only [Concrete.refusableKinds, List.mem_cons, List.not_mem_nil, or_false,
        not_or] at kind
      obtain ⟨tried, printed, execed⟩ := kind
      exact ⟨execed, fun same => absurd same printed, fun same => absurd same tried⟩
  · rcases Tree.ofConcrete_eq_error h with ⟨bad, found, rfl⟩ | ⟨clean, levels, node, visited, fault⟩
    · exact ⟨bad, bad.fault, rfl, .inl ⟨found, rfl⟩⟩
    · rcases fault with refusal | ⟨none, rfl⟩
      · obtain ⟨place, fault, faulty, rfl⟩ := Concrete.exists_faulty_of_mem_refusals refusal
        exact ⟨place, fault, rfl, .inr ⟨clean, levels, node, visited, .inl faulty⟩⟩
      · exact ⟨node, .tooDeep, rfl, .inr ⟨clean, levels, node, visited, .inr ⟨none, rfl, rfl⟩⟩⟩

end

/-! ## A source of each sort -/

/-- What is reached from part to part stands inside. -/
theorem Concrete.Holds.of_reached {node inner : Concrete} (mem : inner ∈ node.reached) :
    node.Holds inner := by
  induction node using Concrete.part_induction with
  | step node ih =>
    obtain ⟨part, hpart, rfl | mem⟩ := Concrete.mem_reached.mp mem
    · exact .of_part hpart
    · exact (Concrete.Holds.of_part hpart).trans (ih part hpart mem)

/-- The protected block is the only statement of this source that might be refused, and it is
reached from no node that lowering comes to. -/
theorem Concrete.overseen_tryModule {source : Source} : tryModule.Overseen source := by
  intro levels node visited inner mem kind
  obtain ⟨depth, used, below⟩ := visited.exists_below
  have large : tryCall.size ≤ inner.size := by
    have only : ∀ inner ∈ tryModule.preorder, inner.kind ∈ refusableKinds →
        tryCall.size ≤ inner.size := by decide
    obtain ⟨more, inside⟩ := Holds.of_reached mem
    exact only inner (below.trans inside).mem_preorder kind
  have small : inner.size < node.size := (Holds.of_reached mem).size_lt
  have whole : depth + 1 + node.size ≤ tryCall.size + 1 := below.size_le
  omega

/-- The concrete tree of a statement of old, `exec x`. -/
def Concrete.execModule : Concrete :=
  construct 0 0 "module" [] 0 7
    [construct 0 0 "exec_statement" [] 0 6
      [token 0 0 "exec" 0, construct 0 0 "identifier" ["code"] 5 6 []]]

/-- The text of which that is the tree. -/
def execSource : Source := ⟨"test.py", "exec x\n"⟩

/-- The first of these sources is accepted and has no fault where it might be refused; the second
is refused at its statement, which begins the text. -/
theorem Tree.acceptance_tryModule_execModule :
    (∃ tree, Tree.ofConcrete trySource .tryModule = .ok tree) ∧
      Concrete.tryModule.Overseen trySource ∧
      (∀ node ∈ Concrete.tryModule.reached, node.kind ≠ "exec_statement" ∧
        (node.kind = "print_statement" → node.startsWithChevron) ∧
        (node.kind = "try_statement" → ∀ clause ∈ node.parts, clause.isClause .handler →
          ∀ child ∈ clause.children, child.kind ≠ ",")) ∧
      Tree.ofConcrete execSource .execModule =
        .error ⟨"test.py", .execStatement, some ⟨1, 1, 0⟩⟩ ∧
      ∃ levels node place, Visited execSource .execModule levels node ∧
        node.Faulty place .execStatement := by
  obtain ⟨accepts, faultless, -⟩ := Tree.ofConcrete_acceptance trySource .tryModule
  obtain ⟨-, -, refuses⟩ := Tree.ofConcrete_acceptance execSource .execModule
  have shallow : ∀ depth node, Concrete.tryModule.Below depth node → depth ≤ nestingLimit := by
    intro depth node below
    have whole := below.size_le
    have size : Concrete.tryModule.size ≤ nestingLimit := by decide
    omega
  obtain ⟨tree, h⟩ := accepts (by decide) shallow
  have overseen : Concrete.tryModule.Overseen trySource := Concrete.overseen_tryModule
  have refused : Tree.ofConcrete execSource .execModule =
      .error ⟨"test.py", .execStatement, some ⟨1, 1, 0⟩⟩ := by
    rw [Tree.ofConcrete, Concrete.firstBad?_eq_none rfl]
    rfl
  refine ⟨⟨tree, h⟩, overseen, (faultless overseen tree h).2, refused, ?_⟩
  obtain ⟨place, fault, error, ⟨found, -⟩ | ⟨-, levels, node, visited, faulty⟩⟩ := refuses _ refused
  · have none : Concrete.execModule.preorder.find? Concrete.isBad = none := by
      rw [← Concrete.firstBad?_eq, Concrete.firstBad?_eq_none rfl]
    rw [none] at found
    cases found
  · have same : fault = .execStatement := congrArg ParseError.fault error.symm
    subst same
    rcases faulty with faulty | ⟨-, -, deep⟩
    · exact ⟨levels, node, place, visited, faulty⟩
    · cases deep

end SourceAudit
