import SourceAudit.Proofs.Concrete.Acceptance

/-!
# Concrete trees in order

Lowering takes the nodes inside a construct in an order of its own: it filters the children, it asks
for fields in a fixed order, it collects handlers apart from the other clauses, and it flattens
chains. `Concrete.sequence` says which children of a node it asks for apart from each other, and in
which order it holds them.

A relation that holds between a node and what is inside it, between what is in a child and in a
later one, and along these sequences makes a tree **ordered**. Then it holds between whatever nodes
lowering picks for one construct, the earlier first (`Concrete.Picks`). Rows are such a relation, if
they go up in document order and the sequences stand as they are asked for (`ordered_of_rows`).
-/

namespace SourceAudit

namespace Concrete

/-- The children of a node that lowering asks for apart from each other, in the order in which it
holds them. -/
def sequence (node : Concrete) : List Concrete :=
  match node.kind with
  | "function_definition" | "class_definition" =>
    headerFields.filterMap node.field? ++ (node.field? "body").toList
  | "assignment" | "binary_operator" | "boolean_operator" =>
    (node.field? "left").toList ++ (node.field? "right").toList
  | "call" => (node.field? "function").toList ++ (node.field? "arguments").toList
  | "try_statement" =>
    (node.field? "body").toList ++ node.named.filter (isClause .handler)
      ++ node.named.filter (isClause .orelse) ++ node.named.filter (isClause .finalbody)
  | "except_clause" | "except_group_clause" =>
    node.parts.filter (!·.isBlock) ++ node.parts.filter isBlock
  | _ => []

section

variable {r : Concrete → Concrete → Prop} {node inner : Concrete} {nodes : List Concrete}

/-- Everything in one node is related to everything in another. -/
def Precedes (r : Concrete → Concrete → Prop) (node later : Concrete) : Prop :=
  ∀ inner ∈ node.preorder, ∀ other ∈ later.preorder, r inner other

/-- A node is related to all that is inside it, and its children are to those behind them, in the
tree as well as in the order in which they are asked for. -/
structure Aligned (r : Concrete → Concrete → Prop) (node : Concrete) : Prop where
  above : ∀ inner ∈ node.preorder, r node inner
  children : node.children.Pairwise (Precedes r)
  sequence : node.sequence.Pairwise (Precedes r)

/-- All nodes of a tree are aligned. -/
def Ordered (r : Concrete → Concrete → Prop) (node : Concrete) : Prop :=
  ∀ inner ∈ node.preorder, inner.Aligned r

/-- What is inside a node inside another one is inside the outer one. -/
theorem mem_preorder_trans {other : Concrete} (outer : inner ∈ node.preorder)
    (h : other ∈ inner.preorder) : other ∈ node.preorder := by
  induction inner using child_induction with
  | step inner ih =>
    rcases mem_preorder.mp h with rfl | ⟨child, mem, h⟩
    · exact outer
    · exact ih child mem (mem_preorder_child outer mem) h

theorem mem_preorder_of_mem_children (mem : inner ∈ node.children) : inner ∈ node.preorder :=
  mem_preorder_child node.mem_preorder_self mem

/-- An ordered tree is aligned at its root. -/
theorem Ordered.here (ordered : node.Ordered r) : node.Aligned r :=
  ordered node node.mem_preorder_self

/-- Whatever is inside an ordered tree is an ordered tree itself, which is what lets the proofs
about lowering go down into it. -/
theorem Ordered.inside (ordered : node.Ordered r) (mem : inner ∈ node.preorder) :
    inner.Ordered r :=
  fun _ h => ordered _ (mem_preorder_trans mem h)

theorem Ordered.child (ordered : node.Ordered r) (mem : inner ∈ node.children) : inner.Ordered r :=
  ordered.inside (mem_preorder_of_mem_children mem)

/-- If one node wholly precedes another, then whatever is inside the first precedes whatever is
inside the second. -/
theorem Precedes.inside {later deeper : Concrete} (h : Precedes r node later)
    (mem : inner ∈ node.preorder) (deep : deeper ∈ later.preorder) : Precedes r inner deeper :=
  fun _ first _ second => h _ (mem_preorder_trans mem first) _ (mem_preorder_trans deep second)

/-- Lowering asks a node for its own children only, in whatever order it does. -/
theorem mem_children_of_mem_sequence (mem : inner ∈ node.sequence) : inner ∈ node.children := by
  have known {field : String} (mem : inner ∈ (node.field? field).toList) : inner ∈ node.children :=
    List.mem_of_find?_eq_some (Option.mem_toList.mp mem)
  have header (mem : inner ∈ headerFields.filterMap node.field?) : inner ∈ node.children := by
    obtain ⟨field, -, found⟩ := List.mem_filterMap.mp mem
    exact List.mem_of_find?_eq_some found
  have filtered {p q : Concrete → Bool} (mem : inner ∈ (node.children.filter p).filter q) :
      inner ∈ node.children := List.mem_of_mem_filter (List.mem_of_mem_filter mem)
  unfold sequence at mem
  split at mem
  iterate 2 exact (List.mem_append.mp mem).elim header known
  iterate 4 exact (List.mem_append.mp mem).elim known known
  · simp only [List.mem_append] at mem
    rcases mem with ((mem | mem) | mem) | mem
    · exact known mem
    all_goals exact filtered mem
  iterate 2 exact (List.mem_append.mp mem).elim filtered filtered
  · cases mem

/-! ## What lowering picks -/

/-- These nodes stand in a node, each wholly before the next. -/
structure Picks (r : Concrete → Concrete → Prop) (node : Concrete) (nodes : List Concrete) :
    Prop where
  inside : ∀ inner ∈ nodes, inner ∈ node.preorder
  apart : nodes.Pairwise (Precedes r)

theorem Picks.nil : Picks r node [] where
  inside _ mem := absurd mem List.not_mem_nil
  apart := .nil

theorem Picks.self : Picks r node [node] where
  inside _ mem := List.mem_singleton.mp mem ▸ node.mem_preorder_self
  apart := List.pairwise_singleton _ _

/-- Picks from two children stand one behind the other, if the one child precedes the other. -/
theorem Picks.append {left right : Concrete} {later : List Concrete} (first : Picks r left nodes)
    (second : Picks r right later) (leftChild : left ∈ node.children)
    (rightChild : right ∈ node.children) (beside : Precedes r left right) :
    Picks r node (nodes ++ later) where
  inside inner mem := by
    rcases List.mem_append.mp mem with mem | mem
    · exact mem_preorder_trans (mem_preorder_of_mem_children leftChild) (first.inside inner mem)
    · exact mem_preorder_trans (mem_preorder_of_mem_children rightChild) (second.inside inner mem)
  apart := by
    refine List.pairwise_append.mpr ⟨first.apart, second.apart, fun inner mem other hother => ?_⟩
    exact beside.inside (first.inside inner mem) (second.inside other hother)

/-- Children that are taken in the order in which they stand are picks. This serves all rules that
filter the children of a node. -/
theorem Ordered.picks_of_children (ordered : node.Ordered r) (h : nodes.Sublist node.children) :
    Picks r node nodes where
  inside _ mem := mem_preorder_of_mem_children (h.subset mem)
  apart := ordered.here.children.sublist h

/-- The children that are asked for one by one are picks in the order in which they are asked
for. -/
theorem Ordered.picks_sequence (ordered : node.Ordered r) : Picks r node node.sequence where
  inside _ mem := mem_preorder_of_mem_children (mem_children_of_mem_sequence mem)
  apart := ordered.here.sequence

/-- The two sides of a link of a chain, the left one first. -/
theorem Ordered.precedes_right (ordered : node.Ordered r)
    (kind : node.kind ∈ "assignment" :: operatorKinds) {left right : Concrete}
    (hleft : node.field? "left" = some left) (hright : node.field? "right" = some right) :
    Precedes r left right := by
  have sequence : node.sequence = [left, right] := by
    simp only [operatorKinds, List.mem_cons, List.not_mem_nil, or_false] at kind
    rcases kind with kind | kind | kind <;> simp [Concrete.sequence, kind, hleft, hright]
  have apart := ordered.here.sequence
  rw [sequence] at apart
  exact List.pairwise_pair.mp apart

/-- The operands of a chain are picks: those of the left side are inside it, and the right side
comes behind it. -/
theorem Ordered.picks_operands (ordered : node.Ordered r) {word : String}
    (kind : word ∈ operatorKinds) : Picks r node (node.operands word) := by
  induction node using child_induction with
  | step node ih =>
    rcases node.operands_cases word with ⟨left, right, rfl, hleft, hright, eq⟩ | eq
    · have leftChild : left ∈ node.children := List.mem_of_find?_eq_some hleft
      have beside := ordered.precedes_right (List.mem_cons_of_mem _ kind) hleft hright
      have first := ih left leftChild (ordered.child leftChild)
      rw [eq]
      exact first.append .self leftChild (List.mem_of_find?_eq_some hright) beside
    · rw [eq]
      exact .self

/-- The targets of a chain of assignments are picks, with the last value behind them all. -/
theorem Ordered.picks_assignments (ordered : node.Ordered r) (kind : node.kind = "assignment")
    {last : Concrete} (h : node.assignments.2 = some last) :
    Picks r node (node.assignments.1 ++ [last]) := by
  induction node using child_induction with
  | step node ih =>
    obtain ⟨left, right, hleft, hright, rest⟩ := assignments_cases h
    have rightChild : right ∈ node.children := List.mem_of_find?_eq_some hright
    have beside := ordered.precedes_right (by rw [kind]; decide) hleft hright
    have further (nodes : List Concrete) (picks : Picks r right nodes) :
        Picks r node ([left] ++ nodes) :=
      Picks.self.append picks (List.mem_of_find?_eq_some hleft) rightChild beside
    rcases rest with ⟨link, -, hlast, targets⟩ | ⟨rfl, targets⟩
    · rw [targets]
      exact further _ (ih right rightChild (ordered.child rightChild) link hlast)
    · rw [targets]
      exact further _ .self

/-- The interpolations in a string are picks, those in concatenated strings among them. -/
theorem Ordered.picks_interpolations (ordered : node.Ordered r) :
    Picks r node node.interpolations := by
  induction node using child_induction with
  | step node ih =>
    have each : ∀ child ∈ node.named, Picks r child child.added := by
      intro child mem
      have mem := List.mem_of_mem_filter mem
      unfold added
      split
      next => exact .self
      next =>
        split
        next => exact ih child mem (ordered.child mem)
        next => exact .nil
    have named : Picks r node node.named := ordered.picks_of_children List.filter_sublist
    rw [interpolations_eq]
    constructor
    · intro inner mem
      obtain ⟨child, hchild, mem⟩ := List.mem_flatMap.mp mem
      exact mem_preorder_trans (named.inside child hchild) ((each child hchild).inside inner mem)
    · refine List.pairwise_flatMap.mpr ⟨fun child mem => (each child mem).apart, ?_⟩
      refine named.apart.imp_of_mem fun mem later h inner hinner other hother => ?_
      exact h.inside ((each _ mem).inside inner hinner) ((each _ later).inside other hother)

end

/-! ## Trees in the order of rows -/

/-- Every tree is ordered by the relation that always holds, so what is proved along an order says
of any tree that its lines have origins. -/
theorem ordered_true (root : Concrete) : root.Ordered fun _ _ => True := by
  have apart (node later : Concrete) : Precedes (fun _ _ => True) node later :=
    fun _ _ _ _ => trivial
  exact fun node _ => ⟨fun _ _ => trivial, List.pairwise_of_forall apart,
    List.pairwise_of_forall apart⟩

theorem preorders_eq (nodes : List Concrete) : preorders nodes = nodes.flatMap preorder := by
  induction nodes with
  | nil => rfl
  | cons node nodes ih => rw [preorders, ih, List.flatMap_cons]

/-- A node comes first, and then the trees of its children one after the other. -/
theorem preorder_eq (node : Concrete) :
    node.preorder = node :: node.children.flatMap preorder := by
  obtain ⟨tag, children⟩ := node
  rw [preorder, preorders_eq]
  rfl

/-- The nodes of a part of a tree are listed in the tree in the same order. -/
theorem preorder_sublist {root node : Concrete} (h : node ∈ root.preorder) :
    node.preorder.Sublist root.preorder := by
  induction root using child_induction with
  | step root ih =>
    rcases mem_preorder.mp h with rfl | ⟨child, mem, h⟩
    · exact List.Sublist.refl _
    · rw [preorder_eq root]
      have deeper : child.preorder.Sublist (root.children.flatMap preorder) :=
        List.sublist_flatten_of_mem (List.mem_map_of_mem mem)
      exact ((ih child mem h).trans deeper).cons _

/-- In a tree with its rows and its sequences in order, rows only go up. -/
theorem ordered_of_rows {root : Concrete}
    (rows : (root.preorder.map (·.tag.row)).Pairwise (· ≤ ·))
    (sequences : ∀ node ∈ root.preorder, node.sequence.Sublist node.children) :
    root.Ordered fun node later => node.tag.row ≤ later.tag.row := by
  intro node mem
  have sorted := (List.pairwise_map.mp rows).sublist (preorder_sublist mem)
  rw [preorder_eq, List.pairwise_cons, List.pairwise_flatMap] at sorted
  obtain ⟨above, -, children⟩ := sorted
  refine ⟨fun inner hinner => ?_, children, children.sublist (sequences node mem)⟩
  rw [preorder_eq] at hinner
  rcases List.mem_cons.mp hinner with rfl | hinner
  · exact Nat.le_refl _
  · exact above inner hinner

end Concrete

end SourceAudit
