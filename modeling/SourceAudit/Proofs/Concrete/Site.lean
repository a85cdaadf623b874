import Mathlib.Data.List.Basic
import SourceAudit.Concrete.Basic
import SourceAudit.Proofs.Tree.Site

/-!
# Sites of a concrete tree

The concrete tree is read through its **parts**: the named nodes that do not stand where they stand
by accident. A site is a node with the way to it from part to part, and `Concrete.sites` lists a
node before its parts, one part after the other.

The protected blocks of a concrete tree are its `try_statement` nodes. Which clause of such a node a
part belongs to is said by the kind of the part (`Concrete.clauseIn?`), so the clauses around a site
are read off its path here as they are in the syntax tree.
-/

namespace SourceAudit

namespace Concrete

/-- A construct without faults, on the line `row` that begins at byte `first`. -/
def construct (row first : Nat) (kind : String) (fields : List String) (start stop : Nat)
    (children : List Concrete) : Concrete :=
  .mk ⟨kind, fields, true, false, false, false, start, stop, row, start - first⟩ children

/-- A token without faults, on the line `row` that begins at byte `first`. -/
def token (row first : Nat) (text : String) (start : Nat) : Concrete :=
  .mk ⟨text, [], false, false, false, false, start, start + text.length, row, start - first⟩ []

/-- One step of a path: the node that is entered, and the part of it that is entered next. -/
structure Step where
  around : Concrete
  part : Concrete

/-- A node of a concrete tree and the way to it. -/
structure Site where
  /-- The steps to the node, the innermost first. -/
  path : List Step
  node : Concrete

/-- Whether a node is a block of statements. -/
def isBlock (node : Concrete) : Bool := node.kind = "block"

/-- Whether a node is of the kind that a clause of a protected block has. -/
def isClause (clause : Clause) (node : Concrete) : Bool :=
  match clause with
  | .body => node.isBlock
  | .handler => node.kind = "except_clause" || node.kind = "except_group_clause"
  | .orelse => node.kind = "else_clause"
  | .finalbody => node.kind = "finally_clause"

/-- The clause of a protected block that a part of it belongs to. -/
def clauseIn? (around part : Concrete) : Option Clause :=
  if around.kind = "try_statement" then
    [.body, .handler, .orelse, .finalbody].find? (part.isClause ·)
  else none

/-- No node is of the kind of two clauses. -/
theorem isClause_of_ne {node : Concrete} {clause other : Clause} (h : node.isClause clause)
    (ne : clause ≠ other) : node.isClause other = false := by
  cases clause <;> cases other <;> first
    | exact absurd rfl ne
    | simp only [isClause, isBlock, Bool.or_eq_true, decide_eq_true_eq] at h
      rcases h with kind | kind <;> simp [isClause, isBlock, kind]
    | simp only [isClause, isBlock, decide_eq_true_eq] at h
      simp [isClause, isBlock, h]

/-- A part of a protected block belongs to the clause that it is of the kind of, whichever kinds are
asked for first. -/
theorem clauseIn?_eq_some {around part : Concrete} {clause : Clause}
    (kind : around.kind = "try_statement") (h : part.isClause clause) :
    around.clauseIn? part = some clause := by
  have others : ∀ {other}, clause ≠ other → part.isClause other = false := isClause_of_ne h
  rw [clauseIn?, if_pos kind]
  cases clause with
  | body => simp [h]
  | handler => simp [others (by decide : _ ≠ .body), h]
  | orelse => simp [others (by decide : _ ≠ .body), others (by decide : _ ≠ .handler), h]
  | finalbody =>
    simp [others (by decide : _ ≠ .body), others (by decide : _ ≠ .handler),
      others (by decide : _ ≠ .orelse), h]

/-- The clauses of the protected blocks around a site, the innermost first. -/
def Site.clauses (site : Site) : List Clause :=
  site.path.filterMap fun step => step.around.clauseIn? step.part

/-- A site seen from further out. -/
def Site.under (path : List Step) (site : Site) : Site := ⟨site.path ++ path, site.node⟩

theorem sizeOf_lt_of_mem_parts {node part : Concrete} (h : part ∈ node.parts) :
    sizeOf part < sizeOf node := by
  obtain ⟨tag, children⟩ := node
  have inside : sizeOf part < sizeOf children := List.sizeOf_lt_of_mem (List.mem_of_mem_filter h)
  simp only [mk.sizeOf_spec]
  omega

/-- What holds of a node whenever it holds of its parts holds of every node. -/
theorem part_induction {P : Concrete → Prop}
    (step : ∀ node : Concrete, (∀ part ∈ node.parts, P part) → P node) (node : Concrete) :
    P node :=
  step node fun part _ => part_induction step part
  termination_by sizeOf node
  decreasing_by exact sizeOf_lt_of_mem_parts ‹_›

/-- The sites of a node that is reached by `path`, in document order. -/
def sites (path : List Step) (node : Concrete) : List Site :=
  ⟨path, node⟩ :: node.parts.attach.flatMap fun ⟨part, _⟩ => part.sites (⟨node, part⟩ :: path)
  termination_by sizeOf node
  decreasing_by exact sizeOf_lt_of_mem_parts ‹_›

/-- A node comes first, and then the sites of its parts, one part after the other. -/
theorem sites_eq (path : List Step) (node : Concrete) :
    node.sites path =
      ⟨path, node⟩ :: node.parts.flatMap fun part => part.sites (⟨node, part⟩ :: path) := by
  rw [sites, List.flatMap_subtype fun _ _ => rfl, List.unattach_attach]

/-- The path to a node only goes to the end of the paths of its sites. -/
theorem sites_under (path : List Step) (node : Concrete) :
    node.sites path = (node.sites []).map (Site.under path) := by
  induction node using part_induction generalizing path with
  | step node ih =>
    rw [sites_eq, sites_eq [], List.map_cons, List.map_flatMap]
    congr 1
    refine List.flatMap_congr fun part mem => ?_
    rw [ih part mem, ih part mem [⟨node, part⟩], List.map_map]
    refine List.map_congr_left fun site _ => ?_
    simp only [Function.comp_apply, Site.under, List.append_assoc, List.singleton_append]

/-- The sites of the statements of a source, given the root of its concrete tree. -/
def statementSites (root : Concrete) : List Site := root.parts.flatMap (·.sites [])

/-- A property of every node that is reached from a node by parts, the node itself included. -/
def Everywhere (P : Concrete → Prop) (node : Concrete) : Prop := ∀ site ∈ node.sites [], P site.node

/-- What holds everywhere in a node holds of it and everywhere in its parts. -/
theorem everywhere_iff {P : Concrete → Prop} {node : Concrete} :
    node.Everywhere P ↔ P node ∧ ∀ part ∈ node.parts, part.Everywhere P := by
  unfold Everywhere
  rw [sites_eq, List.forall_mem_cons, List.forall_mem_flatMap]
  refine and_congr_right fun _ => forall₂_congr fun part _ => ?_
  rw [sites_under, List.forall_mem_map]
  rfl

theorem Everywhere.here {P : Concrete → Prop} {node : Concrete} (h : node.Everywhere P) : P node :=
  (everywhere_iff.mp h).1

theorem Everywhere.part {P : Concrete → Prop} {node part : Concrete} (h : node.Everywhere P)
    (mem : part ∈ node.parts) : part.Everywhere P :=
  (everywhere_iff.mp h).2 part mem

end Concrete

end SourceAudit
