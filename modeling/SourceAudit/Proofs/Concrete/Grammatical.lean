import SourceAudit.Proofs.Concrete.Lower

/-!
# What the grammar promises

A concrete tree is any tree of tagged nodes, and lowering takes each of them. Most rules of lowering
do not look at every part of a construct: they ask for fields, for kinds, for the first part. That
nothing is lost by this is owed to the grammar, which gives each of these constructs few shapes.
This module says which shapes (`Concrete.Regular`), and a tree with no other is `Grammatical`.

The promises are as weak as they can be. Where lowering passes over a part, as over the name of a
definition or the name a handler binds, the promise is only that no call stands in it
(`Concrete.Callless`). Where lowering takes every part, nothing is promised at all.
-/

namespace SourceAudit

namespace Concrete

/-- Whether a node is a call; one that does not say what is called is none. -/
def isCall (node : Concrete) : Bool := node.kind = "call" && (node.field? "function").isSome

/-- No call stands in a node. -/
def Callless (node : Concrete) : Prop := node.Everywhere (·.isCall = false)

/-- The kinds of nodes that are pieces of one construct and stand nowhere else. -/
def pieceKinds : List String :=
  ["block", "except_clause", "except_group_clause", "else_clause", "finally_clause", "string",
    "interpolation"]

/-- A clause that holds a block and nothing else. -/
def IsBlockClause (clause : Concrete) : Prop := ∃ block, clause.parts = [block] ∧ block.isBlock

/-- A handler: expressions and then a block. Calls stand in the first expression only, and if that
binds a name, in what it binds the name to. -/
def IsHandlerClause (clause : Concrete) : Prop :=
  ∃ exprs block, clause.parts = exprs ++ [block] ∧ block.isBlock ∧
    (∀ expr ∈ exprs, expr.isBlock = false) ∧ (∀ expr ∈ exprs.tail, expr.Callless) ∧
    ∀ first ∈ exprs.head?, first.kind = "as_pattern" → ∀ bound ∈ first.parts.tail, bound.Callless

/-- The parts of a protected block: its body, its handlers, at most one clause for when nothing was
raised, and at most one for the end. -/
structure TryParts (node body : Concrete) (handlers : List Concrete)
    (orelse finalbody : Option Concrete) : Prop where
  parts : node.parts = [body] ++ handlers ++ orelse.toList ++ finalbody.toList
  isBody : node.field? "body" = some body ∧ body.isBlock
  isHandler : ∀ clause ∈ handlers, clause.isClause .handler ∧ clause.IsHandlerClause
  isElse : ∀ clause ∈ orelse, clause.isClause .orelse ∧ clause.IsBlockClause
  isFinally : ∀ clause ∈ finalbody, clause.isClause .finalbody ∧ clause.IsBlockClause

/-- A definition: its name, what its header has, and its body. -/
def IsDefinition (node : Concrete) : Prop :=
  node.parts = (node.field? "name").toList ++ headerFields.filterMap node.field? ++
      (node.field? "body").toList ∧
    (∀ name ∈ node.field? "name", name.Callless) ∧ ∀ body ∈ node.field? "body", body.isBlock

/-- A string: calls stand in its interpolations and in the strings it is made of, and only if it is
formatted. -/
def IsString (source : Source) (node : Concrete) : Prop :=
  (source.isFormatted node = false → node.Callless) ∧
    ∀ part ∈ node.parts, part.kind ≠ "interpolation" → part.kind ≠ "string" → part.Callless

/-- A node has a shape that the grammar gives to its kind. -/
structure Regular (source : Source) (node : Concrete) : Prop where
  /-- What may stand anywhere is no piece of a construct. -/
  extra : ∀ child ∈ node.named, child.tag.extra → child.kind ∉ pieceKinds
  atom : node.kind ∈ "identifier" :: literalKinds → node.Callless
  parenthesized : node.kind = "parenthesized_expression" → node.parts.length ≤ 1
  operator : node.kind ∈ operatorKinds → ∀ {left right}, node.field? "left" = some left →
    node.field? "right" = some right → node.parts = [left, right]
  assignment : node.kind = "assignment" → node.field? "type" = none →
    ∀ {left right}, node.field? "left" = some left → node.field? "right" = some right →
      node.parts = [left, right]
  call : node.kind = "call" → ∀ {function}, node.field? "function" = some function →
    node.parts = function :: (node.field? "arguments").toList
  access : node.kind = "attribute" → ∀ {object name}, node.field? "object" = some object →
    node.field? "attribute" = some name → node.parts = [object, name] ∧ name.Callless
  definition : node.kind ∈ definitionKinds → node.IsDefinition
  protectedBlock : node.kind = "try_statement" →
    ∃ body handlers orelse finalbody, node.TryParts body handlers orelse finalbody
  string : node.kind ∈ stringKinds → node.IsString source

/-- Every node of a tree has a shape that the grammar gives to its kind. -/
def Grammatical (source : Source) (node : Concrete) : Prop := node.Everywhere (Regular source)

section

variable {source : Source} {node : Concrete}

/-- A tree is grammatical if its root has a regular shape and its parts are grammatical. -/
theorem Grammatical.of_parts (regular : Regular source node)
    (parts : ∀ part ∈ node.parts, part.Grammatical source) : node.Grammatical source :=
  everywhere_iff.mpr ⟨regular, parts⟩

/-- The kinds that have few shapes. -/
def shapedKinds : List String :=
  ["identifier", "parenthesized_expression", "assignment", "call", "attribute", "try_statement"] ++
    literalKinds ++ operatorKinds ++ definitionKinds ++ stringKinds

/-- A node without extra children keeps the promise about them. -/
theorem extra_of_all (plain : node.children.all (!·.tag.extra)) :
    ∀ child ∈ node.named, child.tag.extra → child.kind ∉ pieceKinds := by
  intro child mem extra
  have := List.all_eq_true.mp plain child (List.mem_of_mem_filter mem)
  simp [extra] at this

/-- A node of any other kind has any shape. -/
theorem Regular.of_kind (kind : String) (same : node.kind = kind) (other : kind ∉ shapedKinds)
    (plain : node.children.all (!·.tag.extra)) : Regular source node := by
  simp only [shapedKinds, List.mem_append, List.mem_cons, List.not_mem_nil, or_false,
    not_or] at other
  constructor
  case extra => exact extra_of_all plain
  all_goals simp [same, other]

end

end Concrete

end SourceAudit
