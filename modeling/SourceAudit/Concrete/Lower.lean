import SourceAudit.Concrete.Search
import SourceAudit.ParseError
import SourceAudit.Tree.Basic

/-!
# From the concrete tree to the syntax tree

A source is refused at the first bad node of its concrete tree. Otherwise each statement is
lowered, and lowering may still refuse: a few constructs of the grammar are no longer part of the
language, and a tree may not nest deeper than `nestingLimit`.

Each construct is lowered from its parts one level further in. So the rule for a construct, here
`lowerKind`, takes the lowering of the parts as an argument, and `lower` closes the knot by
recursion on the levels that are left. Chains are the exception that keeps trees flat: the operands
of `a + b + c` and the targets of `a = b = c` are read off the concrete tree first, by
`Concrete.operands` and `Concrete.assignments`, and all lie on the same level.

Order matters where two things are wrong: the parts of a construct are lowered in the order in
which the rules name them, and the first refusal is the answer.
-/

namespace SourceAudit

/-- A text under a name. -/
structure Source where
  name : String
  text : String
  deriving DecidableEq, Repr

namespace Source

/-- The bytes from `start` up to `stop`, as text; bytes that are no text give none. -/
def slice (source : Source) (start stop : Nat) : String :=
  (String.fromUTF8? (source.text.toUTF8.extract start stop)).getD ""

/-- The text of a node. -/
def textOf (source : Source) (node : Concrete) : String :=
  source.slice node.tag.start node.tag.stop

/-- The error with the cause `fault` at a node. -/
def errorAt (source : Source) (node : Concrete) (fault : Fault) : ParseError :=
  ⟨source.name, fault, some ⟨node.tag.row + 1, node.tag.column + 1, node.tag.start⟩⟩

end Source

/-! ## Reading the concrete tree -/

mutual

/-- The operands of a chain of the operator `kind`, which nests to the left. -/
def Concrete.operands (kind : String) : Concrete → List Concrete
  | .mk tag children =>
    if tag.kind = kind && children.any (Concrete.hasField "left") then
      match children.find? (Concrete.hasField "right") with
      | some right => leftOperands kind children ++ [right]
      | none => [.mk tag children]
    else [.mk tag children]

/-- The operands of the child known as `left`. -/
def leftOperands (kind : String) : List Concrete → List Concrete
  | [] => []
  | child :: children =>
    if child.hasField "left" then child.operands kind else leftOperands kind children

end

mutual

/-- The targets of a chain of assignments, which nests to the right, and the value at its end; a
chain that breaks off has no value. -/
def Concrete.assignments : Concrete → List Concrete × Option Concrete
  | .mk _ children =>
    match children.find? (Concrete.hasField "left"), rightAssignments children with
    | some left, some (targets, value) => (left :: targets, value)
    | _, _ => ([], none)

/-- What the child known as `right` adds to a chain: more of it, if that is an assignment without
an annotation, or else its value. -/
def rightAssignments : List Concrete → Option (List Concrete × Option Concrete)
  | [] => none
  | child :: children =>
    if child.hasField "right" then
      if child.kind = "assignment" && (child.field? "type").isNone then some child.assignments
      else some ([], some child)
    else rightAssignments children

end

mutual

/-- The interpolations of a formatted string, those of its parts in their places. -/
def Concrete.interpolations : Concrete → List Concrete
  | .mk _ children => childInterpolations children

/-- The interpolations among children: named nodes of that kind, and those of strings. -/
def childInterpolations : List Concrete → List Concrete
  | [] => []
  | child :: children =>
    (if !child.tag.named then []
      else if child.kind = "interpolation" then [child]
      else if child.kind = "string" then child.interpolations
      else []) ++ childInterpolations children

end

/-- Whether a string starts with a run of letters that holds an `f`. -/
def hasFormatMark (text : String) : Bool :=
  (text.toList.takeWhile Char.isAlpha).any fun c => c = 'f' || c = 'F'

/-- Whether a string is formatted; a concatenation is if one of its parts is. -/
def Source.isFormatted (source : Source) (node : Concrete) : Bool :=
  if node.kind = "concatenated_string" then
    node.named.any fun part => part.kind = "string" && hasFormatMark (source.textOf part)
  else hasFormatMark (source.textOf node)

/-! ## Lowering one construct -/

/-- How a part of a construct is lowered. -/
abbrev Lowering := Concrete → Except ParseError Node

section

variable (source : Source) (lower : Lowering)

/-- The parts of a node, lowered in order. -/
def lowerParts (node : Concrete) : Except ParseError (List Node) := node.parts.mapM lower

/-- A construct without a rule of its own. -/
def lowerOther (node : Concrete) : Except ParseError Node :=
  return .other node.line node.kind (← lowerParts lower node)

/-- A literal, kept as it is written. -/
def lowerLiteral (node : Concrete) (kind : LiteralKind) : Node :=
  .literal node.line kind (source.textOf node)

/-- A chain of one operator becomes one node with all operands. -/
def lowerOperators (node : Concrete) : Except ParseError Node :=
  match node.field? "left", node.field? "right" with
  | some _, some _ =>
    return .other node.line node.kind (← (node.operands node.kind).mapM lower)
  | _, _ => lowerOther lower node

/-- `print >> f, x` shifts the name `print`, and is a tuple if more follows. Every other `print`
statement is refused. -/
def lowerPrint (node : Concrete) : Except ParseError Node :=
  match node.parts with
  | [] => .error (source.errorAt node .printStatement)
  | first :: rest =>
    if first.kind = "chevron" then do
      let operands ← lowerParts lower first
      let shift := Node.other node.line "binary_operator" (.name node.line "print" :: operands)
      let rest ← rest.mapM lower
      return if rest.isEmpty then shift else .tuple node.line (shift :: rest)
    else .error (source.errorAt node .printStatement)

/-- The statements of the block in a clause. -/
def lowerClauseBody (clause : Concrete) : Except ParseError (List Node) :=
  match clause.named.find? (·.kind = "block") with
  | some block => lowerParts lower block
  | none => return []

/-- What has been read of a handler: its statements, and the expressions before them. -/
structure HandlerParts where
  body : List Node
  exprs : List Concrete

/-- Reads one more child of a handler. A comma between its types is refused. -/
def lowerHandlerChild (parts : HandlerParts) (child : Concrete) :
    Except ParseError HandlerParts :=
  if child.kind = "," then .error (source.errorAt child .bareTypes)
  else if !child.isPart then return parts
  else if child.kind = "block" then return { parts with body := ← lowerParts lower child }
  else return { parts with exprs := parts.exprs ++ [child] }

/-- The type that a handler takes: its first expression, without the name bound in it. -/
def lowerHandlerType (exprs : List Concrete) : Except ParseError (Option Node) :=
  match exprs with
  | [] => return none
  | first :: _ =>
    if first.kind = "as_pattern" then
      match first.parts with
      | [] => return none
      | type :: _ => return some (← lower type)
    else return some (← lower first)

/-- The name that a handler binds: its second expression, or the name inside the first. -/
def handlerName (exprs : List Concrete) : Option String :=
  match exprs with
  | [] => none
  | [first] =>
    if first.kind = "as_pattern" then (first.field? "alias").map source.textOf else none
  | _ :: second :: _ => some (source.textOf second)

/-- One handler. -/
def lowerHandler (clause : Concrete) : Except ParseError Handler := do
  let parts ← clause.children.foldlM (lowerHandlerChild source lower) ⟨[], []⟩
  let typeExpr ← lowerHandlerType lower parts.exprs
  return .mk clause.line typeExpr (handlerName source parts.exprs) parts.body

/-- What has been read of the clauses of a protected block. -/
structure Clauses where
  handlers : List Handler
  orelse : List Node
  finalbody : List Node

/-- Reads one more clause. -/
def lowerClause (clauses : Clauses) (clause : Concrete) : Except ParseError Clauses :=
  if clause.kind = "except_clause" || clause.kind = "except_group_clause" then
    return { clauses with handlers := clauses.handlers ++ [← lowerHandler source lower clause] }
  else if clause.kind = "else_clause" then
    return { clauses with orelse := ← lowerClauseBody lower clause }
  else if clause.kind = "finally_clause" then
    return { clauses with finalbody := ← lowerClauseBody lower clause }
  else return clauses

/-- The parts of the node known as `field`, if there is one. -/
def lowerField (field : String) (node : Concrete) : Except ParseError (List Node) :=
  match node.field? field with
  | some inner => lowerParts lower inner
  | none => return []

/-- A protected block: its body, then its clauses in order. -/
def lowerTry (node : Concrete) : Except ParseError Node := do
  let body ← lowerField lower "body" node
  let clauses ← node.named.foldlM (lowerClause source lower) ⟨[], [], []⟩
  return .tryBlock node.line body clauses.handlers clauses.orelse clauses.finalbody

/-- The fields of a definition that make its header. -/
def headerFields : List String := ["type_parameters", "parameters", "superclasses", "return_type"]

/-- A function or class. -/
def lowerDefinition (node : Concrete) (kind : DefinitionKind) : Except ParseError Node := do
  let header ← (headerFields.filterMap fun field => node.field? field).mapM lower
  let body ← lowerField lower "body" node
  let name := (node.field? "name").map source.textOf
  return .definition node.line kind (name.getD "") header body

/-- A statement that is an expression is that expression; several make a tuple. -/
def lowerExpressionStatement (node : Concrete) : Except ParseError Node := do
  match ← lowerParts lower node with
  | [] => lowerOther lower node
  | [only] => return only
  | several => return .tuple node.line several

/-- A chain of assignments becomes one node with every target. An annotated assignment and a chain
that breaks off have no rule of their own. -/
def lowerAssignment (node : Concrete) : Except ParseError Node :=
  match node.field? "type" with
  | some _ => return .other node.line "annotated_assignment" (← lowerParts lower node)
  | none => do
    let (targets, value) := node.assignments
    let targets ← targets.mapM lower
    match value with
    | some value => return .assign node.line targets (← lower value)
    | none => lowerOther lower node

/-- The arguments of a call; what stands in place of their list is the only argument. -/
def lowerArguments (node : Concrete) : Except ParseError (List Node) :=
  match node.field? "arguments" with
  | some arguments =>
    if arguments.kind = "argument_list" then lowerParts lower arguments
    else return [← lower arguments]
  | none => return []

/-- A call: its arguments, then what is called. -/
def lowerCall (node : Concrete) : Except ParseError Node :=
  match node.field? "function" with
  | some function => do
    let args ← lowerArguments lower node
    return .call node.line (← lower function) args
  | none => lowerOther lower node

/-- Attribute access. -/
def lowerAccess (node : Concrete) : Except ParseError Node :=
  match node.field? "object", node.field? "attribute" with
  | some object, some attr => return .access node.line (← lower object) (source.textOf attr)
  | _, _ => lowerOther lower node

/-- Parentheses leave no trace. -/
def lowerParenthesized (node : Concrete) : Except ParseError Node :=
  match node.parts with
  | inner :: _ => lower inner
  | [] => lowerOther lower node

/-- A plain string is a literal. A formatted one keeps its interpolations, even if it has none. -/
def lowerString (node : Concrete) : Except ParseError Node :=
  if source.isFormatted node then
    return .other node.line node.kind (← node.interpolations.mapM (lowerOther lower))
  else return lowerLiteral source node .str

/-- A construct, from the lowering of its parts. -/
def lowerKind (node : Concrete) : Except ParseError Node :=
  match node.kind with
  | "try_statement" => lowerTry source lower node
  | "function_definition" => lowerDefinition source lower node .functionDef
  | "class_definition" => lowerDefinition source lower node .classDef
  | "expression_statement" => lowerExpressionStatement lower node
  | "assignment" => lowerAssignment lower node
  | "call" => lowerCall lower node
  | "attribute" => lowerAccess source lower node
  | "identifier" => return .name node.line (source.textOf node)
  | "integer" => return lowerLiteral source node .int
  | "float" => return lowerLiteral source node .float
  | "true" | "false" => return lowerLiteral source node .bool
  | "none" => return lowerLiteral source node .nothing
  | "ellipsis" => return lowerLiteral source node .ellipsis
  | "string" | "concatenated_string" => lowerString source lower node
  | "tuple" | "expression_list" | "pattern_list" | "tuple_pattern" =>
    return .tuple node.line (← lowerParts lower node)
  | "parenthesized_expression" => lowerParenthesized lower node
  | "binary_operator" | "boolean_operator" => lowerOperators lower node
  | "print_statement" => lowerPrint source lower node
  | "exec_statement" => .error (source.errorAt node .execStatement)
  | _ => lowerOther lower node

end

/-! ## Lowering a source -/

/-- The most levels a tree may nest. -/
def nestingLimit : Nat := 200

/-- A construct with `levels` levels left for it and what is inside it. -/
def lower (source : Source) : Nat → Concrete → Except ParseError Node
  | 0, node => .error (source.errorAt node .tooDeep)
  | levels + 1, node => lowerKind source (lower source levels) node

/-- What is wrong with a bad node. -/
def Concrete.fault (node : Concrete) : Fault :=
  if node.tag.missing then .missing node.kind else .invalid

/-- The syntax tree of a source with the concrete tree `root`. -/
def Tree.ofConcrete (source : Source) (root : Concrete) : Except ParseError Tree :=
  match root.firstBad? with
  | some bad => .error (source.errorAt bad bad.fault)
  | none => return ⟨source.name, ← lowerParts (lower source nestingLimit) root⟩

/-- Turns a text under a name into a tree, or says why it cannot. -/
abbrev Provider := String → String → Except ParseError Tree

/-- The provider that lowers what a grammar gives. -/
def Grammar.provider (grammar : Grammar) : Provider := fun text name =>
  Tree.ofConcrete ⟨name, text⟩ (grammar text)

end SourceAudit
