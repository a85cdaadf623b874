import SourceAudit.Json.Basic
import SourceAudit.Tree.Basic

/-!
# The JSON form of a tree

A node is an object tagged by its member `node`; a handler has no tag, because it only stands
inside a protected block. Every field is written, in the order of the declaration, and a line, a
handled type or a bound name that is unknown is written as null.

Reading is more lenient than writing: those three may be absent, members of other names are passed
over, and a record may give its fields by place. Everything else is required, and a line is a
number of digits only. A node inside another one may give the number of its tag instead of the
word, and a kind may be an object whose only member has the word for its name and says nothing.

A value is read from the inside out. `Json.reading` says for every value at once what it is as a
node, as a list of nodes, as a handler and as a list of handlers, and the value around it picks
what its own fields ask for. So the reading follows the structure of the value and nothing else.
Which fields a record has is data: `Node.form?` gives for each tag the names and kinds of its
fields, and `Form.read?` reads every record.
-/

namespace SourceAudit

/-! ## Writing -/

/-- The word for what a definition defines. -/
def DefinitionKind.word : DefinitionKind → String
  | .functionDef => "function"
  | .classDef => "class"

/-- The word for what a literal is. -/
def LiteralKind.word : LiteralKind → String
  | .int => "int"
  | .float => "float"
  | .str => "str"
  | .bool => "bool"
  | .nothing => "none"
  | .ellipsis => "ellipsis"

/-- A line number, or null. -/
def lineJson (line : Line) : Json := Json.orNull Json.nat line

mutual

/-- The object of a node. -/
def Node.toJson : Node → Json
  | .tryBlock line body handlers orelse finalbody =>
    .obj [("node", .str "try"), ("line", lineJson line), ("body", .arr (nodesJson body)),
      ("handlers", .arr (handlersJson handlers)), ("orelse", .arr (nodesJson orelse)),
      ("finalbody", .arr (nodesJson finalbody))]
  | .definition line kind name header body =>
    .obj [("node", .str "definition"), ("line", lineJson line), ("kind", .str kind.word),
      ("name", .str name), ("header", .arr (nodesJson header)), ("body", .arr (nodesJson body))]
  | .assign line targets value =>
    .obj [("node", .str "assign"), ("line", lineJson line),
      ("targets", .arr (nodesJson targets)), ("value", value.toJson)]
  | .call line func args =>
    .obj [("node", .str "call"), ("line", lineJson line), ("func", func.toJson),
      ("args", .arr (nodesJson args))]
  | .access line value attr =>
    .obj [("node", .str "attribute"), ("line", lineJson line), ("value", value.toJson),
      ("attr", .str attr)]
  | .name line id => .obj [("node", .str "name"), ("line", lineJson line), ("id", .str id)]
  | .literal line kind text =>
    .obj [("node", .str "literal"), ("line", lineJson line), ("kind", .str kind.word),
      ("text", .str text)]
  | .tuple line elts =>
    .obj [("node", .str "tuple"), ("line", lineJson line), ("elts", .arr (nodesJson elts))]
  | .other line kind children =>
    .obj [("node", .str "other"), ("line", lineJson line), ("kind", .str kind),
      ("children", .arr (nodesJson children))]

def nodesJson : List Node → List Json
  | [] => []
  | node :: nodes => node.toJson :: nodesJson nodes

/-- The object of a handler. -/
def Handler.toJson : Handler → Json
  | .mk line typeExpr name body =>
    .obj [("line", lineJson line), ("type_expr", typeExprJson typeExpr),
      ("name", Json.orNull Json.str name), ("body", .arr (nodesJson body))]

def handlersJson : List Handler → List Json
  | [] => []
  | handler :: handlers => handler.toJson :: handlersJson handlers

def typeExprJson : Option Node → Json
  | none => .null
  | some node => node.toJson

end

/-- The object of a tree. -/
def Tree.toJson (tree : Tree) : Json :=
  .obj [("source_name", .str tree.sourceName),
    ("module", .obj [("body", .arr (nodesJson tree.body))])]

/-! ## Reading -/

/-- What a definition defines, by its word. -/
def DefinitionKind.ofWord? (word : String) : Option DefinitionKind :=
  if word = "function" then some .functionDef
  else if word = "class" then some .classDef
  else none

/-- What a literal is, by its word. -/
def LiteralKind.ofWord? (word : String) : Option LiteralKind :=
  if word = "int" then some .int
  else if word = "float" then some .float
  else if word = "str" then some .str
  else if word = "bool" then some .bool
  else if word = "none" then some .nothing
  else if word = "ellipsis" then some .ellipsis
  else none

/-- The words of the tags. The place of a word is the number of its tag. -/
def tagWords : List String :=
  ["try", "definition", "assign", "call", "attribute", "name", "literal", "tuple", "other"]

/-- The word of the tag that a value is: itself, or the one with its number. -/
def Json.tagWord? : Json → Option String
  | .str word => some word
  | .num (.natural number) => tagWords[number]?
  | _ => none

/-- The word of the kind that a value is: itself, or the name of its only member, whose value says
nothing. -/
def Json.kindWord? : Json → Option String
  | .str word => some word
  | .obj [(word, .null)] => some word
  | .obj [(word, .obj [])] => some word
  | _ => none

/-- What a value says as a part of a tree. -/
structure Reading where
  /-- The value itself. -/
  plain : Json
  /-- The node it is. -/
  node : Option Node
  /-- The nodes it lists. -/
  nodes : Option (List Node)
  /-- The handler it is. -/
  handler : Option Handler
  /-- The handlers it lists. -/
  handlers : Option (List Handler)

namespace Reading

/-- A line that may be absent or null. -/
def line? : Option Reading → Option Line
  | none => some none
  | some reading => Json.optional? Json.word? reading.plain

/-- A text that must be there. -/
def text? (field : Option Reading) : Option String := field.bind fun reading => reading.plain.text?

/-- The word of a kind that must be there. -/
def kindWord? (field : Option Reading) : Option String :=
  field.bind fun reading => reading.plain.kindWord?

/-- A node that must be there. -/
def node? (field : Option Reading) : Option Node := field.bind Reading.node

/-- A list of nodes that must be there. -/
def nodes? (field : Option Reading) : Option (List Node) := field.bind Reading.nodes

/-- A list of handlers that must be there. -/
def handlers? (field : Option Reading) : Option (List Handler) := field.bind Reading.handlers

/-- A text that may be absent or null. -/
def optionalText? : Option Reading → Option (Option String)
  | none => some none
  | some reading => Json.optional? Json.text? reading.plain

/-- A node that may be absent or null. -/
def optionalNode? : Option Reading → Option (Option Node)
  | none => some none
  | some reading =>
    match reading.plain with
    | .null => some none
    | _ => reading.node.map some

end Reading

/-- What a field of a record holds. -/
inductive FieldKind where
  | line
  | text
  | optionalText
  | definitionKind
  | literalKind
  | node
  | optionalNode
  | nodes
  | handlers

namespace FieldKind

/-- What a field is read as. -/
abbrev Part : FieldKind → Type
  | line => Line
  | text => String
  | optionalText => Option String
  | definitionKind => DefinitionKind
  | literalKind => LiteralKind
  | node => Node
  | optionalNode => Option Node
  | nodes => List Node
  | handlers => List Handler

/-- The part of a tree that a field gives. -/
def read? : (kind : FieldKind) → Option Reading → Option kind.Part
  | line, field => Reading.line? field
  | text, field => Reading.text? field
  | optionalText, field => Reading.optionalText? field
  | definitionKind, field => (Reading.kindWord? field).bind DefinitionKind.ofWord?
  | literalKind, field => (Reading.kindWord? field).bind LiteralKind.ofWord?
  | node, field => Reading.node? field
  | optionalNode, field => Reading.optionalNode? field
  | nodes, field => Reading.nodes? field
  | handlers, field => Reading.handlers? field

end FieldKind

/-- The names of the fields of a record, in the order of their places, with what each holds. -/
abbrev Schema := List (String × FieldKind)

namespace Schema

/-- What the fields of a record are read as. -/
abbrev Parts : Schema → Type
  | [] => Unit
  | (_, kind) :: schema => kind.Part × Parts schema

/-- The parts of a tree that the fields of a record give, one after the other. -/
def read? : (schema : Schema) → List (Option Reading) → Option schema.Parts
  | [], [] => some ()
  | (_, kind) :: schema, field :: fields => do
    return (← kind.read? field, ← read? schema fields)
  | _, _ => none

end Schema

/-- How a record is read: what its fields hold, and what is made of them. -/
structure Form (α : Type) where
  schema : Schema
  make : schema.Parts → α

/-- What a record gives that is read by a form. -/
def Form.read? {α : Type} (form : Form α) (record : Layout Reading) : Option α :=
  ((record.fields? (form.schema.map Prod.fst)).bind form.schema.read?).map form.make

/-- The form of the nodes with a tag. -/
def Node.form? : String → Option (Form Node)
  | "try" => some
    { schema := [("line", .line), ("body", .nodes), ("handlers", .handlers), ("orelse", .nodes),
        ("finalbody", .nodes)]
      make := fun (line, body, handlers, orelse, finalbody, _) =>
        .tryBlock line body handlers orelse finalbody }
  | "definition" => some
    { schema := [("line", .line), ("kind", .definitionKind), ("name", .text), ("header", .nodes),
        ("body", .nodes)]
      make := fun (line, kind, defined, header, body, _) =>
        .definition line kind defined header body }
  | "assign" => some
    { schema := [("line", .line), ("targets", .nodes), ("value", .node)]
      make := fun (line, targets, value, _) => .assign line targets value }
  | "call" => some
    { schema := [("line", .line), ("func", .node), ("args", .nodes)]
      make := fun (line, func, args, _) => .call line func args }
  | "attribute" => some
    { schema := [("line", .line), ("value", .node), ("attr", .text)]
      make := fun (line, value, attr, _) => .access line value attr }
  | "name" => some
    { schema := [("line", .line), ("id", .text)]
      make := fun (line, id, _) => .name line id }
  | "literal" => some
    { schema := [("line", .line), ("kind", .literalKind), ("text", .text)]
      make := fun (line, kind, text, _) => .literal line kind text }
  | "tuple" => some
    { schema := [("line", .line), ("elts", .nodes)]
      make := fun (line, elts, _) => .tuple line elts }
  | "other" => some
    { schema := [("line", .line), ("kind", .text), ("children", .nodes)]
      make := fun (line, kind, children, _) => .other line kind children }
  | _ => none

/-- The form of handlers. -/
def Handler.form : Form Handler where
  schema := [("line", .line), ("type_expr", .optionalNode), ("name", .optionalText),
    ("body", .nodes)]
  make := fun (line, typeExpr, name, body, _) => .mk line typeExpr name body

/-- The node that a tagged record is. -/
def Node.ofTagged? (record : Layout Reading) : Option Node := do
  let (tag, record) ← record.tagged? "node"
  let form ← Node.form? (← tag.plain.tagWord?)
  form.read? record

mutual

/-- What a value says as a part of a tree. -/
def Json.reading : Json → Reading
  | .arr items =>
    let inner := readings items
    ⟨.arr items, Node.ofTagged? (.placed inner), inner.mapM Reading.node,
      Handler.form.read? (.placed inner), inner.mapM Reading.handler⟩
  | .obj members =>
    let inner := memberReadings members
    ⟨.obj members, Node.ofTagged? (.named inner), none, Handler.form.read? (.named inner), none⟩
  | .null => ⟨.null, none, none, none, none⟩
  | .bool value => ⟨.bool value, none, none, none, none⟩
  | .num value => ⟨.num value, none, none, none, none⟩
  | .str value => ⟨.str value, none, none, none, none⟩

def readings : List Json → List Reading
  | [] => []
  | item :: items => item.reading :: readings items

def memberReadings : List (String × Json) → List (String × Reading)
  | [] => []
  | (key, value) :: members => (key, value.reading) :: memberReadings members

end

/-- Whether a value is a record that gives its tag as a word. -/
def Json.hasWordTag (value : Json) : Bool :=
  ((value.layout?.bind (·.tagged? "node")).bind fun (tag, _) => tag.text?).isSome

/-- The node that a value is by itself, inside no other node. -/
def Node.ofJson? (value : Json) : Option Node :=
  if value.hasWordTag then value.reading.node else none

/-- The statements that a module record holds. -/
def moduleBody? (value : Json) : Option (List Node) := do
  match (← value.layout?).fields? ["body"] with
  | some [some body] => (← body.items?).mapM Node.ofJson?
  | _ => none

/-- The tree that a value is. -/
def Tree.ofJson? (value : Json) : Option Tree := do
  match (← value.layout?).fields? ["source_name", "module"] with
  | some [some sourceName, some module] =>
    return ⟨← sourceName.text?, ← moduleBody? module⟩
  | _ => none

end SourceAudit
