import Mathlib.Data.List.Basic
import SourceAudit.Tree.Json

/-!
# The JSON form of a tree loses nothing

A line number is the only thing in a tree that its JSON form cannot always hold: a line is read only
below `Json.wordBound`. `Node.lines` lists the line numbers in a node, and a tree whose lines all
fit is read back from its own JSON form. What is read has lines that fit, so whatever was read once
can be written and read again. That is proved of the kinds of fields, and of a record because its
form keeps the lines of its fields and adds none (`Form.Keeps`).
-/

namespace SourceAudit

/-! ## The lines in a tree -/

mutual

/-- The line numbers in a node. -/
def Node.lines : Node → List Nat
  | .tryBlock line body handlers orelse finalbody =>
    line.toList ++ nodesLines body ++ handlersLines handlers ++ nodesLines orelse ++
      nodesLines finalbody
  | .definition line _ _ header body => line.toList ++ nodesLines header ++ nodesLines body
  | .assign line targets value => line.toList ++ nodesLines targets ++ value.lines
  | .call line func args => line.toList ++ func.lines ++ nodesLines args
  | .access line value _ => line.toList ++ value.lines
  | .name line _ => line.toList
  | .literal line _ _ => line.toList
  | .tuple line elts => line.toList ++ nodesLines elts
  | .other line _ children => line.toList ++ nodesLines children

def nodesLines : List Node → List Nat
  | [] => []
  | node :: nodes => node.lines ++ nodesLines nodes

/-- The line numbers in a handler. -/
def Handler.lines : Handler → List Nat
  | .mk line typeExpr _ body => line.toList ++ typeExprLines typeExpr ++ nodesLines body

def handlersLines : List Handler → List Nat
  | [] => []
  | handler :: handlers => handler.lines ++ handlersLines handlers

def typeExprLines : Option Node → List Nat
  | none => []
  | some node => node.lines

end

/-- Line numbers that can be read back. -/
def Fit (lines : List Nat) : Prop := ∀ line ∈ lines, line < Json.wordBound

theorem fit_append {lines more : List Nat} : Fit (lines ++ more) ↔ Fit lines ∧ Fit more :=
  List.forall_mem_append

/-- Every line number in a tree can be read back. -/
def Tree.LinesFit (tree : Tree) : Prop := Fit (nodesLines tree.body)

/-! ## Writing, then reading -/

theorem DefinitionKind.ofWord?_word (kind : DefinitionKind) : ofWord? kind.word = some kind := by
  cases kind <;> rfl

theorem LiteralKind.ofWord?_word (kind : LiteralKind) : ofWord? kind.word = some kind := by
  cases kind <;> rfl

/-- A line that fits is read back from its number, and an unknown one from null. This is the only
field for which something has to be assumed. -/
theorem Reading.line?_lineJson {line : Line} (fit : Fit line.toList) :
    Reading.line? (some (lineJson line).reading) = some line := by
  cases line with
  | none => rfl
  | some number =>
    have small : number < Json.wordBound := fit number (List.mem_singleton_self number)
    show (Json.word? (Json.nat number)).map some = some (some number)
    rw [Json.nat, Json.word?, if_pos small]
    rfl

/-- A name that is bound is read back from its text, and none from null. -/
theorem Reading.optionalText?_orNull (name : Option String) :
    Reading.optionalText? (some (Json.orNull Json.str name).reading) = some name := by
  cases name <;> rfl

@[simp] theorem Reading.text?_str (text : String) :
    Reading.text? (some (Json.str text).reading) = some text := rfl

@[simp] theorem Reading.kindWord?_str (word : String) :
    Reading.kindWord? (some (Json.str word).reading) = some word := rfl

@[simp] theorem Reading.node?_some (value : Json) :
    Reading.node? (some value.reading) = value.reading.node := rfl

@[simp] theorem Reading.nodes?_arr (items : List Json) :
    Reading.nodes? (some (Json.arr items).reading) = (readings items).mapM Reading.node := rfl

@[simp] theorem Reading.handlers?_arr (items : List Json) :
    Reading.handlers? (some (Json.arr items).reading) = (readings items).mapM Reading.handler :=
  rfl

/-- To look a member up and to read it can be done in either order. -/
theorem lookup_memberReadings (members : List (String × Json)) (name : String) :
    (memberReadings members).lookup name = (members.lookup name).map Json.reading := by
  induction members with
  | nil => rfl
  | cons member members ih =>
    obtain ⟨key, value⟩ := member
    rw [memberReadings, List.lookup_cons, List.lookup_cons, ih]
    split
    next => rfl
    next => rfl

/-- An object gives for every name what it has under it, read, and nothing where it has nothing. No
object lacks fields as such. -/
theorem Layout.fields?_memberReadings (names : List String) (members : List (String × Json)) :
    Layout.fields? names (.named (memberReadings members)) =
      some (names.map fun name => (members.lookup name).map Json.reading) := by
  show some (names.map fun name => (memberReadings members).lookup name) = _
  simp only [lookup_memberReadings]

/-- An object gives a form what it has under the names of the fields. -/
theorem Form.read?_memberReadings {α : Type} (form : Form α) (members : List (String × Json)) :
    form.read? (.named (memberReadings members)) =
      (form.schema.read? (form.schema.map fun (name, _) =>
        (members.lookup name).map Json.reading)).map form.make := by
  rw [Form.read?, Layout.fields?_memberReadings, List.map_map]
  rfl

/-- An object is read as the node with the tag that it gives. -/
theorem Json.node_reading_obj {members : List (String × Json)} {tag : String} {form : Form Node}
    (tagged : members.lookup "node" = some (.str tag)) (known : Node.form? tag = some form) :
    (Json.obj members).reading.node = form.read? (.named (memberReadings members)) := by
  have found : (memberReadings members).lookup "node" = some (Json.str tag).reading := by
    rw [lookup_memberReadings, tagged]
    rfl
  show (((memberReadings members).lookup "node").map _ >>= _) = _
  rw [found]
  show ((Node.form? tag).bind fun form => form.read? _) = _
  rw [known]
  rfl

/-- A node is always written as an object, so it is never taken for a null that stands for an
unknown type. -/
theorem Node.exists_toJson_eq_obj (node : Node) : ∃ members, node.toJson = .obj members := by
  cases node <;> exact ⟨_, by rw [Node.toJson]⟩

mutual

/-- A node whose lines fit is read back from its object. The induction is on the node, and each
constructor goes through the fields of its form. -/
theorem Node.reading_toJson : ∀ {node : Node}, Fit node.lines →
    node.toJson.reading.node = some node
  | .tryBlock line body handlers orelse finalbody, fit => by
    simp only [Node.lines, fit_append] at fit
    obtain ⟨⟨⟨⟨fitLine, fitBody⟩, fitHandlers⟩, fitElse⟩, fitFinal⟩ := fit
    have hline := Reading.line?_lineJson fitLine
    have hbody := reading_nodesJson fitBody
    have hhandlers := reading_handlersJson fitHandlers
    have helse := reading_nodesJson fitElse
    have hfinal := reading_nodesJson fitFinal
    rw [Node.toJson, Json.node_reading_obj rfl rfl, Form.read?_memberReadings]
    simp [Schema.read?, FieldKind.read?, List.lookup_cons, hline, hbody, hhandlers,
      helse, hfinal]
  | .definition line kind name header body, fit => by
    simp only [Node.lines, fit_append] at fit
    obtain ⟨⟨fitLine, fitHeader⟩, fitBody⟩ := fit
    have hline := Reading.line?_lineJson fitLine
    have hheader := reading_nodesJson fitHeader
    have hbody := reading_nodesJson fitBody
    rw [Node.toJson, Json.node_reading_obj rfl rfl, Form.read?_memberReadings]
    simp [Schema.read?, FieldKind.read?, List.lookup_cons, hline, hheader, hbody,
      DefinitionKind.ofWord?_word]
  | .assign line targets value, fit => by
    simp only [Node.lines, fit_append] at fit
    obtain ⟨⟨fitLine, fitTargets⟩, fitValue⟩ := fit
    have hline := Reading.line?_lineJson fitLine
    have htargets := reading_nodesJson fitTargets
    have hvalue := Node.reading_toJson fitValue
    rw [Node.toJson, Json.node_reading_obj rfl rfl, Form.read?_memberReadings]
    simp [Schema.read?, FieldKind.read?, List.lookup_cons, hline, htargets, hvalue]
  | .call line func args, fit => by
    simp only [Node.lines, fit_append] at fit
    obtain ⟨⟨fitLine, fitFunc⟩, fitArgs⟩ := fit
    have hline := Reading.line?_lineJson fitLine
    have hfunc := Node.reading_toJson fitFunc
    have hargs := reading_nodesJson fitArgs
    rw [Node.toJson, Json.node_reading_obj rfl rfl, Form.read?_memberReadings]
    simp [Schema.read?, FieldKind.read?, List.lookup_cons, hline, hfunc, hargs]
  | .access line value attr, fit => by
    simp only [Node.lines, fit_append] at fit
    have hline := Reading.line?_lineJson fit.1
    have hvalue := Node.reading_toJson fit.2
    rw [Node.toJson, Json.node_reading_obj rfl rfl, Form.read?_memberReadings]
    simp [Schema.read?, FieldKind.read?, List.lookup_cons, hline, hvalue]
  | .name line id, fit => by
    have hline := Reading.line?_lineJson fit
    rw [Node.toJson, Json.node_reading_obj rfl rfl, Form.read?_memberReadings]
    simp [Schema.read?, FieldKind.read?, List.lookup_cons, hline]
  | .literal line kind text, fit => by
    have hline := Reading.line?_lineJson fit
    rw [Node.toJson, Json.node_reading_obj rfl rfl, Form.read?_memberReadings]
    simp [Schema.read?, FieldKind.read?, List.lookup_cons, hline,
      LiteralKind.ofWord?_word]
  | .tuple line elts, fit => by
    simp only [Node.lines, fit_append] at fit
    have hline := Reading.line?_lineJson fit.1
    have helts := reading_nodesJson fit.2
    rw [Node.toJson, Json.node_reading_obj rfl rfl, Form.read?_memberReadings]
    simp [Schema.read?, FieldKind.read?, List.lookup_cons, hline, helts]
  | .other line kind children, fit => by
    simp only [Node.lines, fit_append] at fit
    have hline := Reading.line?_lineJson fit.1
    have hchildren := reading_nodesJson fit.2
    rw [Node.toJson, Json.node_reading_obj rfl rfl, Form.read?_memberReadings]
    simp [Schema.read?, FieldKind.read?, List.lookup_cons, hline, hchildren]

theorem reading_nodesJson : ∀ {nodes : List Node}, Fit (nodesLines nodes) →
    (readings (nodesJson nodes)).mapM Reading.node = some nodes
  | [], _ => rfl
  | node :: nodes, fit => by
    rw [nodesLines, fit_append] at fit
    rw [nodesJson, readings, List.mapM_cons, Node.reading_toJson fit.1, reading_nodesJson fit.2]
    rfl

/-- A handler whose lines fit is read back from its object, which has no tag. -/
theorem Handler.reading_toJson : ∀ {handler : Handler}, Fit handler.lines →
    handler.toJson.reading.handler = some handler
  | .mk line typeExpr name body, fit => by
    simp only [Handler.lines, fit_append] at fit
    obtain ⟨⟨fitLine, fitType⟩, fitBody⟩ := fit
    have hline := Reading.line?_lineJson fitLine
    have htype := reading_typeExprJson fitType
    have hbody := reading_nodesJson fitBody
    rw [Handler.toJson, Json.reading, Form.read?_memberReadings]
    simp [Handler.form, Schema.read?, FieldKind.read?, List.lookup_cons, hline, htype, hbody,
      Reading.optionalText?_orNull]

theorem reading_handlersJson : ∀ {handlers : List Handler}, Fit (handlersLines handlers) →
    (readings (handlersJson handlers)).mapM Reading.handler = some handlers
  | [], _ => rfl
  | handler :: handlers, fit => by
    rw [handlersLines, fit_append] at fit
    rw [handlersJson, readings, List.mapM_cons, Handler.reading_toJson fit.1,
      reading_handlersJson fit.2]
    rfl

/-- The type of a handler is read back, and its absence from null, because no node is written as
null. -/
theorem reading_typeExprJson : ∀ {typeExpr : Option Node}, Fit (typeExprLines typeExpr) →
    Reading.optionalNode? (some (typeExprJson typeExpr).reading) = some typeExpr
  | none, _ => rfl
  | some node, fit => by
    have inner := Node.reading_toJson fit
    obtain ⟨members, obj⟩ := node.exists_toJson_eq_obj
    rw [obj] at inner
    show Reading.optionalNode? (some node.toJson.reading) = _
    rw [obj]
    show (Json.obj members).reading.node.map some = _
    rw [inner]
    rfl

end

/-- A node is written with its tag as a word, so it can be read by itself as well as inside another
one. -/
theorem Node.hasWordTag_toJson (node : Node) : node.toJson.hasWordTag = true := by
  cases node <;> rw [Node.toJson] <;> rfl

theorem Node.ofJson?_toJson {node : Node} (fit : Fit node.lines) :
    Node.ofJson? node.toJson = some node := by
  rw [Node.ofJson?, if_pos node.hasWordTag_toJson]
  exact Node.reading_toJson fit

/-- The statements of a module are read one by one, each as a node by itself. -/
theorem mapM_ofJson?_nodesJson {nodes : List Node} (fit : Fit (nodesLines nodes)) :
    (nodesJson nodes).mapM Node.ofJson? = some nodes := by
  induction nodes with
  | nil => rfl
  | cons node nodes ih =>
    rw [nodesLines, fit_append] at fit
    rw [nodesJson, List.mapM_cons, Node.ofJson?_toJson fit.1, ih fit.2]
    rfl

/-- A tree whose lines fit is read back from its own JSON form. -/
theorem Tree.ofJson?_toJson_of_linesFit {tree : Tree} (fit : tree.LinesFit) :
    Tree.ofJson? tree.toJson = some tree := by
  have body : moduleBody? (.obj [("body", .arr (nodesJson tree.body))]) = some tree.body :=
    mapM_ofJson?_nodesJson fit
  show (moduleBody? (.obj [("body", .arr (nodesJson tree.body))]) >>= fun body =>
    some (Tree.mk tree.sourceName body)) = some tree
  rw [body]
  rfl

/-! ## What is read has lines that fit -/

/-- Whatever a value says as a part of a tree has lines that fit. -/
structure Reading.Fits (reading : Reading) : Prop where
  node : ∀ {node}, reading.node = some node → Fit node.lines
  nodes : ∀ {nodes}, reading.nodes = some nodes → Fit (nodesLines nodes)
  handler : ∀ {handler}, reading.handler = some handler → Fit handler.lines
  handlers : ∀ {handlers}, reading.handlers = some handlers → Fit (handlersLines handlers)

/-- What is true of all that a record gives. -/
def Layout.All {α : Type} (P : α → Prop) : Layout α → Prop
  | .named members => ∀ member ∈ members, P member.2
  | .placed items => ∀ item ∈ items, P item

section

variable {α : Type} {P : α → Prop} {record : Layout α}

/-- What holds of all that a record gives holds of what it gives under some names. -/
theorem Layout.All.fields? {names : List String} {fields : List (Option α)} (all : record.All P)
    (h : record.fields? names = some fields) : ∀ field ∈ fields, ∀ value ∈ field, P value := by
  intro field mem value found
  cases record with
  | named members =>
    cases h
    obtain ⟨name, -, rfl⟩ := List.mem_map.mp mem
    obtain ⟨before, after, eq, -⟩ := List.lookup_eq_some_iff.mp found
    exact all (name, value) (by simp [eq])
  | placed items =>
    rw [Layout.fields?] at h
    split at h
    next =>
      cases h
      obtain ⟨item, hitem, rfl⟩ := List.mem_map.mp mem
      cases found
      exact all value hitem
    next => cases h

/-- Taking off the tag leaves a record that gives no more than before. -/
theorem Layout.All.tagged? {key : String} {tag : α} {rest : Layout α} (all : record.All P)
    (h : record.tagged? key = some (tag, rest)) : rest.All P := by
  cases record with
  | named members =>
    obtain ⟨_, -, same⟩ := Option.map_eq_some_iff.mp h
    cases same
    exact all
  | placed items =>
    cases items with
    | nil => cases h
    | cons first items =>
      cases h
      exact fun item mem => all item (List.mem_cons_of_mem _ mem)

end

namespace Reading

variable {field : Option Reading}

/-- A line that is read is below the bound, because numbers from there on are not read at all. -/
theorem fit_of_line? {line : Line} (h : line? field = some line) : Fit line.toList := by
  cases field with
  | none =>
    cases h
    exact fun _ mem => by cases mem
  | some reading =>
    have read : Json.optional? Json.word? reading.plain = some line := h
    unfold Json.optional? at read
    split at read
    next =>
      cases read
      exact fun _ mem => by cases mem
    next =>
      obtain ⟨number, word, rfl⟩ := Option.map_eq_some_iff.mp read
      unfold Json.word? at word
      split at word
      next =>
        split at word
        next small =>
          cases word
          intro line mem
          rw [List.mem_singleton.mp mem]
          exact small
        next => cases word
      next => cases word

theorem fit_of_node? {node : Node} (each : ∀ reading ∈ field, reading.Fits)
    (h : node? field = some node) : Fit node.lines := by
  obtain ⟨reading, found, h⟩ := Option.bind_eq_some_iff.mp h
  exact (each reading found).node h

theorem fit_of_nodes? {nodes : List Node} (each : ∀ reading ∈ field, reading.Fits)
    (h : nodes? field = some nodes) : Fit (nodesLines nodes) := by
  obtain ⟨reading, found, h⟩ := Option.bind_eq_some_iff.mp h
  exact (each reading found).nodes h

theorem fit_of_handlers? {handlers : List Handler} (each : ∀ reading ∈ field, reading.Fits)
    (h : handlers? field = some handlers) : Fit (handlersLines handlers) := by
  obtain ⟨reading, found, h⟩ := Option.bind_eq_some_iff.mp h
  exact (each reading found).handlers h

/-- A type that is absent or null has no lines, and any other is a node that was read. -/
theorem fit_of_optionalNode? {typeExpr : Option Node} (each : ∀ reading ∈ field, reading.Fits)
    (h : optionalNode? field = some typeExpr) : Fit (typeExprLines typeExpr) := by
  have nothing : Fit (typeExprLines none) := fun _ mem => by cases mem
  cases field with
  | none =>
    cases h
    exact nothing
  | some reading =>
    unfold optionalNode? at h
    dsimp only at h
    split at h
    next =>
      cases h
      exact nothing
    next =>
      obtain ⟨node, hnode, rfl⟩ := Option.map_eq_some_iff.mp h
      exact (each reading rfl).node hnode

end Reading

/-- The line numbers in what a field holds. -/
def FieldKind.lines : (kind : FieldKind) → kind.Part → List Nat
  | line, number => number.toList
  | node, value => value.lines
  | optionalNode, value => typeExprLines value
  | nodes, values => nodesLines values
  | handlers, values => handlersLines values
  | text, _ | optionalText, _ | definitionKind, _ | literalKind, _ => []

/-- Whatever a field holds, what is read from it has lines that fit if all that is inside it has. -/
theorem FieldKind.fit_of_read? {kind : FieldKind} {field : Option Reading} {part : kind.Part}
    (each : ∀ reading ∈ field, reading.Fits) (h : kind.read? field = some part) :
    Fit (kind.lines part) := by
  cases kind with
  | line => exact Reading.fit_of_line? h
  | node => exact Reading.fit_of_node? each h
  | optionalNode => exact Reading.fit_of_optionalNode? each h
  | nodes => exact Reading.fit_of_nodes? each h
  | handlers => exact Reading.fit_of_handlers? each h
  | text | optionalText | definitionKind | literalKind => exact fun _ mem => by cases mem

/-- The line numbers in what the fields of a record hold. -/
def Schema.lines : (schema : Schema) → schema.Parts → List Nat
  | [], _ => []
  | (_, kind) :: schema, (part, parts) => kind.lines part ++ lines schema parts

/-- What is read from the fields of a record has lines that fit. The induction is on the schema,
with one field at a time. -/
theorem Schema.fit_of_read? {schema : Schema} {fields : List (Option Reading)}
    {parts : schema.Parts} (each : ∀ field ∈ fields, ∀ reading ∈ field, reading.Fits)
    (h : schema.read? fields = some parts) : Fit (schema.lines parts) := by
  fun_induction Schema.read? schema fields with
  | case1 => exact fun _ mem => by cases mem
  | case2 _ kind schema field fields ih =>
    obtain ⟨part, hpart, h⟩ := Option.bind_eq_some_iff.mp h
    obtain ⟨rest, hrest, h⟩ := Option.bind_eq_some_iff.mp h
    cases h
    rw [List.forall_mem_cons] at each
    exact fit_append.mpr ⟨FieldKind.fit_of_read? each.1 hpart, ih each.2 hrest⟩
  | case3 => cases h

/-- What is made of the fields of a record has the line numbers that they hold, and no others. -/
def Form.Keeps {α : Type} (lines : α → List Nat) (form : Form α) : Prop :=
  ∀ parts, lines (form.make parts) = form.schema.lines parts

/-- Every form of a node keeps the lines of its fields, so the cases over tags are gone through here
and not for each fact about lines. -/
theorem Node.keeps_form? {tag : String} {form : Form Node} (h : Node.form? tag = some form) :
    form.Keeps Node.lines := by
  unfold Node.form? at h
  split at h
  all_goals cases h
  all_goals exact fun _ => by simp [Node.lines, Schema.lines, FieldKind.lines]

theorem Handler.keeps_form : Handler.form.Keeps Handler.lines :=
  fun (_, _, _, _, _) => by simp [Handler.form, Handler.lines, Schema.lines, FieldKind.lines]

/-- What is read by a form that keeps lines has lines that fit, if the record holds nothing else. -/
theorem Form.Keeps.fit {α : Type} {lines : α → List Nat} {form : Form α} (keeps : form.Keeps lines)
    {record : Layout Reading} {result : α} (all : record.All Reading.Fits)
    (h : form.read? record = some result) : Fit (lines result) := by
  obtain ⟨parts, given, rfl⟩ := Option.map_eq_some_iff.mp h
  obtain ⟨fields, found, read⟩ := Option.bind_eq_some_iff.mp given
  rw [keeps parts]
  exact Schema.fit_of_read? (all.fields? found) read

/-- Whichever tag a record gives, the node that it is has lines that fit. -/
theorem Node.fit_of_ofTagged? {record : Layout Reading} {node : Node}
    (all : record.All Reading.Fits) (h : Node.ofTagged? record = some node) : Fit node.lines := by
  obtain ⟨⟨tag, rest⟩, tagged, h⟩ := Option.bind_eq_some_iff.mp h
  obtain ⟨word, -, h⟩ := Option.bind_eq_some_iff.mp h
  obtain ⟨form, known, h⟩ := Option.bind_eq_some_iff.mp h
  exact (Node.keeps_form? known).fit (all.tagged? tagged) h

theorem nodesLines_eq (nodes : List Node) : nodesLines nodes = nodes.flatMap Node.lines := by
  induction nodes with
  | nil => rfl
  | cons node nodes ih => rw [nodesLines, ih, List.flatMap_cons]

theorem handlersLines_eq (handlers : List Handler) :
    handlersLines handlers = handlers.flatMap Handler.lines := by
  induction handlers with
  | nil => rfl
  | cons handler handlers ih => rw [handlersLines, ih, List.flatMap_cons]

/-- Lines fit in a list that is read item by item. -/
theorem fit_of_mapM {α β : Type} {read : α → Option β} {lines : β → List Nat} {items : List α}
    {results : List β}
    (each : ∀ item ∈ items, ∀ {result}, read item = some result → Fit (lines result))
    (h : items.mapM read = some results) : Fit (results.flatMap lines) := by
  induction items generalizing results with
  | nil =>
    cases h
    exact fun _ mem => by cases mem
  | cons item items ih =>
    rw [List.mapM_cons] at h
    obtain ⟨result, hresult, h⟩ := Option.bind_eq_some_iff.mp h
    obtain ⟨rest, hrest, h⟩ := Option.bind_eq_some_iff.mp h
    cases h
    rw [List.flatMap_cons, fit_append]
    refine ⟨each item List.mem_cons_self hresult, ih (fun item mem => ?_) hrest⟩
    exact each item (List.mem_cons_of_mem _ mem)

mutual

/-- Whatever a value says as a part of a tree has lines that fit. The induction is on the value,
from the inside out as the reading goes. -/
theorem Json.fits_reading : ∀ value : Json, value.reading.Fits
  | .arr items => by
    have inner := fits_readings items
    have record : Layout.All Reading.Fits (.placed (readings items)) := inner
    rw [Json.reading]
    constructor
    case node => exact fun h => Node.fit_of_ofTagged? record h
    case handler => exact fun h => Handler.keeps_form.fit record h
    case nodes =>
      intro nodes h
      rw [nodesLines_eq]
      exact fit_of_mapM (fun reading mem => (inner reading mem).node) h
    case handlers =>
      intro handlers h
      rw [handlersLines_eq]
      exact fit_of_mapM (fun reading mem => (inner reading mem).handler) h
  | .obj members => by
    have record : Layout.All Reading.Fits (.named (memberReadings members)) :=
      fits_memberReadings members
    rw [Json.reading]
    constructor
    case node => exact fun h => Node.fit_of_ofTagged? record h
    case handler => exact fun h => Handler.keeps_form.fit record h
    all_goals exact fun h => by cases h
  | .null | .bool _ | .num _ | .str _ => by
    constructor
    all_goals exact fun h => by cases h

theorem fits_readings : ∀ items : List Json, ∀ reading ∈ readings items, reading.Fits
  | [], _, mem => by cases mem
  | item :: items, reading, mem => by
    rcases List.mem_cons.mp mem with rfl | mem
    · exact item.fits_reading
    · exact fits_readings items reading mem

theorem fits_memberReadings : ∀ members : List (String × Json),
    ∀ member ∈ memberReadings members, member.2.Fits
  | [], _, mem => by cases mem
  | (_, value) :: members, member, mem => by
    rcases List.mem_cons.mp mem with rfl | mem
    · exact value.fits_reading
    · exact fits_memberReadings members member mem

end

/-- A node that is read by itself has lines that fit. -/
theorem Node.fit_of_ofJson? {value : Json} {node : Node} (h : Node.ofJson? value = some node) :
    Fit node.lines := by
  unfold Node.ofJson? at h
  split at h
  next => exact value.fits_reading.node h
  next => cases h

/-- The statements that are read from a module have lines that fit. -/
theorem fit_of_moduleBody? {value : Json} {body : List Node} (h : moduleBody? value = some body) :
    Fit (nodesLines body) := by
  obtain ⟨record, -, h⟩ := Option.bind_eq_some_iff.mp h
  split at h
  next =>
    obtain ⟨items, -, h⟩ := Option.bind_eq_some_iff.mp h
    rw [nodesLines_eq]
    exact fit_of_mapM (fun _ _ => Node.fit_of_ofJson?) h
  next => cases h

/-- A tree that was read has lines that fit. -/
theorem Tree.linesFit_of_ofJson? {value : Json} {tree : Tree} (h : Tree.ofJson? value = some tree) :
    tree.LinesFit := by
  obtain ⟨record, -, h⟩ := Option.bind_eq_some_iff.mp h
  split at h
  next =>
    obtain ⟨sourceName, -, h⟩ := Option.bind_eq_some_iff.mp h
    obtain ⟨body, hbody, h⟩ := Option.bind_eq_some_iff.mp h
    cases h
    exact fit_of_moduleBody? hbody
  next => cases h

end SourceAudit
