import Mathlib.Data.Option.Defs
import SourceAudit.Proofs.Tree.Json

/-!
# The JSON form of a tree is stable

What a value stands for in the JSON form of a tree is said by where it stands: it is a tree, a
module, a node, a handler, or a list of nodes or handlers (`Shape`). The objects of the tree are the
records among these. `Json.Variant` says how such a value may be written otherwise: its members in
another order, with members that its reader does not know, without members that are null, and so on
for every record inside. A kind that is written as an object is no record, and has no variants.

A reader asks a record for the members it knows and cannot tell one that is absent from one that is
null. So two records are read alike as soon as their members are, one known name after another, with
null in the place of what is absent (`Json.AgreeAt`). This is all that a variant keeps, and it is
enough (`Json.Variant.sameAs`). For the tagged records that is one proof over the fields of a form
(`Json.AgreeOn.read?`), since every form asks for what its tag declares (`Node.shaped_form?`).
-/

namespace SourceAudit

/-! ## Variants -/

/-- What a value in the JSON form of a tree stands for. -/
inductive Shape where
  | tree
  | module
  | node
  | nodes
  | handler
  | handlers

/-- What the member or field of a name stands for, if it holds a part of the tree. -/
def fieldShape? (field : String) : Option Shape :=
  match field with
  | "module" => some .module
  | "value" | "func" | "type_expr" => some .node
  | "body" | "orelse" | "finalbody" | "header" | "targets" | "args" | "elts" | "children" =>
    some .nodes
  | "handlers" => some .handlers
  | _ => none

/-- The fields of a node with a tag. -/
def tagFields (tag : String) : List String :=
  match tag with
  | "try" => ["line", "body", "handlers", "orelse", "finalbody"]
  | "definition" => ["line", "kind", "name", "header", "body"]
  | "assign" => ["line", "targets", "value"]
  | "call" => ["line", "func", "args"]
  | "attribute" => ["line", "value", "attr"]
  | "name" => ["line", "id"]
  | "literal" => ["line", "kind", "text"]
  | "tuple" => ["line", "elts"]
  | "other" => ["line", "kind", "children"]
  | _ => []

/-- The tag of a record, or null. -/
def Layout.tag : Layout Json → Json
  | .named members => (members.lookup "node").getD .null
  | .placed items => items.headD .null

/-- The names that the reader of a record knows, in the order of their places. -/
def Shape.names (shape : Shape) (record : Layout Json) : List String :=
  match shape with
  | .tree => ["source_name", "module"]
  | .module => ["body"]
  | .node => "node" :: (record.tag.tagWord?.map tagFields).getD []
  | .handler => ["line", "type_expr", "name", "body"]
  | .nodes | .handlers => []

/-- What the value of a field stands for, if it holds a part of the tree. -/
def FieldKind.shape? : FieldKind → Option Shape
  | node | optionalNode => some .node
  | nodes => some .nodes
  | handlers => some .handlers
  | line | text | optionalText | definitionKind | literalKind => none

/-- Every field holds what its name stands for. -/
def Schema.Shaped (schema : Schema) : Prop := ∀ field ∈ schema, fieldShape? field.1 = field.2.shape?

/-- The form of a tag has the declared fields of the tag, in their order. -/
theorem tagFields_of_form? {tag : String} {form : Form Node} (h : Node.form? tag = some form) :
    tagFields tag = form.schema.map Prod.fst := by
  unfold Node.form? at h
  split at h
  all_goals cases h
  all_goals rfl

/-- In every form of a node, a field is read as what its name stands for. With `tagFields_of_form?`
this is all that is needed of the forms one by one. -/
theorem Node.shaped_form? {tag : String} {form : Form Node} (h : Node.form? tag = some form) :
    form.schema.Shaped := by
  unfold Node.form? at h
  split at h
  all_goals cases h
  all_goals simp [Schema.Shaped, fieldShape?, FieldKind.shape?]

/-- In the form of handlers as well, a field is read as what its name stands for. -/
theorem Handler.shaped_form : Handler.form.schema.Shaped := by
  simp [Handler.form, Schema.Shaped, fieldShape?, FieldKind.shape?]

namespace Json

/-- The second value is the first written otherwise. -/
inductive Variant : Shape → Json → Json → Prop
  | refl {shape : Shape} {value : Json} : Variant shape value value
  | trans {shape : Shape} {value other last : Json} (first : Variant shape value other)
      (second : Variant shape other last) : Variant shape value last
  /-- The members in another order. -/
  | reorder {shape : Shape} {members others : List (String × Json)}
      (distinct : (members.map Prod.fst).Nodup) (perm : members.Perm others) :
      Variant shape (.obj members) (.obj others)
  /-- One more member, under a name that the reader does not know. -/
  | add {shape : Shape} {before after : List (String × Json)} {key : String} {value : Json}
      (unknown : key ∉ shape.names (.named (before ++ after))) :
      Variant shape (.obj (before ++ after)) (.obj (before ++ (key, value) :: after))
  /-- One member less, which is null. -/
  | dropNull {shape : Shape} {before after : List (String × Json)} {key : String}
      (distinct : ((before ++ (key, null) :: after).map Prod.fst).Nodup) :
      Variant shape (.obj (before ++ (key, null) :: after)) (.obj (before ++ after))
  /-- A record inside a record, by name. -/
  | member {shape inner : Shape} {before after : List (String × Json)} {key : String}
      {value other : Json} (shaped : fieldShape? key = some inner)
      (inside : Variant inner value other) :
      Variant shape (.obj (before ++ (key, value) :: after))
        (.obj (before ++ (key, other) :: after))
  /-- A record inside a record, by place. -/
  | place {shape inner : Shape} {before after : List Json} {key : String} {value other : Json}
      (named : (shape.names (.placed (before ++ value :: after)))[before.length]? = some key)
      (shaped : fieldShape? key = some inner) (inside : Variant inner value other) :
      Variant shape (.arr (before ++ value :: after)) (.arr (before ++ other :: after))
  /-- A node of a list. -/
  | node {before after : List Json} {value other : Json} (inside : Variant .node value other) :
      Variant .nodes (.arr (before ++ value :: after)) (.arr (before ++ other :: after))
  /-- A handler of a list. -/
  | handler {before after : List Json} {value other : Json}
      (inside : Variant .handler value other) :
      Variant .handlers (.arr (before ++ value :: after)) (.arr (before ++ other :: after))

/-! ## What is read alike -/

/-- Two values are read alike, in the place of what they stand for. -/
def SameAs (shape : Shape) (value other : Json) : Prop :=
  match shape with
  | .tree => Tree.ofJson? value = Tree.ofJson? other
  | .module => moduleBody? value = moduleBody? other
  | .node => value.reading.node = other.reading.node ∧ value.hasWordTag = other.hasWordTag ∧
      (value = null ↔ other = null)
  | .nodes => value.reading.nodes = other.reading.nodes ∧
      (value.items?.bind fun items => items.mapM Node.ofJson?) =
        other.items?.bind fun items => items.mapM Node.ofJson?
  | .handler => value.reading.handler = other.reading.handler
  | .handlers => value.reading.handlers = other.reading.handlers

/-- What two records give under a name is read alike; what is absent counts as null. -/
def AgreeAt (name : String) (value other : Option Json) : Prop :=
  match fieldShape? name with
  | some shape => SameAs shape (value.getD null) (other.getD null)
  | none => value.getD null = other.getD null

section

variable {shape : Shape} {value other last : Json} {name : String} {field opposite : Option Json}

theorem SameAs.refl : SameAs shape value value := by
  cases shape
  case node => exact ⟨rfl, rfl, Iff.rfl⟩
  case nodes => exact ⟨rfl, rfl⟩
  all_goals exact rfl

theorem SameAs.trans (h : SameAs shape value other) (next : SameAs shape other last) :
    SameAs shape value last := by
  cases shape
  case node => exact ⟨h.1.trans next.1, h.2.1.trans next.2.1, h.2.2.trans next.2.2⟩
  case nodes => exact ⟨h.1.trans next.1, h.2.trans next.2⟩
  all_goals exact Eq.trans h next

/-- Records agree under a name if they give the same there, or one of them null and the other
nothing. -/
theorem AgreeAt.of_getD (h : field.getD null = opposite.getD null) :
    AgreeAt name field opposite := by
  unfold AgreeAt
  split
  next =>
    rw [h]
    exact .refl
  next => exact h

/-- Records agree under a name that holds a part of the tree if what they give there is read
alike. -/
theorem AgreeAt.of_sameAs (shaped : fieldShape? name = some shape)
    (h : SameAs shape (field.getD null) (opposite.getD null)) : AgreeAt name field opposite := by
  unfold AgreeAt
  rw [shaped]
  exact h

/-! ## Reading one field -/

/-- A reader that takes what is absent for null only asks what is there instead. -/
theorem read_eq_of_lenient {β : Type} (read : Option Reading → β)
    (lenient : read none = read (some null.reading)) (field : Option Json) :
    read (field.map reading) = read (some (field.getD null).reading) := by
  cases field with
  | none => exact lenient
  | some value => rfl

/-- Under a name that holds no part of the tree, agreement is equality, with null for what is
absent. -/
theorem AgreeAt.getD_eq (h : AgreeAt name field opposite) (plain : fieldShape? name = none) :
    field.getD null = opposite.getD null := by
  unfold AgreeAt at h
  rwa [plain] at h

/-- A reader that cannot tell an absent field from a null one reads agreeing fields alike, if they
hold no part of the tree. -/
theorem AgreeAt.plain {β : Type} (h : AgreeAt name field opposite)
    (plain : fieldShape? name = none) (read : Option Reading → β)
    (lenient : read none = read (some null.reading)) :
    read (field.map reading) = read (opposite.map reading) := by
  rw [read_eq_of_lenient read lenient, read_eq_of_lenient read lenient, h.getD_eq plain]

theorem AgreeAt.sameAs (h : AgreeAt name field opposite) (shaped : fieldShape? name = some shape) :
    SameAs shape (field.getD null) (opposite.getD null) := by
  unfold AgreeAt at h
  rwa [shaped] at h

/-- A node that must be there is read alike; where it is absent or null there is none on either
side. -/
theorem AgreeAt.node? (h : AgreeAt name field opposite) (shaped : fieldShape? name = some .node) :
    Reading.node? (field.map reading) = Reading.node? (opposite.map reading) := by
  rw [read_eq_of_lenient Reading.node? rfl, read_eq_of_lenient Reading.node? rfl]
  exact (h.sameAs shaped).1

theorem AgreeAt.nodes? (h : AgreeAt name field opposite)
    (shaped : fieldShape? name = some .nodes) :
    Reading.nodes? (field.map reading) = Reading.nodes? (opposite.map reading) := by
  rw [read_eq_of_lenient Reading.nodes? rfl, read_eq_of_lenient Reading.nodes? rfl]
  exact (h.sameAs shaped).1

theorem AgreeAt.handlers? (h : AgreeAt name field opposite)
    (shaped : fieldShape? name = some .handlers) :
    Reading.handlers? (field.map reading) = Reading.handlers? (opposite.map reading) := by
  rw [read_eq_of_lenient Reading.handlers? rfl, read_eq_of_lenient Reading.handlers? rfl]
  exact h.sameAs shaped

/-- What is not null must be a node, even where it may be absent. -/
theorem optionalNode?_of_ne (h : value ≠ null) :
    Reading.optionalNode? (some value.reading) = value.reading.node.map some := by
  cases value with
  | null => exact absurd rfl h
  | _ => rfl

/-- A node that may be absent is read alike, because agreement also says that both are null or
neither is. -/
theorem AgreeAt.optionalNode? (h : AgreeAt name field opposite)
    (shaped : fieldShape? name = some .node) :
    Reading.optionalNode? (field.map reading) = Reading.optionalNode? (opposite.map reading) := by
  obtain ⟨same, -, absent⟩ := h.sameAs shaped
  rw [read_eq_of_lenient Reading.optionalNode? rfl, read_eq_of_lenient Reading.optionalNode? rfl]
  by_cases isNull : field.getD null = null
  · rw [isNull, absent.mp isNull]
  · rw [optionalNode?_of_ne isNull, optionalNode?_of_ne fun h => isNull (absent.mpr h), same]

/-- Agreeing fields are read as the same part of a tree, whatever they hold, as long as they hold
what their name stands for. -/
theorem AgreeAt.read? {kind : FieldKind} (h : AgreeAt name field opposite)
    (shaped : fieldShape? name = kind.shape?) :
    kind.read? (field.map reading) = kind.read? (opposite.map reading) := by
  cases kind with
  | node => exact h.node? shaped
  | optionalNode => exact h.optionalNode? shaped
  | nodes => exact h.nodes? shaped
  | handlers => exact h.handlers? shaped
  | line | text | optionalText | definitionKind | literalKind =>
    exact h.plain shaped (FieldKind.read? _) rfl

end

/-! ## Reading one record -/

/-- What is given under some names, one after the other, is read alike. -/
inductive AgreeOn : List String → List (Option Json) → List (Option Json) → Prop
  | nil : AgreeOn [] [] []
  | cons {name : String} {names : List String} {field opposite : Option Json}
      {fields opposites : List (Option Json)} (here : AgreeAt name field opposite)
      (rest : AgreeOn names fields opposites) :
      AgreeOn (name :: names) (field :: fields) (opposite :: opposites)

/-- Fields that agree one by one are read as the same parts. -/
theorem AgreeOn.read? {schema : Schema} (shaped : schema.Shaped)
    {fields opposites : List (Option Json)}
    (agree : AgreeOn (schema.map Prod.fst) fields opposites) :
    schema.read? (fields.map (Option.map reading)) =
      schema.read? (opposites.map (Option.map reading)) := by
  induction schema generalizing fields opposites with
  | nil =>
    cases agree
    rfl
  | cons field schema ih =>
    obtain ⟨name, kind⟩ := field
    obtain ⟨here, shaped⟩ := List.forall_mem_cons.mp shaped
    cases agree with
    | cons first rest =>
      rw [List.map_cons, List.map_cons, Schema.read?, Schema.read?, first.read? here,
        ih shaped rest]

end Json

namespace Layout

/-- What the values of a record say as parts of a tree. -/
def readings : Layout Json → Layout Reading
  | .named members => .named (memberReadings members)
  | .placed items => .placed (SourceAudit.readings items)

/-- Two records are read alike under some names. -/
def Agree (names : List String) (record other : Layout Json) : Prop :=
  Option.Rel (Json.AgreeOn names) (record.fields? names) (other.fields? names)

/-- The items of an array are read one by one. -/
theorem readings_eq_map (items : List Json) :
    SourceAudit.readings items = items.map Json.reading := by
  induction items with
  | nil => rfl
  | cons item items ih => rw [SourceAudit.readings, ih, List.map_cons]

/-- A record gives the same fields whether its values are read before or after. -/
theorem fields?_readings (names : List String) (record : Layout Json) :
    record.readings.fields? names =
      (record.fields? names).map fun fields => fields.map (Option.map Json.reading) := by
  cases record with
  | named members =>
    rw [readings, fields?_memberReadings, fields?, Option.map_some, List.map_map]
    rfl
  | placed items =>
    rw [readings, fields?, fields?, readings_eq_map, List.length_map]
    split
    next => rw [Option.map_some, List.map_map, List.map_map]; rfl
    next => rfl

variable {record other : Layout Json}

/-- Records agree under some names if neither can be asked for them, or both can and agree under
each. -/
theorem Agree.cases {names : List String} (agree : record.Agree names other) :
    record.fields? names = none ∧ other.fields? names = none ∨
      ∃ fields opposites, record.fields? names = some fields ∧
        other.fields? names = some opposites ∧ Json.AgreeOn names fields opposites := by
  unfold Agree at agree
  generalize record.fields? names = fields at agree
  generalize other.fields? names = opposites at agree
  cases agree with
  | none => exact .inl ⟨rfl, rfl⟩
  | some agree => exact .inr ⟨_, _, rfl, rfl, agree⟩

/-- The same for records whose values are read already, which is how a form asks for them. -/
theorem Agree.readings_cases {names : List String} (agree : record.Agree names other) :
    record.readings.fields? names = other.readings.fields? names ∨
      ∃ fields opposites, Json.AgreeOn names fields opposites ∧
        record.readings.fields? names = some (fields.map (Option.map Json.reading)) ∧
        other.readings.fields? names = some (opposites.map (Option.map Json.reading)) := by
  rw [fields?_readings, fields?_readings]
  obtain ⟨h, h'⟩ | ⟨fields, opposites, h, h', agree⟩ := agree.cases
  · rw [h, h']
    exact .inl rfl
  · rw [h, h']
    exact .inr ⟨fields, opposites, agree, rfl, rfl⟩

/-- Records that agree under the names of a form are read alike by it. -/
theorem Agree.form {α : Type} {form : Form α} (shaped : form.schema.Shaped)
    (agree : record.Agree (form.schema.map Prod.fst) other) :
    form.read? record.readings = form.read? other.readings := by
  rw [Form.read?, Form.read?]
  obtain h | ⟨_, _, agree, h, h'⟩ := agree.readings_cases
  · rw [h]
  · rw [h, h', Option.bind_some, Option.bind_some, agree.read? shaped]

/-- A record without its tag. -/
def untagged : Layout Json → Layout Json
  | .named members => .named members
  | .placed items => .placed items.tail

/-- A record is read as a node by the form of its tag, from what is left of it without the tag. -/
theorem ofTagged?_readings (record : Layout Json) :
    Node.ofTagged? record.readings =
      record.tag.tagWord?.bind fun word =>
        (Node.form? word).bind fun form => form.read? record.untagged.readings := by
  cases record with
  | named members =>
    show (((memberReadings members).lookup "node").map _ >>= _) = _
    rw [lookup_memberReadings, tag]
    cases members.lookup "node" with
    | none => rfl
    | some value =>
      cases value <;> rfl
  | placed items =>
    cases items with
    | nil => rfl
    | cons first items =>
      cases first <;> rfl

/-- Records with the same tag that agree under its fields are read as the same node. A tag without a
form is read as no node on either side. -/
theorem Agree.ofTagged? (same : record.tag = other.tag)
    (agree : ∀ word, record.tag.tagWord? = some word →
      record.untagged.Agree (tagFields word) other.untagged) :
    Node.ofTagged? record.readings = Node.ofTagged? other.readings := by
  rw [ofTagged?_readings, ofTagged?_readings, ← same]
  cases h : record.tag.tagWord? with
  | none => rfl
  | some word =>
    have alike := agree word h
    show ((Node.form? word).bind fun form => form.read? _) =
      (Node.form? word).bind fun form => form.read? _
    cases known : Node.form? word with
    | none => rfl
    | some form =>
      rw [tagFields_of_form? known] at alike
      exact alike.form (Node.shaped_form? known)

end Layout

namespace Json

variable {value other : Json} {record opposite : Layout Json}

theorem node_reading_eq (h : value.layout? = some record) :
    value.reading.node = Node.ofTagged? record.readings := by
  cases value with
  | arr items => cases h; rfl
  | obj members => cases h; rfl
  | _ => cases h

theorem handler_reading_eq (h : value.layout? = some record) :
    value.reading.handler = Handler.form.read? record.readings := by
  cases value with
  | arr items => cases h; rfl
  | obj members => cases h; rfl
  | _ => cases h

/-- Whether a value gives its tag as a word is seen from the tag of its record. -/
theorem hasWordTag_eq (h : value.layout? = some record) :
    value.hasWordTag = record.tag.text?.isSome := by
  rw [hasWordTag, h]
  cases record with
  | named members =>
    show (((members.lookup "node").map _).bind _).isSome = _
    rw [Layout.tag]
    cases members.lookup "node" <;> rfl
  | placed items => cases items <;> rfl

theorem ne_null_of_layout? (h : value.layout? = some record) : value ≠ null := by
  rintro rfl
  cases h

/-- Objects or arrays with the same tag that agree under its fields stand for the same node, inside
another one as well as by themselves. -/
theorem sameAs_node (h : value.layout? = some record) (h' : other.layout? = some opposite)
    (same : record.tag = opposite.tag)
    (agree : ∀ word, record.tag.tagWord? = some word →
      record.untagged.Agree (tagFields word) opposite.untagged) : SameAs .node value other := by
  refine ⟨?_, ?_, iff_of_false (ne_null_of_layout? h) (ne_null_of_layout? h')⟩
  · rw [node_reading_eq h, node_reading_eq h', Layout.Agree.ofTagged? same agree]
  · rw [hasWordTag_eq h, hasWordTag_eq h', same]

/-- Objects or arrays that agree under the fields of handlers stand for the same handler. -/
theorem sameAs_handler (h : value.layout? = some record) (h' : other.layout? = some opposite)
    (agree : record.Agree ["line", "type_expr", "name", "body"] opposite) :
    SameAs .handler value other := by
  show value.reading.handler = other.reading.handler
  rw [handler_reading_eq h, handler_reading_eq h']
  exact agree.form Handler.shaped_form

/-- A module with null for what is absent. -/
theorem moduleBody?_eq (h : value.layout? = some record) :
    moduleBody? value = match record.fields? ["body"] with
      | some [body] => (body.getD null).items?.bind fun items => items.mapM Node.ofJson?
      | _ => none := by
  rw [moduleBody?, h, Option.bind_eq_bind, Option.bind_some]
  obtain _ | _ | ⟨_ | body, _ | _⟩ := record.fields? ["body"]
  all_goals rfl

/-- Objects or arrays that agree under the only field of a module hold the same statements. -/
theorem sameAs_module (h : value.layout? = some record) (h' : other.layout? = some opposite)
    (agree : record.Agree ["body"] opposite) : SameAs .module value other := by
  show moduleBody? value = moduleBody? other
  rw [moduleBody?_eq h, moduleBody?_eq h']
  obtain ⟨none, none'⟩ | ⟨_, _, found, found', agree⟩ := agree.cases
  · rw [none, none']
  · obtain _ | ⟨body, ⟨⟩⟩ := agree
    rw [found, found']
    exact (body.sameAs rfl).2

/-- A tree with null for what is absent. -/
theorem ofJson?_eq (h : value.layout? = some record) :
    Tree.ofJson? value = match record.fields? ["source_name", "module"] with
      | some [sourceName, module] =>
        (sourceName.getD null).text?.bind fun sourceName =>
          (moduleBody? (module.getD null)).map fun body => ⟨sourceName, body⟩
      | _ => none := by
  rw [Tree.ofJson?, h, Option.bind_eq_bind, Option.bind_some]
  obtain _ | _ | ⟨_ | sourceName, _ | ⟨_ | module, _ | _⟩⟩ :=
    record.fields? ["source_name", "module"]
  case some.cons.some.cons.none.nil => cases h : sourceName.text? <;> simp [h, moduleBody?, layout?]
  case some.cons.some.cons.some.nil =>
    show (sourceName.text?.bind fun name => (moduleBody? module).bind fun body =>
      some (Tree.mk name body)) = sourceName.text?.bind fun name => (moduleBody? module).map _
    congr
    funext name
    cases moduleBody? module <;> rfl
  all_goals rfl

/-- Objects or arrays that agree under both fields of a tree are the same tree. -/
theorem sameAs_tree (h : value.layout? = some record) (h' : other.layout? = some opposite)
    (agree : record.Agree ["source_name", "module"] opposite) : SameAs .tree value other := by
  show Tree.ofJson? value = Tree.ofJson? other
  rw [ofJson?_eq h, ofJson?_eq h']
  obtain ⟨none, none'⟩ | ⟨_, _, found, found', agree⟩ := agree.cases
  · rw [none, none']
  · obtain _ | ⟨sourceName, _ | ⟨module, ⟨⟩⟩⟩ := agree
    have inModule : moduleBody? _ = moduleBody? _ := module.sameAs rfl
    rw [found, found']
    simp only [sourceName.getD_eq rfl, inModule]

/-! ## Variants are read alike -/

/-- Objects are asked for one name after the other, so it is enough that they agree under each. -/
theorem AgreeOn.of_map {names : List String} {field opposite : String → Option Json}
    (h : ∀ name ∈ names, AgreeAt name (field name) (opposite name)) :
    AgreeOn names (names.map field) (names.map opposite) := by
  induction names with
  | nil => exact .nil
  | cons name names ih =>
    rw [List.forall_mem_cons] at h
    exact .cons h.1 (ih h.2)

theorem AgreeOn.refl {names : List String} {fields : List (Option Json)}
    (h : fields.length = names.length) : AgreeOn names fields fields := by
  induction fields generalizing names with
  | nil =>
    cases names with
    | nil => exact .nil
    | cons => cases h
  | cons field fields ih =>
    cases names with
    | nil => cases h
    | cons name names => exact .cons (.of_getD rfl) (ih (Nat.succ.inj h))

/-- Two objects are read alike if they are under every name that their reader knows. -/
theorem sameAs_obj {shape : Shape} {members others : List (String × Json)}
    (agree : ∀ name ∈ shape.names (.named members),
      AgreeAt name (members.lookup name) (others.lookup name)) :
    SameAs shape (.obj members) (.obj others) := by
  have onFields {names : List String}
      (known : ∀ name ∈ names, name ∈ shape.names (.named members)) :
      Layout.Agree names (.named members) (.named others) :=
    .some (.of_map fun name mem => agree name (known name mem))
  cases shape with
  | tree => exact sameAs_tree rfl rfl (onFields fun _ mem => mem)
  | module => exact sameAs_module rfl rfl (onFields fun _ mem => mem)
  | handler => exact sameAs_handler rfl rfl (onFields fun _ mem => mem)
  | node =>
    refine sameAs_node rfl rfl ((agree "node" List.mem_cons_self).getD_eq rfl) fun word h => ?_
    refine onFields fun name mem => List.mem_cons_of_mem _ ?_
    rw [h]
    exact mem
  | nodes => exact ⟨rfl, rfl⟩
  | handlers => exact rfl

/-- Arrays that differ in one place agree under all names, if they agree under the name of that
place. -/
theorem AgreeOn.of_place {names : List String} {before after : List Json} {key : String}
    {value other : Json} (length : (before ++ value :: after).length = names.length)
    (named : names[before.length]? = some key) (h : AgreeAt key (some value) (some other)) :
    AgreeOn names ((before ++ value :: after).map some) ((before ++ other :: after).map some) := by
  induction before generalizing names with
  | nil =>
    cases names with
    | nil => cases named
    | cons name names =>
      cases named
      refine .cons h (.refl ?_)
      rw [List.length_map]
      exact Nat.succ.inj length
  | cons first before ih =>
    cases names with
    | nil => cases named
    | cons name names => exact .cons (.of_getD rfl) (ih (Nat.succ.inj length) named)

/-- Two arrays are read alike if they only differ in a place where they are read alike. -/
theorem sameAs_arr {shape inner : Shape} {before after : List Json} {key : String}
    {value other : Json}
    (named : (shape.names (.placed (before ++ value :: after)))[before.length]? = some key)
    (shaped : fieldShape? key = some inner) (h : SameAs inner value other) :
    SameAs shape (.arr (before ++ value :: after)) (.arr (before ++ other :: after)) := by
  have here : AgreeAt key (some value) (some other) := .of_sameAs shaped h
  have onFields {names : List String} {before : List Json}
      (named : names[before.length]? = some key) :
      Layout.Agree names (.placed (before ++ value :: after))
        (.placed (before ++ other :: after)) := by
    unfold Layout.Agree Layout.fields?
    have same : (before ++ other :: after).length = (before ++ value :: after).length := by simp
    dsimp only
    rw [same]
    split
    next length => exact .some (.of_place length named here)
    next => exact .none
  cases shape with
  | tree => exact sameAs_tree rfl rfl (onFields named)
  | module => exact sameAs_module rfl rfl (onFields named)
  | handler => exact sameAs_handler rfl rfl (onFields named)
  | node =>
    -- The first place is that of the tag, which holds no part of the tree.
    cases before with
    | nil =>
      cases named
      cases shaped
    | cons tag before =>
      refine sameAs_node rfl rfl rfl fun word h => onFields ?_
      rw [Shape.names, h] at named
      exact named
  | nodes => cases named
  | handlers => cases named

/-- A list in which one item is exchanged for another that gives the same gives the same as a
whole. -/
theorem mapM_congr_at {α β : Type} {f : α → Option β} {before after : List α} {value other : α}
    (h : f value = f other) :
    (before ++ value :: after).mapM f = (before ++ other :: after).mapM f := by
  rw [List.mapM_append, List.mapM_append, List.mapM_cons, List.mapM_cons, h]

/-- The same for a list of values that are read before they are gone through. -/
theorem mapM_readings_congr_at {β : Type} {f : Reading → Option β} {before after : List Json}
    {value other : Json} (h : f value.reading = f other.reading) :
    (readings (before ++ value :: after)).mapM f =
      (readings (before ++ other :: after)).mapM f := by
  rw [Layout.readings_eq_map, Layout.readings_eq_map, List.map_append, List.map_append,
    List.map_cons, List.map_cons]
  exact mapM_congr_at h

/-- Values that stand for the same node are the same node by themselves, for they give their tags
alike. -/
theorem ofJson?_congr (h : SameAs .node value other) : Node.ofJson? value = Node.ofJson? other := by
  rw [Node.ofJson?, Node.ofJson?, h.2.1, h.1]

theorem sameAs_nodes {before after : List Json} (h : SameAs .node value other) :
    SameAs .nodes (.arr (before ++ value :: after)) (.arr (before ++ other :: after)) :=
  ⟨mapM_readings_congr_at h.1, mapM_congr_at (ofJson?_congr h)⟩

theorem sameAs_handlers {before after : List Json} (h : SameAs .handler value other) :
    SameAs .handlers (.arr (before ++ value :: after)) (.arr (before ++ other :: after)) :=
  mapM_readings_congr_at h

section

variable {before after : List (String × Json)} {name key : String}

/-- The order of members does not matter as long as no name comes twice. -/
theorem lookup_perm {members others : List (String × Json)} (perm : members.Perm others)
    (distinct : (members.map Prod.fst).Nodup) (name : String) :
    members.lookup name = others.lookup name := by
  induction perm with
  | nil => rfl
  | cons member _ ih =>
    rw [List.map_cons, List.nodup_cons] at distinct
    rw [List.lookup_cons, List.lookup_cons, ih distinct.2]
  | swap first second rest =>
    obtain ⟨one, value⟩ := first
    obtain ⟨two, other⟩ := second
    have apart : two ≠ one := fun same => by simp [same] at distinct
    simp only [List.lookup_cons]
    by_cases here : name = one
    · subst here
      have not : (name == two) = false := by simpa using Ne.symm apart
      rw [not]
    · have not : (name == one) = false := by simpa using here
      rw [not]
  | trans perm _ ih ih' =>
    exact (ih distinct).trans (ih' ((perm.map Prod.fst).nodup_iff.mp distinct))

/-- A member of another name does not matter. -/
theorem lookup_insert_of_ne (h : name ≠ key) (value : Json) :
    (before ++ (key, value) :: after).lookup name = (before ++ after).lookup name := by
  have other : (name == key) = false := by simpa using h
  rw [List.lookup_append, List.lookup_append, List.lookup_cons, other]

/-- A member is found unless one of its name stands before it. -/
theorem lookup_insert_self (h : before.lookup key = none) (value : Json) :
    (before ++ (key, value) :: after).lookup key = some value := by
  rw [List.lookup_append, h, List.lookup_cons_self]
  rfl

/-- A member that is null may as well be absent. -/
theorem getD_lookup_dropNull (distinct : ((before ++ (key, null) :: after).map Prod.fst).Nodup) :
    ((before ++ (key, null) :: after).lookup name).getD null =
      ((before ++ after).lookup name).getD null := by
  by_cases here : name = key
  · subst here
    rw [List.map_append, List.map_cons, List.perm_middle.nodup_iff, List.nodup_cons] at distinct
    have absent : (before ++ after).lookup name = none := by
      rw [List.lookup_eq_none_iff]
      intro member mem
      have other : name ≠ member.1 := by
        rintro rfl
        have fresh : member.1 ∉ (before ++ after).map Prod.fst := by
          rw [List.map_append]
          exact distinct.1
        exact fresh (List.mem_map_of_mem mem)
      simpa using other
    have first : before.lookup name = none := by
      rw [List.lookup_append] at absent
      exact (Option.or_eq_none_iff.mp absent).1
    rw [absent, lookup_insert_self first]
    rfl
  · rw [lookup_insert_of_ne here]

/-- Exchanging one member for another that is read alike keeps agreement under every name. If an
earlier member has the same name, it is the one that is found, before and after. -/
theorem agreeAt_member {inner : Shape} (shaped : fieldShape? key = some inner)
    (h : SameAs inner value other) :
    AgreeAt name ((before ++ (key, value) :: after).lookup name)
      ((before ++ (key, other) :: after).lookup name) := by
  by_cases here : name = key
  · subst here
    cases first : before.lookup name with
    | some found =>
      refine .of_getD ?_
      rw [List.lookup_append, List.lookup_append, first]
      rfl
    | none =>
      rw [lookup_insert_self first, lookup_insert_self first]
      exact .of_sameAs shaped h
  · rw [lookup_insert_of_ne here, lookup_insert_of_ne here]
    exact .of_getD rfl

end

/-- Variants are read alike. -/
theorem Variant.sameAs {shape : Shape} (h : Variant shape value other) :
    SameAs shape value other := by
  induction h with
  | refl => exact .refl
  | trans _ _ ih ih' => exact ih.trans ih'
  | reorder distinct perm =>
    refine sameAs_obj fun name _ => .of_getD ?_
    rw [lookup_perm perm distinct]
  | @add _ _ _ key _ unknown =>
    refine sameAs_obj fun name mem => .of_getD ?_
    have known : name ≠ key := by
      rintro rfl
      exact unknown mem
    rw [lookup_insert_of_ne known]
  | dropNull distinct => exact sameAs_obj fun name _ => .of_getD (getD_lookup_dropNull distinct)
  | member shaped _ ih => exact sameAs_obj fun name _ => agreeAt_member shaped ih
  | place named shaped _ ih => exact sameAs_arr named shaped ih
  | node _ ih => exact sameAs_nodes ih
  | handler _ ih => exact sameAs_handlers ih

end Json

/-- **The JSON form of a tree is lossless and stable.** A tree whose lines fit is read back from its
JSON form. What is read from a value is read from every variant of it as well, so it is also written
the same; and what was read once is read again from how it is written. -/
theorem Tree.json_lossless_stable :
    (∀ tree : Tree, tree.LinesFit → Tree.ofJson? tree.toJson = some tree) ∧
      ∀ (value : Json) (tree : Tree), Tree.ofJson? value = some tree →
        Tree.ofJson? tree.toJson = some tree ∧
          ∀ variant, Json.Variant .tree value variant →
            Tree.ofJson? variant = some tree ∧
              (Tree.ofJson? variant).map Tree.toJson = (Tree.ofJson? value).map Tree.toJson := by
  refine ⟨fun tree fit => Tree.ofJson?_toJson_of_linesFit fit, fun value tree h => ⟨?_, ?_⟩⟩
  · exact Tree.ofJson?_toJson_of_linesFit (Tree.linesFit_of_ofJson? h)
  · intro variant written
    have same : Tree.ofJson? value = Tree.ofJson? variant := written.sameAs
    rw [← same]
    exact ⟨h, rfl⟩

/-- The tree of a call in a protected block, whose handler takes every type. -/
def Tree.caughtRun : Tree where
  sourceName := "a.py"
  body := [.tryBlock (some 1) [.call (some 2) (.name none "run") []]
    [.mk (some 3) none (some "e") [.name (some 4) "e"]] [] []]

/-- The JSON form of that tree around the object of its handler. -/
def caughtRunJson (handler : Json) : Json :=
  .obj [("source_name", .str "a.py"), ("module", .obj [("body", .arr [.obj [("node", .str "try"),
    ("line", .nat 1), ("body", .arr [.obj [("node", .str "call"), ("line", .nat 2),
      ("func", .obj [("node", .str "name"), ("line", .null), ("id", .str "run")]),
      ("args", .arr [])]]), ("handlers", .arr [handler]), ("orelse", .arr []),
    ("finalbody", .arr [])]])])]

/-- The handler written otherwise: without the type, and the name in its body with a member that
names do not have and with its members in another order. -/
def handlerVariant : Json :=
  .obj [("line", .nat 3), ("name", .str "e"), ("body", .arr [.obj [("id", .str "e"),
    ("node", .str "name"), ("line", .nat 4), ("elts", .nat 1)]])]

/-- The other way of writing the handler is a variant of its own object: the null is dropped, and in
the name inside the members change places and one is added. -/
theorem variant_handlerVariant :
    Json.Variant .handler (Handler.mk (some 3) none (some "e") [.name (some 4) "e"]).toJson
      handlerVariant := by
  have reorder : Json.Variant .node
      (.obj ([("node", .str "name"), ("line", .nat 4)] ++ ("id", .str "e") :: []))
      (.obj [("id", .str "e"), ("node", .str "name"), ("line", .nat 4)]) :=
    .reorder (by decide) List.perm_middle
  have add : Json.Variant .node
      (.obj ([("id", .str "e"), ("node", .str "name"), ("line", .nat 4)] ++ []))
      (.obj ([("id", .str "e"), ("node", .str "name"), ("line", .nat 4)] ++
        ("elts", .nat 1) :: [])) :=
    .add (by decide)
  have names : Json.Variant .nodes (.arr ([] ++ _ :: [])) (.arr ([] ++ _ :: [])) :=
    .node (reorder.trans add)
  have body : Json.Variant .handler
      (.obj ([("line", .nat 3), ("name", .str "e")] ++ ("body", _) :: []))
      (.obj ([("line", .nat 3), ("name", .str "e")] ++ ("body", _) :: [])) :=
    .member rfl names
  refine .trans ?_ body
  show Json.Variant .handler (.obj ([("line", _)] ++ ("type_expr", .null) :: [_, _]))
    (.obj ([("line", _)] ++ [_, _]))
  exact .dropNull (by decide)

/-- What the handler may be written as, the tree around it may be as well. -/
theorem variant_caughtRunJson {handler other : Json}
    (inside : Json.Variant .handler handler other) :
    Json.Variant .tree (caughtRunJson handler) (caughtRunJson other) := by
  show Json.Variant .tree (.obj ([("source_name", _)] ++ ("module", .obj ([] ++ ("body", _) :: []))
    :: [])) (.obj ([("source_name", _)] ++ ("module", .obj ([] ++ ("body", _) :: [])) :: []))
  refine .member rfl (.member rfl ?_)
  show Json.Variant .nodes (.arr ([] ++ .obj ([_, _, _] ++ ("handlers", _) :: [_, _]) :: []))
    (.arr ([] ++ .obj ([_, _, _] ++ ("handlers", _) :: [_, _]) :: []))
  refine .node (.member rfl ?_)
  show Json.Variant .handlers (.arr ([] ++ handler :: [])) (.arr ([] ++ other :: []))
  exact .handler inside

/-- This tree has four lines, all of which fit. It is read back from its JSON form, and just so from
the variant with the handler written otherwise. -/
theorem Tree.json_lossless_stable_caughtRun :
    Tree.caughtRun.LinesFit ∧ nodesLines Tree.caughtRun.body = [1, 2, 3, 4] ∧
      Tree.ofJson? Tree.caughtRun.toJson = some .caughtRun ∧
      Json.Variant .tree Tree.caughtRun.toJson (caughtRunJson handlerVariant) ∧
      Tree.ofJson? (caughtRunJson handlerVariant) = some .caughtRun := by
  obtain ⟨lossless, stable⟩ := Tree.json_lossless_stable
  have lines : nodesLines Tree.caughtRun.body = [1, 2, 3, 4] := rfl
  have fit : Tree.caughtRun.LinesFit := by
    rw [Tree.LinesFit, lines, Fit]
    decide
  have back := lossless .caughtRun fit
  have written : Json.Variant .tree Tree.caughtRun.toJson (caughtRunJson handlerVariant) :=
    variant_caughtRunJson variant_handlerVariant
  exact ⟨fit, lines, back, written, ((stable _ _ back).2 _ written).1⟩

end SourceAudit
