import SourceAudit.Proofs.Concrete.Lower

/-!
# What lowering goes into

The rule for a construct lowers some nodes inside it and passes over the others, and it may refuse
the construct itself. `Concrete.visits` lists the nodes that it lowers and `Concrete.refusals` what
it has against the construct: neither depends on how the nodes inside are lowered, or on whether
they can be. That the rules do no more and no less than this is `comesDownTo_lowerKind`.

Blocks, clauses, lists of arguments, links of chains and interpolations are not lowered as nodes.
They are gone through, and what is visited in their place is what they hold.
-/

namespace SourceAudit

/-! ## Steps that come down to lowering -/

section

variable {α β : Type} {lower : Lowering}

/-- A step comes down to lowering the nodes `inner`, apart from the `refusals` that it has against
the construct itself: it succeeds only if they all can be lowered and there are no refusals, and it
fails only by a refusal or by what one of them fails by. -/
structure ComesDownTo (lower : Lowering) (inner : List Concrete) (refusals : List ParseError)
    (step : Except ParseError α) : Prop where
  ok : ∀ {value}, step = .ok value →
    refusals = [] ∧ ∀ node ∈ inner, ∃ lowered, lower node = .ok lowered
  error : ∀ {error}, step = .error error →
    error ∈ refusals ∨ ∃ node ∈ inner, lower node = .error error

namespace ComesDownTo

variable {inner more : List Concrete} {refusals others : List ParseError}
  {step : Except ParseError α}

theorem pure (value : α) : ComesDownTo lower [] [] (.ok value : Except ParseError α) where
  ok _ := ⟨rfl, fun _ mem => by cases mem⟩
  error h := by cases h

/-- A step that refuses at once lowers nothing. -/
theorem refuse (error : ParseError) :
    ComesDownTo lower [] [error] (.error error : Except ParseError α) where
  ok h := by cases h
  error h := by
    cases h
    exact .inl List.mem_cons_self

/-- To lower a node comes down to lowering it. -/
theorem single (node : Concrete) : ComesDownTo lower [node] [] (lower node) where
  ok {lowered} h := by
    refine ⟨rfl, fun other mem => ?_⟩
    rw [List.mem_singleton.mp mem]
    exact ⟨lowered, h⟩
  error h := .inr ⟨node, List.mem_singleton_self node, h⟩

/-- One step after another comes down to what both do. -/
theorem bind {next : α → Except ParseError β} (first : ComesDownTo lower inner refusals step)
    (second : ∀ value, step = .ok value → ComesDownTo lower more others (next value)) :
    ComesDownTo lower (inner ++ more) (refusals ++ others) (step >>= next) where
  ok h := by
    obtain ⟨value, hvalue, h⟩ := bind_eq_ok.mp h
    obtain ⟨noRefusals, allInner⟩ := first.ok hvalue
    obtain ⟨noOthers, allMore⟩ := (second value hvalue).ok h
    refine ⟨by rw [noRefusals, noOthers]; rfl, fun node mem => ?_⟩
    rcases List.mem_append.mp mem with mem | mem
    · exact allInner node mem
    · exact allMore node mem
  error {error} h := by
    cases hstep : step with
    | error refusal =>
      rw [hstep] at h
      cases h
      rcases first.error hstep with mem | ⟨node, mem, failed⟩
      · exact .inl (List.mem_append_left _ mem)
      · exact .inr ⟨node, List.mem_append_left _ mem, failed⟩
    | ok value =>
      rw [hstep] at h
      rcases (second value hstep).error h with mem | ⟨node, mem, failed⟩
      · exact .inl (List.mem_append_right _ mem)
      · exact .inr ⟨node, List.mem_append_right _ mem, failed⟩

/-- What is made of the value afterwards does not count. -/
theorem map (f : α → β) (first : ComesDownTo lower inner refusals step) :
    ComesDownTo lower inner refusals (step >>= fun value => .ok (f value)) := by
  have both : ComesDownTo lower (inner ++ []) (refusals ++ [])
      (step >>= fun value => .ok (f value)) :=
    first.bind fun value _ => pure (f value)
  rwa [List.append_nil, List.append_nil] at both

/-- A list of steps comes down to what each of them does, one after the other. -/
theorem mapM {step : β → Except ParseError α} {inner : β → List Concrete} {inputs : List β}
    (each : ∀ input, ComesDownTo lower (inner input) [] (step input)) :
    ComesDownTo lower (inputs.flatMap inner) [] (inputs.mapM step) := by
  induction inputs with
  | nil => exact pure []
  | cons input inputs ih =>
    rw [List.mapM_cons, List.flatMap_cons]
    exact (each input).bind fun first _ => ih.map (first :: ·)

/-- A loop comes down to what its steps do, if that does not depend on the value that is carried
along. -/
theorem foldlM {step : α → β → Except ParseError α} {inner : β → List Concrete}
    {refusals : β → List ParseError} {inputs : List β} {start : α}
    (each : ∀ value input, ComesDownTo lower (inner input) (refusals input) (step value input)) :
    ComesDownTo lower (inputs.flatMap inner) (inputs.flatMap refusals)
      (inputs.foldlM step start) := by
  induction inputs generalizing start with
  | nil => exact pure start
  | cons input inputs ih =>
    rw [List.foldlM_cons, List.flatMap_cons, List.flatMap_cons]
    exact (each start input).bind fun _ _ => ih

end ComesDownTo

/-- The nodes of a list, each lowered. -/
theorem comesDownTo_mapM (nodes : List Concrete) :
    ComesDownTo lower nodes [] (nodes.mapM lower) := by
  have each : ComesDownTo lower (nodes.flatMap ([·])) [] (nodes.mapM lower) := .mapM .single
  rwa [List.flatMap_singleton'] at each

end

/-! ## The nodes that a rule lowers -/

namespace Concrete

/-- The parts of the node known as `field`. -/
def fieldParts (field : String) (node : Concrete) : List Concrete :=
  (node.field? field).toList.flatMap parts

/-- Of the expressions in a handler, the type that it takes. -/
def typeVisits : List Concrete → List Concrete
  | [] => []
  | first :: _ => if first.kind = "as_pattern" then first.parts.take 1 else [first]

/-- In a handler: the statements of its blocks, and its type. -/
def handlerVisits (clause : Concrete) : List Concrete :=
  (clause.parts.filter isBlock).flatMap parts ++ typeVisits (clause.parts.filter (!·.isBlock))

/-- In a clause of a protected block. -/
def clauseVisits (clause : Concrete) : List Concrete :=
  if clause.isClause .handler then clause.handlerVisits
  else if clause.isClause .orelse || clause.isClause .finalbody then
    (clause.named.find? isBlock).toList.flatMap parts
  else []

/-- In the arguments of a call. -/
def argumentVisits (node : Concrete) : List Concrete :=
  match node.field? "arguments" with
  | some arguments => if arguments.kind = "argument_list" then arguments.parts else [arguments]
  | none => []

/-- In a chain of assignments: its targets and its value. A chain that breaks off is lowered as a
construct without a rule as well. -/
def assignmentVisits (node : Concrete) : List Concrete :=
  match node.field? "type" with
  | some _ => node.parts
  | none =>
    node.assignments.1 ++ match node.assignments.2 with
      | some value => [value]
      | none => node.parts

/-- In a call: its arguments and what is called. -/
def callVisits (node : Concrete) : List Concrete :=
  match node.field? "function" with
  | some function => node.argumentVisits ++ [function]
  | none => node.parts

/-- In an attribute access: the object. -/
def accessVisits (node : Concrete) : List Concrete :=
  match node.field? "object", node.field? "attribute" with
  | some object, some _ => [object]
  | _, _ => node.parts

/-- In a chain of one operator: its operands. -/
def operatorVisits (node : Concrete) : List Concrete :=
  match node.field? "left", node.field? "right" with
  | some _, some _ => node.operands node.kind
  | _, _ => node.parts

/-- In a print statement that shifts something: what is in the chevron, and what follows it. -/
def printVisits (node : Concrete) : List Concrete :=
  match node.parts with
  | first :: rest => if first.kind = "chevron" then first.parts ++ rest else []
  | [] => []

/-- The nodes that lowering a node goes on to lower. -/
def visits (source : Source) (node : Concrete) : List Concrete :=
  if node.kind = "try_statement" then
    node.fieldParts "body" ++ node.named.flatMap clauseVisits
  else if node.kind ∈ definitionKinds then
    headerFields.filterMap node.field? ++ node.fieldParts "body"
  else if node.kind = "assignment" then node.assignmentVisits
  else if node.kind = "call" then node.callVisits
  else if node.kind = "attribute" then node.accessVisits
  else if node.kind ∈ "identifier" :: "exec_statement" :: literalKinds then []
  else if node.kind ∈ stringKinds then
    if source.isFormatted node then node.interpolations.flatMap parts else []
  else if node.kind = "parenthesized_expression" then node.parts.take 1
  else if node.kind ∈ operatorKinds then node.operatorVisits
  else if node.kind = "print_statement" then node.printVisits
  else node.parts

/-- What lowering has against a handler: the commas between its types. -/
def handlerRefusals (source : Source) (clause : Concrete) : List ParseError :=
  (clause.children.filter (·.kind = ",")).map (source.errorAt · .bareTypes)

/-- Whether a print statement shifts something, as the language still lets it. -/
def startsWithChevron (node : Concrete) : Bool := node.parts.head?.any (·.kind = "chevron")

/-- What lowering has against a node itself. -/
def refusals (source : Source) (node : Concrete) : List ParseError :=
  if node.kind = "try_statement" then
    (node.named.filter (isClause .handler)).flatMap (handlerRefusals source)
  else if node.kind = "print_statement" then
    if node.startsWithChevron then [] else [source.errorAt node .printStatement]
  else if node.kind = "exec_statement" then [source.errorAt node .execStatement]
  else []

/-- The kinds of nodes that lowering may refuse, or of which it does not lower every part. -/
def selectiveKinds : List String :=
  ["try_statement", "assignment", "call", "attribute", "identifier", "exec_statement",
    "parenthesized_expression", "print_statement"] ++
    definitionKinds ++ literalKinds ++ stringKinds ++ operatorKinds

/-- Apart from the selective kinds, lowering goes into every part of a node and has nothing against
it. -/
theorem visits_eq_parts {source : Source} {node : Concrete} (h : node.kind ∉ selectiveKinds) :
    node.visits source = node.parts ∧ node.refusals source = [] := by
  simp only [selectiveKinds, definitionKinds, literalKinds, stringKinds, operatorKinds,
    List.cons_append, List.nil_append, List.mem_cons, List.not_mem_nil, or_false, not_or] at h
  simp [visits, refusals, definitionKinds, literalKinds, stringKinds, operatorKinds, h]

/-- Only protected blocks, print statements and exec statements are ever refused for themselves. -/
theorem refusals_eq_nil {source : Source} {node : Concrete}
    (h : node.kind ∉ ["try_statement", "print_statement", "exec_statement"]) :
    node.refusals source = [] := by
  simp only [List.mem_cons, List.not_mem_nil, or_false, not_or] at h
  simp [refusals, h]

end Concrete

/-! ## Rule by rule -/

section

variable {source : Source} {lower : Lowering} {node clause : Concrete}

/-- A construct without a rule comes down to its parts. -/
theorem comesDownTo_lowerOther : ComesDownTo lower node.parts [] (lowerOther lower node) :=
  (comesDownTo_mapM node.parts).map _

/-- A field comes down to the parts of the node under it. The node itself is gone through and not
lowered. -/
theorem comesDownTo_lowerField (field : String) :
    ComesDownTo lower (node.fieldParts field) [] (lowerField lower field node) := by
  unfold lowerField Concrete.fieldParts
  cases node.field? field with
  | none => exact .pure []
  | some inner =>
    rw [Option.toList_some, List.flatMap_singleton]
    exact comesDownTo_mapM inner.parts

/-- A clause comes down to the statements of its first block. -/
theorem comesDownTo_lowerClauseBody :
    ComesDownTo lower ((clause.named.find? Concrete.isBlock).toList.flatMap Concrete.parts) []
      (lowerClauseBody lower clause) := by
  show ComesDownTo lower _ _ (match clause.named.find? Concrete.isBlock with
    | some block => lowerParts lower block
    | none => pure [])
  cases clause.named.find? Concrete.isBlock with
  | none => exact .pure []
  | some block =>
    rw [Option.toList_some, List.flatMap_singleton]
    exact comesDownTo_mapM block.parts

/-- The type of a handler comes down to the one expression that is taken for it, and the rest is
passed over. -/
theorem comesDownTo_lowerHandlerType (exprs : List Concrete) :
    ComesDownTo lower (Concrete.typeVisits exprs) [] (lowerHandlerType lower exprs) := by
  cases exprs with
  | nil => exact .pure none
  | cons first rest =>
    unfold lowerHandlerType Concrete.typeVisits
    dsimp only
    split
    next =>
      cases first.parts with
      | nil => exact .pure none
      | cons type others => exact (ComesDownTo.single type).map some
    next => exact (ComesDownTo.single first).map some

/-- To expand only the items with a property is to filter them first. -/
theorem flatMap_ite {α β : Type} (p : α → Bool) (f : α → List β) (xs : List α) :
    (xs.flatMap fun x => if p x then f x else []) = (xs.filter p).flatMap f := by
  induction xs with
  | nil => rfl
  | cons x xs ih =>
    rw [List.flatMap_cons, List.filter_cons, ih]
    split
    next => rw [List.flatMap_cons]
    next => rfl

/-- A child of a handler comes down to its statements if it is a block, and is refused if it is a
comma. -/
theorem comesDownTo_lowerHandlerBlock (body : List Node) (child : Concrete) :
    ComesDownTo lower (if child.isPart && child.isBlock then child.parts else [])
      (if child.kind = "," then [source.errorAt child .bareTypes] else [])
      (lowerHandlerBlock source lower body child) := by
  unfold lowerHandlerBlock
  by_cases comma : child.kind = ","
  · have noBlock : child.isBlock = false := by simp [Concrete.isBlock, comma]
    simp only [comma, noBlock, Bool.and_false, Bool.false_eq_true, if_false, if_true]
    exact .refuse _
  · rw [if_neg comma, if_neg comma]
    split
    next => exact comesDownTo_mapM child.parts
    next => exact .pure body

/-- A handler comes down to the statements of all its blocks and to its type, and is refused for
every comma in it. The statements of a block that a later one replaces are lowered all the same. -/
theorem comesDownTo_lowerHandler :
    ComesDownTo lower clause.handlerVisits (clause.handlerRefusals source)
      (lowerHandler source lower clause) := by
  have read : ComesDownTo lower _ _
      (clause.children.foldlM (lowerHandlerBlock source lower) []) :=
    .foldlM comesDownTo_lowerHandlerBlock
  have blocks : (clause.children.flatMap fun child =>
        if child.isPart && child.isBlock then child.parts else []) =
      (clause.parts.filter Concrete.isBlock).flatMap Concrete.parts := by
    rw [flatMap_ite, Concrete.parts, List.filter_filter]
    simp only [Bool.and_comm]
  have commas : (clause.children.flatMap fun child =>
        if child.kind = "," then [source.errorAt child .bareTypes] else []) =
      clause.handlerRefusals source := by
    have := flatMap_ite (fun child : Concrete => decide (child.kind = ","))
      (fun child => [source.errorAt child .bareTypes]) clause.children
    simp only [decide_eq_true_eq] at this
    rw [this, Concrete.handlerRefusals, List.map_eq_flatMap]
  rw [blocks, commas] at read
  rw [← List.append_nil (clause.handlerRefusals source), lowerHandler_eq]
  -- The type is that of the clause, whatever its blocks hold.
  exact read.bind fun _ _ => (comesDownTo_lowerHandlerType clause.exprs).map _

/-- A clause comes down to what its sort has; one of another kind is passed over. -/
theorem comesDownTo_lowerClause (clauses : Clauses) (clause : Concrete) :
    ComesDownTo lower clause.clauseVisits
      (if clause.isClause .handler then clause.handlerRefusals source else [])
      (lowerClause source lower clauses clause) := by
  unfold lowerClause Concrete.clauseVisits
  by_cases handler : clause.isClause .handler
  · have kind : (clause.kind = "except_clause" || clause.kind = "except_group_clause") := handler
    rw [if_pos handler, if_pos handler, if_pos kind]
    exact comesDownTo_lowerHandler.map _
  · have kind : ¬(clause.kind = "except_clause" || clause.kind = "except_group_clause") := handler
    rw [if_neg handler, if_neg handler, if_neg kind]
    by_cases orelse : clause.kind = "else_clause"
    · simp only [Concrete.isClause, orelse, decide_true, Bool.true_or, if_true]
      exact comesDownTo_lowerClauseBody.map _
    · by_cases finalbody : clause.kind = "finally_clause"
      · simp only [Concrete.isClause, finalbody, decide_true, Bool.or_true, if_true]
        exact comesDownTo_lowerClauseBody.map _
      · simp only [Concrete.isClause, orelse, finalbody, decide_false, Bool.or_false,
          Bool.false_eq_true, if_false]
        exact .pure clauses

/-- A protected block comes down to its statements and to those of its clauses. It is refused for
the commas in its handlers. -/
theorem comesDownTo_lowerTry :
    ComesDownTo lower (node.fieldParts "body" ++ node.named.flatMap Concrete.clauseVisits)
      ((node.named.filter (Concrete.isClause .handler)).flatMap (Concrete.handlerRefusals source))
      (lowerTry source lower node) := by
  have clauses : ComesDownTo lower _ _
      (node.named.foldlM (lowerClause source lower) ⟨[], [], []⟩) :=
    .foldlM comesDownTo_lowerClause
  rw [flatMap_ite] at clauses
  rw [← List.nil_append ((node.named.filter _).flatMap _)]
  exact (comesDownTo_lowerField "body").bind fun _ _ => clauses.map _

/-- A definition comes down to its header, field by field, and to the statements of its body. Its
name is read as a text. -/
theorem comesDownTo_lowerDefinition (kind : DefinitionKind) :
    ComesDownTo lower (headerFields.filterMap node.field? ++ node.fieldParts "body") []
      (lowerDefinition source lower node kind) := by
  exact (comesDownTo_mapM (headerFields.filterMap node.field?)).bind fun _ _ =>
    (comesDownTo_lowerField "body").map _

/-- An expression statement comes down to its parts, also where it has none and is taken as a
construct without a rule. -/
theorem comesDownTo_lowerExpressionStatement :
    ComesDownTo lower node.parts [] (lowerExpressionStatement lower node) := by
  rw [← List.append_nil node.parts]
  refine (comesDownTo_mapM node.parts).bind fun lowered h => ?_
  split
  next =>
    -- Nothing was lowered, so there is nothing to lower.
    have none : node.parts = [] := List.forall₂_nil_right_iff.mp (mapM_eq_ok.mp h)
    have other : ComesDownTo lower node.parts [] (lowerOther lower node) := comesDownTo_lowerOther
    rwa [none] at other
  next only => exact .pure only
  next => exact .pure _

/-- A chain of assignments comes down to its targets and its value. Where it breaks off, the targets
are lowered first and then the parts. -/
theorem comesDownTo_lowerAssignment :
    ComesDownTo lower node.assignmentVisits [] (lowerAssignment lower node) := by
  unfold lowerAssignment Concrete.assignmentVisits
  cases node.field? "type" with
  | some _ => exact (comesDownTo_mapM node.parts).map _
  | none =>
    refine (comesDownTo_mapM node.assignments.1).bind fun targets _ => ?_
    cases node.assignments.2 with
    | some value => exact (ComesDownTo.single value).map _
    | none => exact comesDownTo_lowerOther

/-- The arguments of a call come down to the parts of their list, or to the one node in its
place. -/
theorem comesDownTo_lowerArguments :
    ComesDownTo lower node.argumentVisits [] (lowerArguments lower node) := by
  unfold lowerArguments Concrete.argumentVisits
  cases node.field? "arguments" with
  | none => exact .pure []
  | some arguments =>
    dsimp only
    split
    next => exact comesDownTo_mapM arguments.parts
    next => exact (ComesDownTo.single arguments).map _

/-- A call comes down to its arguments and then to what is called. -/
theorem comesDownTo_lowerCall :
    ComesDownTo lower node.callVisits [] (lowerCall lower node) := by
  unfold lowerCall Concrete.callVisits
  cases node.field? "function" with
  | none => exact comesDownTo_lowerOther
  | some function =>
    exact comesDownTo_lowerArguments.bind fun _ _ => (ComesDownTo.single function).map _

/-- An access comes down to its object; the attribute is read as a text. -/
theorem comesDownTo_lowerAccess :
    ComesDownTo lower node.accessVisits [] (lowerAccess source lower node) := by
  unfold lowerAccess Concrete.accessVisits
  cases node.field? "object" with
  | none => exact comesDownTo_lowerOther
  | some object =>
    cases node.field? "attribute" with
    | none => exact comesDownTo_lowerOther
    | some attr => exact (ComesDownTo.single object).map _

/-- Parentheses come down to their first part and pass over the others. -/
theorem comesDownTo_lowerParenthesized :
    ComesDownTo lower (node.parts.take 1) [] (lowerParenthesized lower node) := by
  unfold lowerParenthesized
  cases h : node.parts with
  | nil =>
    have other : ComesDownTo lower node.parts [] (lowerOther lower node) := comesDownTo_lowerOther
    rwa [h] at other
  | cons inner rest => exact .single inner

/-- A formatted string comes down to the parts of its interpolations, and any other string to
nothing. -/
theorem comesDownTo_lowerString :
    ComesDownTo lower
      (if source.isFormatted node then node.interpolations.flatMap Concrete.parts else []) []
      (lowerString source lower node) := by
  unfold lowerString
  split
  next => exact (ComesDownTo.mapM fun _ => comesDownTo_lowerOther).map _
  next => exact .pure _

/-- A chain comes down to its operands. Its links are gone through, and no level is spent on
them. -/
theorem comesDownTo_lowerOperators :
    ComesDownTo lower node.operatorVisits [] (lowerOperators lower node) := by
  unfold lowerOperators Concrete.operatorVisits
  cases node.field? "left" with
  | none => exact comesDownTo_lowerOther
  | some left =>
    cases node.field? "right" with
    | none => exact comesDownTo_lowerOther
    | some right => exact (comesDownTo_mapM (node.operands node.kind)).map _

/-- A print statement comes down to what is in its chevron and behind it, and is refused if it does
not start with one. -/
theorem comesDownTo_lowerPrint :
    ComesDownTo lower node.printVisits
      (if node.startsWithChevron then [] else [source.errorAt node .printStatement])
      (lowerPrint source lower node) := by
  unfold lowerPrint Concrete.printVisits Concrete.startsWithChevron
  cases node.parts with
  | nil => exact .refuse _
  | cons first rest =>
    by_cases chevron : first.kind = "chevron"
    · simp only [List.head?_cons, Option.any_some, chevron, decide_true, if_true]
      exact (comesDownTo_mapM first.parts).bind fun _ _ => (comesDownTo_mapM rest).map _
    · simp only [List.head?_cons, Option.any_some, chevron, decide_false, if_false,
        Bool.false_eq_true]
      exact .refuse _

/-- **Lowering a construct comes down to lowering what it visits**, apart from what it has against
the construct itself. -/
theorem comesDownTo_lowerKind :
    ComesDownTo lower (node.visits source) (node.refusals source)
      (lowerKind source lower node) := by
  -- Where every part is lowered and nothing is refused, the rule makes one node of the parts.
  have taking {step : Except ParseError Node} (kind : node.kind ∉ Concrete.selectiveKinds)
      (h : ComesDownTo lower node.parts [] step) :
      ComesDownTo lower (node.visits source) (node.refusals source) step := by
    rwa [(Concrete.visits_eq_parts kind).1, (Concrete.visits_eq_parts kind).2]
  have choosing {step : Except ParseError Node} {inner : List Concrete}
      (kind : node.kind ∉ ["try_statement", "print_statement", "exec_statement"])
      (visits : node.visits source = inner) (h : ComesDownTo lower inner [] step) :
      ComesDownTo lower (node.visits source) (node.refusals source) step := by
    rwa [visits, Concrete.refusals_eq_nil kind]
  unfold lowerKind
  split
  next kind =>
    rw [Concrete.visits, Concrete.refusals, if_pos kind, if_pos kind]
    exact comesDownTo_lowerTry
  iterate 2
    next kind =>
      refine choosing (by simp [kind]) ?_ (comesDownTo_lowerDefinition _)
      simp [Concrete.visits, definitionKinds, kind]
  next kind => exact taking (by rw [kind]; decide) comesDownTo_lowerExpressionStatement
  next kind =>
    refine choosing (by simp [kind]) ?_ comesDownTo_lowerAssignment
    simp [Concrete.visits, definitionKinds, kind]
  next kind =>
    refine choosing (by simp [kind]) ?_ comesDownTo_lowerCall
    simp [Concrete.visits, definitionKinds, kind]
  next kind =>
    refine choosing (by simp [kind]) ?_ comesDownTo_lowerAccess
    simp [Concrete.visits, definitionKinds, kind]
  iterate 7
    next kind =>
      refine choosing (by simp [kind]) ?_ (.pure _)
      simp [Concrete.visits, definitionKinds, literalKinds, kind]
  iterate 2
    next kind =>
      refine choosing (by simp [kind]) ?_ comesDownTo_lowerString
      simp [Concrete.visits, definitionKinds, literalKinds, stringKinds, kind]
  iterate 4
    next kind => exact taking (by rw [kind]; decide) ((comesDownTo_mapM node.parts).map _)
  next kind =>
    refine choosing (by simp [kind]) ?_ comesDownTo_lowerParenthesized
    simp [Concrete.visits, definitionKinds, literalKinds, stringKinds, kind]
  iterate 2
    next kind =>
      refine choosing (by simp [kind]) ?_ comesDownTo_lowerOperators
      simp [Concrete.visits, definitionKinds, literalKinds, stringKinds, operatorKinds, kind]
  next kind =>
    have visits : node.visits source = node.printVisits := by
      simp [Concrete.visits, definitionKinds, literalKinds, stringKinds, operatorKinds, kind]
    rw [visits, Concrete.refusals, kind]
    exact comesDownTo_lowerPrint
  next kind =>
    have visits : node.visits source = [] := by
      simp [Concrete.visits, definitionKinds, literalKinds, kind]
    rw [visits, Concrete.refusals, kind]
    exact .refuse _
  next =>
    refine taking ?_ comesDownTo_lowerOther
    simp only [Concrete.selectiveKinds, definitionKinds, literalKinds, stringKinds, operatorKinds,
      List.cons_append, List.nil_append, List.mem_cons, List.not_mem_nil, or_false, not_or]
    repeat' constructor
    all_goals assumption

end

end SourceAudit
