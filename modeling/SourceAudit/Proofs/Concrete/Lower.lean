import SourceAudit.Concrete.Lower
import SourceAudit.Proofs.Concrete.Site
import SourceAudit.Proofs.Outcome

/-!
# What lowering can give

One statement for each construct says what a successful lowering of it is made of, in terms of the
lowering of its parts. `lowerKind_cases` says which construct has which rule. Everything that holds
of all lowered trees is proved from these, so no proof elsewhere opens a rule again.

The two loops, over the children of a handler and over the clauses of a protected block, are said by
what they keep: a handler keeps the expressions in order and the last block, a protected block keeps
the handlers in order and the last clause of each other sort. The first loop is opened once, for
failures too: `lowerHandler_eq` takes it apart into the statements, the type and the name.
-/

namespace SourceAudit

/-! ## Chains and interpolations -/

/-- The loop over the children stops at the first one known as the left side, so it finds what
`field?` finds. -/
theorem leftOperands_eq (kind : String) (children : List Concrete) :
    leftOperands kind children =
      ((children.find? (Concrete.hasField "left")).map (Concrete.operands kind)).getD [] := by
  induction children with
  | nil => rfl
  | cons child children ih =>
    rw [leftOperands, List.find?_cons]
    cases h : child.hasField "left" with
    | false => exact ih
    | true => rfl

/-- A node of another kind, or with a side that is not known, is its own only operand. -/
theorem Concrete.operands_eq (kind : String) (node : Concrete) :
    node.operands kind =
      match node.field? "left", node.field? "right" with
      | some left, some right =>
        if node.kind = kind then left.operands kind ++ [right] else [node]
      | _, _ => [node] := by
  obtain ⟨tag, children⟩ := node
  show _ = match children.find? (hasField "left"), children.find? (hasField "right") with
      | some left, some right => if tag.kind = kind then left.operands kind ++ [right] else _
      | _, _ => _
  rw [operands, ← List.isSome_find?, leftOperands_eq]
  cases children.find? (hasField "left") with
  | none => simp
  | some left =>
    cases children.find? (hasField "right") with
    | none => simp
    | some right => simp

/-- A chain goes on to the left as long as both sides are known, and a node that is no link of it is
its own only operand. -/
theorem Concrete.operands_cases (kind : String) (node : Concrete) :
    (∃ left right, node.kind = kind ∧ node.field? "left" = some left ∧
        node.field? "right" = some right ∧ node.operands kind = left.operands kind ++ [right]) ∨
      node.operands kind = [node] := by
  rw [operands_eq]
  split
  next left right hleft hright =>
    split
    next same => exact .inl ⟨left, right, same, hleft, hright, rfl⟩
    next => exact .inr rfl
  next => exact .inr rfl

/-- The loop over the children stops at the first one known as the right side, and the chain goes on
there if it is an assignment without an annotation. -/
theorem rightAssignments_eq (children : List Concrete) :
    rightAssignments children =
      (children.find? (Concrete.hasField "right")).map fun right =>
        if right.kind = "assignment" && (right.field? "type").isNone then right.assignments
        else ([], some right) := by
  induction children with
  | nil => rfl
  | cons child children ih =>
    rw [rightAssignments, List.find?_cons]
    cases h : child.hasField "right" with
    | false => exact ih
    | true =>
      rw [if_pos rfl]
      split
      next link => rw [Option.map_some, if_pos link]
      next link => rw [Option.map_some, if_neg link]

/-- A chain goes on to the right over assignments without an annotation. -/
theorem Concrete.assignments_eq (node : Concrete) :
    node.assignments =
      match node.field? "left", node.field? "right" with
      | some left, some right =>
        if right.kind = "assignment" && (right.field? "type").isNone then
          (left :: right.assignments.1, right.assignments.2)
        else ([left], some right)
      | _, _ => ([], none) := by
  obtain ⟨tag, children⟩ := node
  show _ = match children.find? (hasField "left"), children.find? (hasField "right") with
      | some left, some right =>
        if right.kind = "assignment" && (right.field? "type").isNone then
          (left :: right.assignments.1, right.assignments.2)
        else ([left], some right)
      | _, _ => ([], none)
  rw [assignments, rightAssignments_eq]
  cases children.find? (hasField "left") with
  | none => rfl
  | some left =>
    cases children.find? (hasField "right") with
    | none => rfl
    | some right =>
      simp only [Option.map_some]
      split <;> rfl

/-- A chain with a value at its end goes on to the right, or has its value there. -/
theorem Concrete.assignments_cases {node last : Concrete} (h : node.assignments.2 = some last) :
    ∃ left right, node.field? "left" = some left ∧ node.field? "right" = some right ∧
      (right.kind = "assignment" ∧ right.field? "type" = none ∧
          right.assignments.2 = some last ∧ node.assignments.1 = left :: right.assignments.1 ∨
        right = last ∧ node.assignments.1 = [left]) := by
  rw [assignments_eq] at h ⊢
  split at h
  next left right hleft hright =>
    refine ⟨left, right, hleft, hright, ?_⟩
    split at h
    next link =>
      rw [if_pos link]
      rw [Bool.and_eq_true, decide_eq_true_eq, Option.isNone_iff_eq_none] at link
      exact .inl ⟨link.1, link.2, h, rfl⟩
    next link =>
      rw [if_neg link]
      exact .inr ⟨Option.some.inj h, rfl⟩
  next => cases h

/-- The interpolations that one named child adds to those of a string. -/
def Concrete.added (child : Concrete) : List Concrete :=
  if child.kind = "interpolation" then [child]
  else if child.kind = "string" then child.interpolations else []

/-- The interpolations of a string are what its named children add to them, in their order. -/
theorem Concrete.interpolations_eq (node : Concrete) :
    node.interpolations = node.named.flatMap Concrete.added := by
  obtain ⟨tag, children⟩ := node
  rw [interpolations, named]
  show childInterpolations children = (children.filter (·.tag.named)).flatMap _
  induction children with
  | nil => rfl
  | cons child children ih =>
    rw [childInterpolations, List.filter_cons, ih]
    cases child.tag.named with
    | false => rfl
    | true => rfl

/-! ## Single constructs -/

section

variable {source : Source} {lower : Lowering} {node clause : Concrete} {lowered : Node}

/-- A construct without a rule of its own keeps its kind, and its parts are lowered. -/
theorem lowerOther_eq_ok (h : lowerOther lower node = .ok lowered) :
    ∃ children, lowerParts lower node = .ok children ∧
      lowered = .other node.line node.kind children := by
  obtain ⟨children, hchildren, h⟩ := bind_eq_ok.mp h
  cases h
  exact ⟨children, hchildren, rfl⟩

/-- A node with two sides is lowered as the chain that it heads, with all operands on one level;
without both it is a construct without a rule. -/
theorem lowerOperators_eq_ok (h : lowerOperators lower node = .ok lowered) :
    (∃ left right operands, node.field? "left" = some left ∧ node.field? "right" = some right ∧
        (node.operands node.kind).mapM lower = .ok operands ∧
        lowered = .other node.line node.kind operands) ∨
      lowerOther lower node = .ok lowered := by
  unfold lowerOperators at h
  split at h
  next left right hleft hright =>
    obtain ⟨operands, hoperands, h⟩ := bind_eq_ok.mp h
    cases h
    exact .inl ⟨left, right, operands, hleft, hright, hoperands, rfl⟩
  next => exact .inr h

/-- A print statement that is lowered starts with a chevron. Its name and the operands of the
chevron make a shift, which stands in a tuple if anything follows it. -/
theorem lowerPrint_eq_ok (h : lowerPrint source lower node = .ok lowered) :
    ∃ chevron rest operands values, node.parts = chevron :: rest ∧ chevron.kind = "chevron" ∧
      lowerParts lower chevron = .ok operands ∧ rest.mapM lower = .ok values ∧
      lowered =
        let shift := Node.other node.line "binary_operator" (.name node.line "print" :: operands)
        if values.isEmpty then shift else .tuple node.line (shift :: values) := by
  unfold lowerPrint at h
  split at h
  next => cases h
  next chevron rest hparts =>
    split at h
    next kind =>
      obtain ⟨operands, hoperands, h⟩ := bind_eq_ok.mp h
      obtain ⟨values, hvalues, h⟩ := bind_eq_ok.mp h
      cases h
      exact ⟨chevron, rest, operands, values, hparts, kind, hoperands, hvalues, rfl⟩
    next => cases h

/-- A field that is not there holds nothing; of one that is there, the parts are lowered. -/
theorem lowerField_eq_ok {field : String} {results : List Node}
    (h : lowerField lower field node = .ok results) :
    (∃ inner, node.field? field = some inner ∧ lowerParts lower inner = .ok results) ∨
      node.field? field = none ∧ results = [] := by
  unfold lowerField at h
  split at h
  next inner hinner => exact .inl ⟨inner, hinner, h⟩
  next hnone =>
    cases h
    exact .inr ⟨hnone, rfl⟩

/-- The header of a definition is the fields that are there, in the fixed order of `headerFields`,
and each is lowered as a whole. Of the body, the parts are lowered. -/
theorem lowerDefinition_eq_ok {kind : DefinitionKind}
    (h : lowerDefinition source lower node kind = .ok lowered) :
    ∃ header body name, (headerFields.filterMap node.field?).mapM lower = .ok header ∧
      lowerField lower "body" node = .ok body ∧
      lowered = .definition node.line kind name header body := by
  obtain ⟨header, hheader, h⟩ := bind_eq_ok.mp h
  obtain ⟨body, hbody, h⟩ := bind_eq_ok.mp h
  cases h
  exact ⟨header, body, _, hheader, hbody, rfl⟩

/-- An expression statement gives way to its only part and makes a tuple of several. Without parts
it is a construct without a rule. -/
theorem lowerExpressionStatement_eq_ok (h : lowerExpressionStatement lower node = .ok lowered) :
    lowerOther lower node = .ok lowered ∨ lowerParts lower node = .ok [lowered] ∨
      ∃ several, lowerParts lower node = .ok several ∧ lowered = .tuple node.line several := by
  obtain ⟨several, hseveral, h⟩ := bind_eq_ok.mp h
  split at h
  next => exact .inl h
  next only =>
    cases h
    exact .inr (.inl hseveral)
  next =>
    cases h
    exact .inr (.inr ⟨several, hseveral, rfl⟩)

/-- An annotated assignment is a construct of its own kind, a chain with a value at its end is one
assignment to all its targets, and a chain that breaks off is a construct without a rule. -/
theorem lowerAssignment_eq_ok (h : lowerAssignment lower node = .ok lowered) :
    (∃ children, lowerParts lower node = .ok children ∧
        lowered = .other node.line "annotated_assignment" children) ∨
      (∃ targets value, node.field? "type" = none ∧
        node.assignments.1.mapM lower = .ok targets ∧
        (∃ last, node.assignments.2 = some last ∧ lower last = .ok value) ∧
        lowered = .assign node.line targets value) ∨
      lowerOther lower node = .ok lowered := by
  unfold lowerAssignment at h
  split at h
  next =>
    obtain ⟨children, hchildren, h⟩ := bind_eq_ok.mp h
    cases h
    exact .inl ⟨children, hchildren, rfl⟩
  next untyped =>
    obtain ⟨targets, htargets, h⟩ := bind_eq_ok.mp h
    split at h
    next last hlast =>
      obtain ⟨value, hvalue, h⟩ := bind_eq_ok.mp h
      cases h
      exact .inr (.inl ⟨targets, value, untyped, htargets, ⟨last, hlast, hvalue⟩, rfl⟩)
    next => exact .inr (.inr h)

/-- Arguments in a list are lowered one by one. A node in place of the list, such as a generator, is
the only argument. -/
theorem lowerArguments_eq_ok {args : List Node} (h : lowerArguments lower node = .ok args) :
    (∃ arguments, node.field? "arguments" = some arguments ∧ arguments.kind = "argument_list" ∧
        lowerParts lower arguments = .ok args) ∨
      (∃ arguments only, node.field? "arguments" = some arguments ∧ lower arguments = .ok only ∧
        args = [only]) ∨
      node.field? "arguments" = none ∧ args = [] := by
  unfold lowerArguments at h
  split at h
  next arguments harguments =>
    split at h
    next kind => exact .inl ⟨arguments, harguments, kind, h⟩
    next =>
      obtain ⟨only, honly, h⟩ := bind_eq_ok.mp h
      cases h
      exact .inr (.inl ⟨arguments, only, harguments, honly, rfl⟩)
  next hnone =>
    cases h
    exact .inr (.inr ⟨hnone, rfl⟩)

/-- A call has what is called and its arguments. If nothing is called, it is a construct without a
rule. -/
theorem lowerCall_eq_ok (h : lowerCall lower node = .ok lowered) :
    (∃ function func args, node.field? "function" = some function ∧ lower function = .ok func ∧
        lowerArguments lower node = .ok args ∧ lowered = .call node.line func args) ∨
      node.field? "function" = none ∧ lowerOther lower node = .ok lowered := by
  unfold lowerCall at h
  split at h
  next function hfunction =>
    obtain ⟨args, hargs, h⟩ := bind_eq_ok.mp h
    obtain ⟨func, hfunc, h⟩ := bind_eq_ok.mp h
    cases h
    exact .inl ⟨function, func, args, hfunction, hfunc, hargs, rfl⟩
  next hnone => exact .inr ⟨hnone, h⟩

/-- An access has an object, which is lowered, and an attribute, which is read as a text; without
both it is a construct without a rule. -/
theorem lowerAccess_eq_ok (h : lowerAccess source lower node = .ok lowered) :
    (∃ object attr value, node.field? "object" = some object ∧
        node.field? "attribute" = some attr ∧ lower object = .ok value ∧
        lowered = .access node.line value (source.textOf attr)) ∨
      lowerOther lower node = .ok lowered := by
  unfold lowerAccess at h
  split at h
  next object attr hobject hattr =>
    obtain ⟨value, hvalue, h⟩ := bind_eq_ok.mp h
    cases h
    exact .inl ⟨object, attr, value, hobject, hattr, hvalue, rfl⟩
  next => exact .inr h

/-- Parentheses give way to their first part, and empty ones are a construct without a rule. -/
theorem lowerParenthesized_eq_ok (h : lowerParenthesized lower node = .ok lowered) :
    (∃ inner rest, node.parts = inner :: rest ∧ lower inner = .ok lowered) ∨
      lowerOther lower node = .ok lowered := by
  unfold lowerParenthesized at h
  split at h
  next inner rest hparts => exact .inl ⟨inner, rest, hparts, h⟩
  next => exact .inr h

/-- A formatted string keeps its interpolations, each as a construct without a rule, and any other
string is a literal. -/
theorem lowerString_eq_ok (h : lowerString source lower node = .ok lowered) :
    (∃ children, source.isFormatted node = true ∧
        node.interpolations.mapM (lowerOther lower) = .ok children ∧
        lowered = .other node.line node.kind children) ∨
      source.isFormatted node = false ∧ lowered = lowerLiteral source node .str := by
  unfold lowerString at h
  split at h
  next formatted =>
    obtain ⟨children, hchildren, h⟩ := bind_eq_ok.mp h
    cases h
    exact .inl ⟨children, formatted, hchildren, rfl⟩
  next plain =>
    cases h
    exact .inr ⟨Bool.not_eq_true _ ▸ plain, rfl⟩

/-! ## Handlers and protected blocks -/

/-- The last of `nodes` gives the result; where there is none, it is what it was at the start. -/
def KeepsLast (step : Concrete → Except ParseError (List Node)) (start : List Node)
    (nodes : List Concrete) (result : List Node) : Prop :=
  match nodes.getLast? with
  | none => result = start
  | some last => step last = .ok result

/-- One more node in front of the others matters only if there are none, for the last is kept. -/
theorem KeepsLast.cons {step : Concrete → Except ParseError (List Node)}
    {start middle result : List Node} {first : Concrete} {nodes : List Concrete}
    (hfirst : step first = .ok middle) (h : KeepsLast step middle nodes result) :
    KeepsLast step start (first :: nodes) result := by
  unfold KeepsLast at h ⊢
  rw [List.getLast?_cons]
  cases hlast : nodes.getLast? with
  | none =>
    rw [hlast] at h
    rw [h]
    exact hfirst
  | some last =>
    rw [hlast] at h
    exact h

/-- Reads one more child of a handler for the statements alone. -/
def lowerHandlerBlock (source : Source) (lower : Lowering) (body : List Node) (child : Concrete) :
    Except ParseError (List Node) :=
  if child.kind = "," then .error (source.errorAt child .bareTypes)
  else if child.isPart && child.isBlock then lowerParts lower child
  else return body

/-- The expressions of a handler do not bear on its statements, so the two can be read one after
the other. -/
theorem foldlM_lowerHandlerChild_eq (children : List Concrete) (start : HandlerParts) :
    children.foldlM (lowerHandlerChild source lower) start = do
      let body ← children.foldlM (lowerHandlerBlock source lower) start.body
      return ⟨body, start.exprs ++ (children.filter Concrete.isPart).filter (!·.isBlock)⟩ := by
  induction children generalizing start with
  | nil => simp
  | cons child children ih =>
    rw [List.foldlM_cons, List.foldlM_cons, lowerHandlerChild, lowerHandlerBlock, List.filter_cons]
    by_cases comma : child.kind = ","
    · rw [if_pos comma, if_pos comma]
      rfl
    · rw [if_neg comma, if_neg comma]
      cases hpart : child.isPart with
      | false => exact ih start
      | true =>
        by_cases block : child.kind = "block"
        · have isBlock : child.isBlock = true := decide_eq_true block
          simp only [isBlock, if_pos block, List.filter_cons, Bool.not_true, Bool.and_true,
            Bool.false_eq_true, if_true, if_false, bind_assoc, pure_bind, ih]
        · have isBlock : child.isBlock = false := decide_eq_false block
          simp only [isBlock, if_neg block, List.filter_cons, Bool.not_true, Bool.not_false,
            Bool.and_false, Bool.false_eq_true, if_true, if_false, pure_bind, ih, List.append_assoc,
            List.singleton_append]

/-- The expressions in a handler. -/
def Concrete.exprs (clause : Concrete) : List Concrete := clause.parts.filter (!·.isBlock)

/-- A handler is read in three steps that do not bear on each other: its statements in one loop over
the children, then the type and the name from the expressions. -/
theorem lowerHandler_eq (clause : Concrete) :
    lowerHandler source lower clause = do
      let body ← clause.children.foldlM (lowerHandlerBlock source lower) []
      let typeExpr ← lowerHandlerType lower clause.exprs
      return .mk clause.line typeExpr (handlerName source clause.exprs) body := by
  rw [lowerHandler, foldlM_lowerHandlerChild_eq]
  simp only [bind_assoc, pure_bind, List.nil_append]
  rfl

/-- Reading the blocks of a handler keeps the statements of the last one. -/
theorem foldlM_lowerHandlerBlock {children : List Concrete} {start result : List Node}
    (h : children.foldlM (lowerHandlerBlock source lower) start = .ok result) :
    KeepsLast (lowerParts lower) start ((children.filter Concrete.isPart).filter Concrete.isBlock)
      result := by
  induction children generalizing start with
  | nil =>
    cases h
    rfl
  | cons child children ih =>
    rw [List.foldlM_cons] at h
    obtain ⟨middle, hmiddle, h⟩ := bind_eq_ok.mp h
    have rest := ih h
    rw [List.filter_filter] at rest ⊢
    rw [List.filter_cons, Bool.and_comm]
    unfold lowerHandlerBlock at hmiddle
    split at hmiddle
    next => cases hmiddle
    next =>
      split at hmiddle
      next block =>
        rw [if_pos block]
        exact .cons hmiddle rest
      next noBlock =>
        cases hmiddle
        rw [if_neg noBlock]
        exact rest

/-- A handler has the statements of its last block, and the type its first expression gives. -/
theorem lowerHandler_eq_ok {handler : Handler}
    (h : lowerHandler source lower clause = .ok handler) :
    ∃ body typeExpr name,
      KeepsLast (lowerParts lower) [] (clause.parts.filter Concrete.isBlock) body ∧
      lowerHandlerType lower (clause.parts.filter (!·.isBlock)) = .ok typeExpr ∧
      handler = .mk clause.line typeExpr name body := by
  rw [lowerHandler_eq] at h
  obtain ⟨body, hbody, h⟩ := bind_eq_ok.mp h
  obtain ⟨typeExpr, htype, h⟩ := bind_eq_ok.mp h
  cases h
  exact ⟨body, typeExpr, _, foldlM_lowerHandlerBlock hbody, htype, rfl⟩

/-- The type is the first expression, or the first part of it where it binds a name. There is no
type if there is no expression, or no part. -/
theorem lowerHandlerType_eq_ok {exprs : List Concrete} {typeExpr : Option Node}
    (h : lowerHandlerType lower exprs = .ok typeExpr) :
    typeExpr = none ∧ (exprs = [] ∨
        ∃ first rest, exprs = first :: rest ∧ first.kind = "as_pattern" ∧ first.parts = []) ∨
      ∃ first rest type, exprs = first :: rest ∧ typeExpr = some type ∧
        (first.kind ≠ "as_pattern" ∧ lower first = .ok type ∨
          ∃ inner others, first.kind = "as_pattern" ∧ first.parts = inner :: others ∧
            lower inner = .ok type) := by
  unfold lowerHandlerType at h
  split at h
  next =>
    cases h
    exact .inl ⟨rfl, .inl rfl⟩
  next first rest =>
    split at h
    next pattern =>
      split at h
      next hparts =>
        cases h
        exact .inl ⟨rfl, .inr ⟨first, rest, rfl, pattern, hparts⟩⟩
      next inner others hparts =>
        obtain ⟨type, htype, h⟩ := bind_eq_ok.mp h
        cases h
        exact .inr ⟨first, rest, type, rfl, rfl, .inr ⟨inner, others, pattern, hparts, htype⟩⟩
    next plain =>
      obtain ⟨type, htype, h⟩ := bind_eq_ok.mp h
      cases h
      exact .inr ⟨first, rest, type, rfl, rfl, .inl ⟨plain, htype⟩⟩

/-- Reading the clauses of a protected block keeps the handlers in order, and the last clause of
each other sort. -/
theorem foldlM_lowerClause {nodes : List Concrete} {start result : Clauses}
    (h : nodes.foldlM (lowerClause source lower) start = .ok result) :
    (∃ handlers,
        (nodes.filter (Concrete.isClause .handler)).mapM (lowerHandler source lower) =
          .ok handlers ∧ result.handlers = start.handlers ++ handlers) ∧
      KeepsLast (lowerClauseBody lower) start.orelse
        (nodes.filter (Concrete.isClause .orelse)) result.orelse ∧
      KeepsLast (lowerClauseBody lower) start.finalbody
        (nodes.filter (Concrete.isClause .finalbody)) result.finalbody := by
  induction nodes generalizing start with
  | nil =>
    cases h
    exact ⟨⟨[], rfl, (List.append_nil _).symm⟩, rfl, rfl⟩
  | cons node nodes ih =>
    rw [List.foldlM_cons] at h
    obtain ⟨middle, hmiddle, h⟩ := bind_eq_ok.mp h
    obtain ⟨⟨handlers, hhandlers, eq⟩, orelse, finalbody⟩ := ih h
    unfold lowerClause at hmiddle
    split at hmiddle
    next hsort =>
      have isHandler : node.isClause .handler = true := hsort
      have isElse : node.isClause .orelse = false :=
        Concrete.isClause_of_ne isHandler (by decide)
      have isFinally : node.isClause .finalbody = false :=
        Concrete.isClause_of_ne isHandler (by decide)
      obtain ⟨handler, hhandler, hmiddle⟩ := bind_eq_ok.mp hmiddle
      cases hmiddle
      simp only [List.filter_cons, isHandler, isElse, isFinally, if_true, Bool.false_eq_true,
        if_false]
      refine ⟨⟨handler :: handlers, ?_, ?_⟩, orelse, finalbody⟩
      · exact mapM_eq_ok.mpr (.cons hhandler (mapM_eq_ok.mp hhandlers))
      · rw [eq, List.append_assoc, List.singleton_append]
    next hsort =>
      have isHandler : node.isClause .handler = false := Bool.not_eq_true _ ▸ hsort
      split at hmiddle
      next hsort =>
        have isElse : node.isClause .orelse = true := decide_eq_true hsort
        have isFinally : node.isClause .finalbody = false :=
          Concrete.isClause_of_ne isElse (by decide)
        obtain ⟨lowered, hlowered, hmiddle⟩ := bind_eq_ok.mp hmiddle
        cases hmiddle
        simp only [List.filter_cons, isHandler, isElse, isFinally, if_true, Bool.false_eq_true,
          if_false]
        exact ⟨⟨handlers, hhandlers, eq⟩, .cons hlowered orelse, finalbody⟩
      next hsort =>
        have isElse : node.isClause .orelse = false := decide_eq_false hsort
        split at hmiddle
        next hsort =>
          have isFinally : node.isClause .finalbody = true := decide_eq_true hsort
          obtain ⟨lowered, hlowered, hmiddle⟩ := bind_eq_ok.mp hmiddle
          cases hmiddle
          simp only [List.filter_cons, isHandler, isElse, isFinally, if_true, Bool.false_eq_true,
            if_false]
          exact ⟨⟨handlers, hhandlers, eq⟩, orelse, .cons hlowered finalbody⟩
        next hsort =>
          have isFinally : node.isClause .finalbody = false := decide_eq_false hsort
          cases hmiddle
          simp only [List.filter_cons, isHandler, isElse, isFinally, Bool.false_eq_true, if_false]
          exact ⟨⟨handlers, hhandlers, eq⟩, orelse, finalbody⟩

/-- A clause holds the statements of its first block, and none if it has no block. -/
theorem lowerClauseBody_eq_ok {results : List Node}
    (h : lowerClauseBody lower clause = .ok results) :
    (∃ block, clause.named.find? Concrete.isBlock = some block ∧
        lowerParts lower block = .ok results) ∨
      clause.named.find? Concrete.isBlock = none ∧ results = [] := by
  unfold lowerClauseBody at h
  split at h
  next block hblock => exact .inl ⟨block, hblock, h⟩
  next hnone =>
    cases h
    exact .inr ⟨hnone, rfl⟩

/-- A protected block: its body, its handlers in order, and the last clause of each other sort. -/
theorem lowerTry_eq_ok (h : lowerTry source lower node = .ok lowered) :
    ∃ body handlers orelse finalbody, lowerField lower "body" node = .ok body ∧
      (node.named.filter (Concrete.isClause .handler)).mapM (lowerHandler source lower) =
        .ok handlers ∧
      KeepsLast (lowerClauseBody lower) [] (node.named.filter (Concrete.isClause .orelse)) orelse ∧
      KeepsLast (lowerClauseBody lower) [] (node.named.filter (Concrete.isClause .finalbody))
        finalbody ∧
      lowered = .tryBlock node.line body handlers orelse finalbody := by
  obtain ⟨body, hbody, h⟩ := bind_eq_ok.mp h
  obtain ⟨read, hread, h⟩ := bind_eq_ok.mp h
  cases h
  obtain ⟨⟨handlers, hhandlers, eq⟩, orelse, finalbody⟩ := foldlM_lowerClause hread
  rw [List.nil_append] at eq
  rw [eq]
  exact ⟨body, handlers, read.orelse, read.finalbody, hbody, hhandlers, orelse, finalbody, rfl⟩

end

/-! ## Which construct has which rule -/

/-- The kinds of definitions. -/
def definitionKinds : List String := ["function_definition", "class_definition"]

/-- The kinds of tokens that are literals as they stand. -/
def literalKinds : List String := ["integer", "float", "true", "false", "none", "ellipsis"]

/-- The kinds of strings. -/
def stringKinds : List String := ["string", "concatenated_string"]

/-- The kinds of tuples and of bare lists of expressions. -/
def tupleKinds : List String := ["tuple", "expression_list", "pattern_list", "tuple_pattern"]

/-- The kinds of operators that make chains. -/
def operatorKinds : List String := ["binary_operator", "boolean_operator"]

/-- The kinds with a rule of their own. -/
def ruledKinds : List String :=
  ["try_statement", "expression_statement", "assignment", "call", "attribute", "identifier",
    "parenthesized_expression", "print_statement", "exec_statement"] ++
    definitionKinds ++ literalKinds ++ stringKinds ++ tupleKinds ++ operatorKinds

/-- The ways in which `node` is lowered, given how its parts are. -/
inductive LoweredAs (source : Source) (lower : Lowering) (node : Concrete) : Node → Prop
  | tryBlock {lowered : Node} (kind : node.kind = "try_statement")
      (h : lowerTry source lower node = .ok lowered) : LoweredAs source lower node lowered
  | definition {what : DefinitionKind} {lowered : Node} (kind : node.kind ∈ definitionKinds)
      (h : lowerDefinition source lower node what = .ok lowered) :
      LoweredAs source lower node lowered
  | expressionStatement {lowered : Node} (kind : node.kind = "expression_statement")
      (h : lowerExpressionStatement lower node = .ok lowered) : LoweredAs source lower node lowered
  | assignment {lowered : Node} (kind : node.kind = "assignment")
      (h : lowerAssignment lower node = .ok lowered) : LoweredAs source lower node lowered
  | call {lowered : Node} (kind : node.kind = "call")
      (h : lowerCall lower node = .ok lowered) : LoweredAs source lower node lowered
  | access {lowered : Node} (kind : node.kind = "attribute")
      (h : lowerAccess source lower node = .ok lowered) : LoweredAs source lower node lowered
  | name (kind : node.kind = "identifier") :
      LoweredAs source lower node (.name node.line (source.textOf node))
  | literal {what : LiteralKind} (kind : node.kind ∈ literalKinds) :
      LoweredAs source lower node (lowerLiteral source node what)
  | string {lowered : Node} (kind : node.kind ∈ stringKinds)
      (h : lowerString source lower node = .ok lowered) : LoweredAs source lower node lowered
  | tuple {elts : List Node} (kind : node.kind ∈ tupleKinds)
      (h : lowerParts lower node = .ok elts) : LoweredAs source lower node (.tuple node.line elts)
  | parenthesized {lowered : Node} (kind : node.kind = "parenthesized_expression")
      (h : lowerParenthesized lower node = .ok lowered) : LoweredAs source lower node lowered
  | operators {lowered : Node} (kind : node.kind ∈ operatorKinds)
      (h : lowerOperators lower node = .ok lowered) : LoweredAs source lower node lowered
  | print {lowered : Node} (kind : node.kind = "print_statement")
      (h : lowerPrint source lower node = .ok lowered) : LoweredAs source lower node lowered
  | other {lowered : Node} (kind : node.kind ∉ ruledKinds)
      (h : lowerOther lower node = .ok lowered) : LoweredAs source lower node lowered

/-- Every lowered construct is lowered in one of these ways. -/
theorem lowerKind_cases {source : Source} {lower : Lowering} {node : Concrete} {lowered : Node}
    (h : lowerKind source lower node = .ok lowered) : LoweredAs source lower node lowered := by
  unfold lowerKind at h
  split at h
  next kind => exact .tryBlock kind h
  next kind => exact .definition (by rw [kind]; decide) h
  next kind => exact .definition (by rw [kind]; decide) h
  next kind => exact .expressionStatement kind h
  next kind => exact .assignment kind h
  next kind => exact .call kind h
  next kind => exact .access kind h
  next kind => cases h; exact .name kind
  next kind => cases h; exact .literal (by rw [kind]; decide)
  next kind => cases h; exact .literal (by rw [kind]; decide)
  next kind => cases h; exact .literal (by rw [kind]; decide)
  next kind => cases h; exact .literal (by rw [kind]; decide)
  next kind => cases h; exact .literal (by rw [kind]; decide)
  next kind => cases h; exact .literal (by rw [kind]; decide)
  next kind => exact .string (by rw [kind]; decide) h
  next kind => exact .string (by rw [kind]; decide) h
  iterate 4
    next kind =>
      obtain ⟨elts, helts, h⟩ := bind_eq_ok.mp h
      cases h
      exact .tuple (by rw [kind]; decide) helts
  next kind => exact .parenthesized kind h
  next kind => exact .operators (by rw [kind]; decide) h
  next kind => exact .operators (by rw [kind]; decide) h
  next kind => exact .print kind h
  next => cases h
  next =>
    refine .other ?_ h
    simp only [ruledKinds, definitionKinds, literalKinds, stringKinds, tupleKinds, operatorKinds,
      List.cons_append, List.nil_append, List.mem_cons, List.not_mem_nil, or_false, not_or]
    repeat' constructor
    all_goals assumption

/-- A source that has a tree has no bad node, and its statements are lowered with all levels. -/
theorem Tree.ofConcrete_eq_ok {source : Source} {root : Concrete} {tree : Tree}
    (h : Tree.ofConcrete source root = .ok tree) :
    root.firstBad? = none ∧ tree.sourceName = source.name ∧
      lowerParts (lower source nestingLimit) root = .ok tree.body := by
  unfold Tree.ofConcrete at h
  split at h
  next => cases h
  next clean =>
    obtain ⟨body, hbody, h⟩ := bind_eq_ok.mp h
    cases h
    exact ⟨clean, rfl, hbody⟩

end SourceAudit
