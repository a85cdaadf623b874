import SourceAudit.Proofs.Concrete.Calls
import SourceAudit.Proofs.Concrete.Search

/-!
# Lowering keeps every call where it stands

The calls of a source are the same before and after lowering, in the same order and in the same
clauses of the same protected blocks. Nothing is lost by a rule that picks its parts, and nothing is
made up: the nodes that lowering makes by itself, such as the shift of `print >> f`, are no calls.

The argument goes by the levels of lowering. For each construct the calls in it are the calls in its
parts, one part after the other; lowering takes the parts with calls, in this order; and one level
further in each of them keeps its calls (`Keeps`). A rule that would exchange two parts would fail
here, for calls are compared in document order on both sides.

What is assumed is only what the grammar promises, `Concrete.Grammatical`. That the source is one
that lowering takes is no assumption about calls: what is refused has no tree.
-/

namespace SourceAudit

/-- A node before and after lowering: on the same line, and the second is the first lowered. -/
def LoweredTo (source : Source) (written : Concrete) (read : Node) : Prop :=
  read.line = some written.line ∧ ∃ levels, lower source levels written = .ok read

/-- Calls before and after lowering, one by one, each in the same clauses. -/
def SameCalls (source : Source) :
    List (List Clause × Concrete) → List (List Clause × Node) → Prop :=
  List.Forall₂ fun written read => written.1 = read.1 ∧ LoweredTo source written.2 read.2

/-- A lowering keeps the calls in what it lowers. -/
def Keeps (source : Source) (lower : Lowering) : Prop :=
  ∀ {node : Concrete} {lowered : Node}, node.Grammatical source → lower node = .ok lowered →
    SameCalls source node.calls lowered.calls

section

variable {source : Source} {lower : Lowering} {node clause : Concrete} {lowered : Node}
variable {results : List Node}

theorem SameCalls.nil : SameCalls source [] [] := List.Forall₂.nil

/-- Calls that are kept part by part are kept in the whole, in the order of the parts. -/
theorem SameCalls.append {written more : List (List Clause × Concrete)}
    {read further : List (List Clause × Node)} (h : SameCalls source written read)
    (rest : SameCalls source more further) :
    SameCalls source (written ++ more) (read ++ further) :=
  List.rel_append h rest

/-- Calls that are kept in a clause are kept with that clause around them, on both sides alike. -/
theorem SameCalls.inClause {written : List (List Clause × Concrete)}
    {read : List (List Clause × Node)} (clause : Option Clause)
    (h : SameCalls source written read) :
    SameCalls source (inClause clause written) (inClause clause read) := by
  unfold SameCalls SourceAudit.inClause
  rw [List.forall₂_map_left_iff, List.forall₂_map_right_iff]
  refine h.imp fun written read same => ?_
  exact ⟨by rw [same.1], same.2⟩

/-- Calls are kept member by member. -/
theorem SameCalls.flatMap {α : Type} {nodes : List Concrete} {results : List α}
    {step : Concrete → α → Prop} {calls : α → List (List Clause × Node)}
    (h : List.Forall₂ step nodes results)
    (each : ∀ node ∈ nodes, ∀ result, step node result →
      SameCalls source node.calls (calls result)) :
    SameCalls source (nodes.flatMap Concrete.calls) (results.flatMap calls) := by
  induction h with
  | nil => exact .nil
  | @cons node result nodes results first _ ih =>
    rw [List.flatMap_cons, List.flatMap_cons]
    refine .append (each node List.mem_cons_self result first) (ih ?_)
    exact fun node mem => each node (List.mem_cons_of_mem _ mem)

/-! ## Constructs whose parts are all taken -/

/-- Nodes that are lowered one by one keep their calls, those of one node before those of the
next. -/
theorem Keeps.mapM (keeps : Keeps source lower) {nodes : List Concrete}
    (grammatical : ∀ node ∈ nodes, node.Grammatical source) (h : nodes.mapM lower = .ok results) :
    SameCalls source (nodes.flatMap Concrete.calls) (results.flatMap Node.calls) :=
  .flatMap (mapM_eq_ok.mp h) fun node mem _ h => keeps (grammatical node mem) h

/-- The parts of a grammatical node are grammatical, so lowering them keeps the calls in them. -/
theorem Keeps.parts (keeps : Keeps source lower) (grammatical : node.Grammatical source)
    (h : lowerParts lower node = .ok results) :
    SameCalls source (node.parts.flatMap Concrete.calls) (results.flatMap Node.calls) :=
  keeps.mapM (fun _ mem => grammatical.part mem) h

/-- A block has no calls of its own, so what its statements keep is all that it has. -/
theorem Keeps.block (keeps : Keeps source lower) (grammatical : node.Grammatical source)
    (block : node.isBlock) (h : lowerParts lower node = .ok results) :
    SameCalls source node.calls (results.flatMap Node.calls) := by
  have isBody : node.isClause .body := block
  rw [Concrete.calls_of_isClause isBody]
  exact keeps.parts grammatical h

/-- A construct without a rule keeps the calls of its parts, and these are all its calls if it is
none itself. -/
theorem Keeps.other (keeps : Keeps source lower) (grammatical : node.Grammatical source)
    (calls : node.calls = node.parts.flatMap Concrete.calls)
    (h : lowerOther lower node = .ok lowered) : SameCalls source node.calls lowered.calls := by
  obtain ⟨children, hchildren, rfl⟩ := lowerOther_eq_ok h
  rw [calls, Node.calls_other]
  exact keeps.parts grammatical hchildren

/-- What is shifted and what follows the chevron keep their calls. The name that lowering adds is no
call, so it goes unnoticed. -/
theorem Keeps.print (keeps : Keeps source lower) (grammatical : node.Grammatical source)
    (kind : node.kind = "print_statement") (h : lowerPrint source lower node = .ok lowered) :
    SameCalls source node.calls lowered.calls := by
  obtain ⟨chevron, rest, operands, values, parts, hchevron, hoperands, hvalues, rfl⟩ :=
    lowerPrint_eq_ok h
  have chevronPart : chevron ∈ node.parts := by simp [parts]
  have restParts : ∀ part ∈ rest, part ∈ node.parts := by simp +contextual [parts]
  have shifted : SameCalls source chevron.calls (operands.flatMap Node.calls) := by
    rw [Concrete.calls_of_kind hchevron (by decide)]
    exact keeps.parts (grammatical.part chevronPart) hoperands
  have printed : SameCalls source (rest.flatMap Concrete.calls) (values.flatMap Node.calls) :=
    keeps.mapM (fun part mem => grammatical.part (restParts part mem)) hvalues
  rw [Concrete.calls_of_kind kind (by decide), parts, List.flatMap_cons]
  -- The name that the shift is made with is no call, with the tuple around it or without.
  cases values with
  | nil => simpa using shifted.append printed
  | cons value values => simpa using shifted.append printed

/-! ## Constructs that pick their parts -/

/-- The calls in the arguments are kept, whether they stand in a list or one argument stands in its
place. -/
theorem Keeps.arguments (keeps : Keeps source lower) {args : List Node}
    (grammatical : ∀ arguments ∈ node.field? "arguments", arguments.Grammatical source)
    (h : lowerArguments lower node = .ok args) :
    SameCalls source ((node.field? "arguments").toList.flatMap Concrete.calls)
      (args.flatMap Node.calls) := by
  rcases lowerArguments_eq_ok h with
    ⟨arguments, found, kind, hparts⟩ | ⟨arguments, only, found, honly, rfl⟩ | ⟨found, rfl⟩
  · have inside := keeps.parts (grammatical arguments found) hparts
    rw [← Concrete.calls_of_kind kind (by decide)] at inside
    simpa [found] using inside
  · simpa [found] using keeps (grammatical arguments found) honly
  · simpa [found] using SameCalls.nil

/-- A call is kept itself, and so are the calls in it: what is called comes before the arguments,
whichever is lowered first. -/
theorem Keeps.call (keeps : Keeps source lower) (grammatical : node.Grammatical source)
    (kind : node.kind = "call") (own : ∃ levels, SourceAudit.lower source levels node = .ok lowered)
    (h : lowerCall lower node = .ok lowered) : SameCalls source node.calls lowered.calls := by
  have notTry : node.kind ≠ "try_statement" := by simp [kind]
  rcases lowerCall_eq_ok h with ⟨function, func, args, found, hfunc, hargs, rfl⟩ | ⟨found, h⟩
  · have parts := grammatical.here.call kind found
    have functionPart : function ∈ node.parts := by simp [parts]
    have argumentsPart : ∀ arguments ∈ node.field? "arguments", arguments ∈ node.parts := by
      simp +contextual [parts]
    have calls : node.calls = ([], node) ::
        (function.calls ++ (node.field? "arguments").toList.flatMap Concrete.calls) := by
      have isCall : node.isCall = true := by simp [Concrete.isCall, kind, found]
      rw [Concrete.calls_eq, if_pos isCall]
      simp [Concrete.clauseIn?_eq_none notTry, parts]
    rw [calls, Node.calls_call]
    -- The arguments were lowered first, but they are held behind what is called.
    refine List.Forall₂.cons ⟨rfl, rfl, own⟩ ?_
    refine SameCalls.append (keeps (grammatical.part functionPart) hfunc) ?_
    refine keeps.arguments (fun arguments mem => ?_) hargs
    exact grammatical.part (argumentsPart arguments mem)
  · have notCall : node.isCall = false := by simp [Concrete.isCall, found]
    exact keeps.other grammatical (Concrete.calls_of_parts notCall notTry) h

/-- Only the object of an access may hold calls: the attribute is read as a text, and by the grammar
no call stands in it. -/
theorem Keeps.access (keeps : Keeps source lower) (grammatical : node.Grammatical source)
    (kind : node.kind = "attribute") (h : lowerAccess source lower node = .ok lowered) :
    SameCalls source node.calls lowered.calls := by
  have calls := Concrete.calls_of_kind kind (by decide)
  rcases lowerAccess_eq_ok h with ⟨object, name, value, hobject, hname, hvalue, rfl⟩ | h
  · obtain ⟨parts, callless⟩ := grammatical.here.access kind hobject hname
    have objectPart : object ∈ node.parts := by simp [parts]
    rw [calls, parts]
    simpa [callless.calls_eq_nil] using keeps (grammatical.part objectPart) hvalue
  · exact keeps.other grammatical calls h

/-- Parentheses have one part at most, so giving way to the first loses nothing. -/
theorem Keeps.parenthesized (keeps : Keeps source lower) (grammatical : node.Grammatical source)
    (kind : node.kind = "parenthesized_expression")
    (h : lowerParenthesized lower node = .ok lowered) :
    SameCalls source node.calls lowered.calls := by
  have calls := Concrete.calls_of_kind kind (by decide)
  rcases lowerParenthesized_eq_ok h with ⟨inner, rest, parts, hinner⟩ | h
  · have single := grammatical.here.parenthesized kind
    have none : rest = [] := by
      rw [parts, List.length_cons] at single
      exact List.eq_nil_of_length_eq_zero (by omega)
    have innerPart : inner ∈ node.parts := by simp [parts]
    rw [calls, parts, none, List.flatMap_singleton]
    exact keeps (grammatical.part innerPart) hinner
  · exact keeps.other grammatical calls h

/-- A flattened chain keeps the calls of its operands, which by `Concrete.Grammatical.operands` are
all calls of the nested one. -/
theorem Keeps.operators (keeps : Keeps source lower) (grammatical : node.Grammatical source)
    (kind : node.kind ∈ operatorKinds) (h : lowerOperators lower node = .ok lowered) :
    SameCalls source node.calls lowered.calls := by
  rcases lowerOperators_eq_ok h with ⟨left, right, operands, -, -, hoperands, rfl⟩ | h
  · obtain ⟨calls, each⟩ := grammatical.operands kind
    rw [← calls, Node.calls_other]
    exact keeps.mapM each hoperands
  · exact keeps.other grammatical (Concrete.calls_of_mem kind (by decide)) h

/-- A chain of assignments keeps the calls of its targets and of its value in the order of the
source. -/
theorem Keeps.assignment (keeps : Keeps source lower) (grammatical : node.Grammatical source)
    (kind : node.kind = "assignment") (h : lowerAssignment lower node = .ok lowered) :
    SameCalls source node.calls lowered.calls := by
  have calls := Concrete.calls_of_kind kind (by decide)
  rcases lowerAssignment_eq_ok h with
    ⟨children, hchildren, rfl⟩ | ⟨targets, value, untyped, htargets, ⟨last, hlast, hvalue⟩, rfl⟩ | h
  · rw [calls, Node.calls_other]
    exact keeps.parts grammatical hchildren
  · obtain ⟨chain, each⟩ := grammatical.assignments kind untyped hlast
    rw [← chain, Node.calls_assign]
    refine .append (keeps.mapM (fun expr mem => each expr ?_) htargets) ?_
    · exact List.mem_append_left _ mem
    · exact keeps (each last (List.mem_append_right _ List.mem_cons_self)) hvalue
  · exact keeps.other grammatical calls h

/-- A formatted string keeps the calls in its interpolations; in any other string the grammar puts
none. -/
theorem Keeps.string (keeps : Keeps source lower) (grammatical : node.Grammatical source)
    (kind : node.kind ∈ stringKinds) (h : lowerString source lower node = .ok lowered) :
    SameCalls source node.calls lowered.calls := by
  rcases lowerString_eq_ok h with ⟨children, -, hchildren, rfl⟩ | ⟨plain, rfl⟩
  · obtain ⟨calls, each⟩ := grammatical.interpolations kind
    rw [← calls, Node.calls_other]
    refine .flatMap (mapM_eq_ok.mp hchildren) fun inner mem result h => ?_
    obtain ⟨innerKind, inside⟩ := each inner mem
    exact keeps.other inside (Concrete.calls_of_kind innerKind (by decide)) h
  · have callless := (grammatical.here.string kind).1 plain
    rw [callless.calls_eq_nil, lowerLiteral, Node.calls_literal]
    exact .nil

/-- A definition keeps the calls of its header and of its body. Its name is passed over, and by the
grammar no call stands in it. -/
theorem Keeps.definition (keeps : Keeps source lower) (grammatical : node.Grammatical source)
    (kind : node.kind ∈ definitionKinds) {what : DefinitionKind}
    (h : lowerDefinition source lower node what = .ok lowered) :
    SameCalls source node.calls lowered.calls := by
  obtain ⟨header, body, name, hheader, hbody, rfl⟩ := lowerDefinition_eq_ok h
  obtain ⟨parts, callless, isBlock⟩ := grammatical.here.definition kind
  have nameCalls : (node.field? "name").toList.flatMap Concrete.calls = [] :=
    Concrete.flatMap_calls_eq_nil fun name mem => callless name (Option.mem_toList.mp mem)
  have headerParts : ∀ inner ∈ headerFields.filterMap node.field?, inner ∈ node.parts := by
    intro inner mem
    rw [parts]
    exact List.mem_append_left _ (List.mem_append_right _ mem)
  have headerCalls := keeps.mapM (fun inner mem => grammatical.part (headerParts inner mem)) hheader
  have bodyCalls : SameCalls source ((node.field? "body").toList.flatMap Concrete.calls)
      (body.flatMap Node.calls) := by
    rcases lowerField_eq_ok hbody with ⟨block, found, h⟩ | ⟨found, rfl⟩
    · have blockPart : block ∈ node.parts := by simp [parts, found]
      simpa [found] using keeps.block (grammatical.part blockPart) (isBlock block found) h
    · simpa [found] using SameCalls.nil
  rw [Concrete.calls_of_mem kind (by decide), parts, List.flatMap_append, List.flatMap_append,
    nameCalls, List.nil_append, Node.calls_definition]
  exact headerCalls.append bodyCalls

/-! ## Protected blocks -/

/-- A type is kept with its calls; no other expression of a handler has any. -/
theorem Keeps.handlerType (keeps : Keeps source lower) {exprs : List Concrete}
    {typeExpr : Option Node} (grammatical : ∀ expr ∈ exprs, expr.Grammatical source)
    (callless : ∀ expr ∈ exprs.tail, expr.Callless)
    (binding : ∀ first ∈ exprs.head?, first.kind = "as_pattern" →
      ∀ bound ∈ first.parts.tail, bound.Callless)
    (h : lowerHandlerType lower exprs = .ok typeExpr) :
    SameCalls source (exprs.flatMap Concrete.calls) (typeExpr.toList.flatMap Node.calls) := by
  rcases lowerHandlerType_eq_ok h with
    ⟨rfl, rfl | ⟨first, rest, rfl, kind, parts⟩⟩ | ⟨first, rest, type, rfl, rfl, taken⟩
  · exact .nil
  · have calls := Concrete.calls_of_kind kind (by decide)
    have others : rest.flatMap Concrete.calls = [] := Concrete.flatMap_calls_eq_nil callless
    simpa [calls, parts, others] using SameCalls.nil
  · have here := grammatical first List.mem_cons_self
    have others : rest.flatMap Concrete.calls = [] := Concrete.flatMap_calls_eq_nil callless
    have inType : SameCalls source first.calls type.calls := by
      rcases taken with ⟨-, h⟩ | ⟨inner, names, kind, parts, h⟩
      · exact keeps here h
      · have innerPart : inner ∈ first.parts := by simp [parts]
        have bound : names.flatMap Concrete.calls = [] := by
          have callless := binding first rfl kind
          rw [parts] at callless
          exact Concrete.flatMap_calls_eq_nil callless
        rw [Concrete.calls_of_kind kind (by decide), parts,
          List.flatMap_cons, bound, List.append_nil]
        exact keeps (here.part innerPart) h
    simpa [others] using inType

/-- A handler keeps the calls of its type and of its only block, which by the grammar comes last. -/
theorem Keeps.handler (keeps : Keeps source lower) (grammatical : clause.Grammatical source)
    (isHandler : clause.isClause .handler) (shape : clause.IsHandlerClause) {handler : Handler}
    (h : lowerHandler source lower clause = .ok handler) :
    SameCalls source clause.calls handler.calls := by
  obtain ⟨body, typeExpr, name, hbody, htype, rfl⟩ := lowerHandler_eq_ok h
  obtain ⟨exprs, block, parts, isBlock, others, callless, binding⟩ := shape
  have exprPart : ∀ expr ∈ exprs, expr ∈ clause.parts := by simp +contextual [parts]
  have blockPart : block ∈ clause.parts := by simp [parts]
  -- Its only block is the last of its parts, and the expressions are all that comes before.
  have blocks : clause.parts.filter Concrete.isBlock = [block] := by
    have none : exprs.filter Concrete.isBlock = [] :=
      List.filter_eq_nil_iff.mpr fun expr mem => by simp [others expr mem]
    simp [parts, none, isBlock]
  have rest : clause.parts.filter (!·.isBlock) = exprs := by
    have all : exprs.filter (!·.isBlock) = exprs :=
      List.filter_eq_self.mpr fun expr mem => by simp [others expr mem]
    simp [parts, all, isBlock]
  rw [blocks] at hbody
  rw [rest] at htype
  rw [Concrete.calls_of_isClause isHandler, parts, List.flatMap_append, List.flatMap_singleton]
  refine .append ?_ (keeps.block (grammatical.part blockPart) isBlock hbody)
  refine keeps.handlerType (fun expr mem => ?_) callless binding htype
  exact grammatical.part (exprPart expr mem)

/-- A clause with one block and nothing else keeps the calls of the block. -/
theorem Keeps.clauseBody (keeps : Keeps source lower) (grammatical : clause.Grammatical source)
    {sort : Clause} (isClause : clause.isClause sort) (shape : clause.IsBlockClause)
    (h : lowerClauseBody lower clause = .ok results) :
    SameCalls source clause.calls (results.flatMap Node.calls) := by
  obtain ⟨block, parts, isBlock⟩ := shape
  have found : clause.named.find? Concrete.isBlock = some block := by
    have named := grammatical.here.filter_named (p := Concrete.isBlock) fun child h => by
      simp [Concrete.pieceKinds, of_decide_eq_true h]
    rw [← List.head?_filter, named, parts]
    simp [isBlock]
  have blockPart : block ∈ clause.parts := by simp [parts]
  rw [Concrete.calls_of_isClause isClause, parts, List.flatMap_singleton]
  rcases lowerClauseBody_eq_ok h with ⟨inner, hinner, h⟩ | ⟨hnone, -⟩
  · rw [found] at hinner
    cases hinner
    exact keeps.block (grammatical.part blockPart) isBlock h
  · rw [found] at hnone
    cases hnone

/-- A clause that may be missing keeps its calls, if there is one. -/
theorem Keeps.lastClause (keeps : Keeps source lower) {clause? : Option Concrete} {sort : Clause}
    (grammatical : ∀ clause ∈ clause?.toList, clause.Grammatical source)
    (each : ∀ clause ∈ clause?, clause.isClause sort ∧ clause.IsBlockClause)
    (h : KeepsLast (lowerClauseBody lower) [] clause?.toList results) :
    SameCalls source (clause?.toList.flatMap Concrete.calls) (results.flatMap Node.calls) := by
  cases clause? with
  | none =>
    cases h
    exact .nil
  | some clause =>
    obtain ⟨isClause, shape⟩ := each clause rfl
    have inside := grammatical clause (Option.mem_toList.mpr rfl)
    simpa using keeps.clauseBody inside isClause shape h

/-- A protected block keeps the calls of each clause in that clause. -/
theorem Keeps.tryBlock (keeps : Keeps source lower) (grammatical : node.Grammatical source)
    (kind : node.kind = "try_statement") (h : lowerTry source lower node = .ok lowered) :
    SameCalls source node.calls lowered.calls := by
  obtain ⟨body, handlers, orelse, finalbody, hbody, hhandlers, horelse, hfinalbody, rfl⟩ :=
    lowerTry_eq_ok h
  obtain ⟨block, clauses, else?, finally?, pieces⟩ := grammatical.here.protectedBlock kind
  have inside : ∀ part ∈ node.parts, part.Grammatical source := fun _ mem => grammatical.part mem
  simp only [pieces.parts, List.mem_append] at inside
  -- Lowering sorts the named children; by the grammar the sorts are its parts, one after another.
  rw [pieces.filter_named grammatical.here] at hhandlers horelse hfinalbody
  have inBody : SameCalls source block.calls (body.flatMap Node.calls) := by
    rcases lowerField_eq_ok hbody with ⟨inner, found, h⟩ | ⟨missing, -⟩
    · rw [pieces.isBody.1] at found
      cases found
      exact keeps.block (inside block (by simp)) pieces.isBody.2 h
    · rw [pieces.isBody.1] at missing
      cases missing
  have inHandlers : SameCalls source (clauses.flatMap Concrete.calls)
      (handlers.flatMap Handler.calls) := by
    have each : List.Forall₂ _ clauses handlers := mapM_eq_ok.mp (by simpa using hhandlers)
    refine .flatMap each fun clause mem handler h => ?_
    obtain ⟨isHandler, shape⟩ := pieces.isHandler clause mem
    exact keeps.handler (inside clause (by simp [mem])) isHandler shape h
  have inElse : SameCalls source (else?.toList.flatMap Concrete.calls)
      (orelse.flatMap Node.calls) := by
    refine keeps.lastClause (fun clause mem => ?_) pieces.isElse (by simpa using horelse)
    exact inside clause (.inl (.inr mem))
  have inFinally : SameCalls source (finally?.toList.flatMap Concrete.calls)
      (finalbody.flatMap Node.calls) := by
    refine keeps.lastClause (fun clause mem => ?_) pieces.isFinally (by simpa using hfinalbody)
    exact inside clause (.inr mem)
  rw [pieces.calls_eq kind, Node.calls_tryBlock]
  exact (inBody.inClause _).append ((inHandlers.inClause _).append
    ((inElse.inClause _).append (inFinally.inClause _)))

/-! ## All constructs -/

/-- An expression statement keeps the calls of its parts, whether it gives way to the only one or
makes a tuple of several. -/
theorem Keeps.expressionStatement (keeps : Keeps source lower)
    (grammatical : node.Grammatical source) (kind : node.kind = "expression_statement")
    (h : lowerExpressionStatement lower node = .ok lowered) :
    SameCalls source node.calls lowered.calls := by
  have calls := Concrete.calls_of_kind kind (by decide)
  rcases lowerExpressionStatement_eq_ok h with h | only | ⟨several, hseveral, rfl⟩
  · exact keeps.other grammatical calls h
  · rw [calls]
    simpa using keeps.parts grammatical only
  · rw [calls, Node.calls_tuple]
    exact keeps.parts grammatical hseveral

/-- A construct keeps its calls if every part of it does. -/
theorem Keeps.lowerKind (keeps : Keeps source lower) (grammatical : node.Grammatical source)
    (own : ∃ levels, SourceAudit.lower source levels node = .ok lowered)
    (h : lowerKind source lower node = .ok lowered) :
    SameCalls source node.calls lowered.calls := by
  cases lowerKind_cases h with
  | tryBlock kind h => exact keeps.tryBlock grammatical kind h
  | definition kind h => exact keeps.definition grammatical kind h
  | expressionStatement kind h => exact keeps.expressionStatement grammatical kind h
  | assignment kind h => exact keeps.assignment grammatical kind h
  | call kind h => exact keeps.call grammatical kind own h
  | access kind h => exact keeps.access grammatical kind h
  | name kind =>
    rw [(grammatical.here.atom (by simp [kind])).calls_eq_nil, Node.calls_name]
    exact .nil
  | literal kind =>
    rw [(grammatical.here.atom (List.mem_cons_of_mem _ kind)).calls_eq_nil, lowerLiteral,
      Node.calls_literal]
    exact .nil
  | string kind h => exact keeps.string grammatical kind h
  | tuple kind helts =>
    rw [Concrete.calls_of_mem kind (by decide), Node.calls_tuple]
    exact keeps.parts grammatical helts
  | parenthesized kind h => exact keeps.parenthesized grammatical kind h
  | operators kind h => exact keeps.operators grammatical kind h
  | print kind h => exact keeps.print grammatical kind h
  | other kind h =>
    have notCall : node.kind ≠ "call" := fun same => kind (by rw [same]; decide)
    have notTry : node.kind ≠ "try_statement" := fun same => kind (by rw [same]; decide)
    have calls := Concrete.calls_of_parts (by simp [Concrete.isCall, notCall]) notTry
    exact keeps.other grammatical calls h

end

/-- Lowering keeps calls, with however many levels. -/
theorem keeps_lower (source : Source) (levels : Nat) : Keeps source (lower source levels) := by
  induction levels with
  | zero =>
    intro node lowered _ h
    cases h
  | succ levels ih =>
    intro node lowered grammatical h
    exact ih.lowerKind grammatical ⟨levels + 1, h⟩ h

/-- **Lowering loses, invents and reorders no call, and keeps the clauses around each.** The calls
of the syntax tree are those of the concrete tree, in the same order: each is the call it stands
for, lowered, on the same line and in the same clauses of the protected blocks around it. -/
theorem Tree.calls_of_ofConcrete {source : Source} {root : Concrete} {tree : Tree}
    (grammatical : root.Grammatical source) (h : Tree.ofConcrete source root = .ok tree) :
    List.Forall₂
      (fun written read => written.clauses = read.clauses ∧ LoweredTo source written.node read.node)
      (root.statementSites.filter (·.node.isCall)) (tree.sites.filter (·.node.isCall)) := by
  obtain ⟨-, -, hbody⟩ := Tree.ofConcrete_eq_ok h
  have kept : SameCalls source (root.parts.flatMap Concrete.calls)
      (tree.body.flatMap Node.calls) :=
    Keeps.parts (keeps_lower source nestingLimit) grammatical hbody
  -- The calls were read off the sites, so what is said of them is said of the sites.
  unfold SameCalls Concrete.calls Node.calls at kept
  rw [← List.map_flatMap, ← List.map_flatMap, ← List.filter_flatMap, ← List.filter_flatMap,
    List.forall₂_map_left_iff, List.forall₂_map_right_iff] at kept
  exact kept

/-! ## A source with calls in two clauses -/

namespace Concrete

section

variable {source : Source} {row first start : Nat} {fields : List String}

/-- The call `f()`, or of another name of one letter. -/
def bareCall (row first start : Nat) : Concrete :=
  construct row first "call" [] start (start + 3)
    [construct row first "identifier" ["function"] start (start + 1) [],
      construct row first "argument_list" ["arguments"] (start + 1) (start + 3)
        [token row first "(" (start + 1), token row first ")" (start + 2)]]

/-- A block that holds such a call as its only statement. -/
def callBlock (row first : Nat) (fields : List String) (start : Nat) : Concrete :=
  construct row first "block" fields start (start + 3)
    [construct row first "expression_statement" [] start (start + 3) [bareCall row first start]]

/-- A call without arguments has the shape that the grammar gives to calls. -/
theorem grammatical_bareCall : (bareCall row first start).Grammatical source := by
  have kind : (bareCall row first start).kind = "call" := rfl
  refine .of_parts ?_ ?_
  · constructor
    case extra => exact extra_of_all rfl
    case call => rintro - function (⟨⟩); rfl
    all_goals simp [kind, literalKinds, operatorKinds, definitionKinds, stringKinds]
  · refine List.forall_mem_cons.mpr ⟨?_, List.forall_mem_singleton.mpr ?_⟩
    · have kind : (construct row first "identifier" ["function"] start (start + 1) []).kind =
        "identifier" := rfl
      refine .of_parts ?_ fun _ mem => by cases mem
      constructor
      case extra => exact extra_of_all rfl
      case atom => exact fun _ => everywhere_iff.mpr ⟨rfl, fun _ mem => by cases mem⟩
      all_goals simp [kind, operatorKinds, definitionKinds, stringKinds]
    · exact .of_parts (.of_kind "argument_list" rfl (by decide) rfl) fun _ mem => by cases mem

theorem grammatical_callBlock : (callBlock row first fields start).Grammatical source := by
  refine .of_parts (.of_kind "block" rfl (by decide) rfl) (List.forall_mem_singleton.mpr ?_)
  refine .of_parts (.of_kind "expression_statement" rfl (by decide) rfl) ?_
  exact List.forall_mem_singleton.mpr grammatical_bareCall

end

/-- The concrete tree of `finally: g()`. -/
def finallyCall : Concrete :=
  construct 1 9 "finally_clause" [] 9 21
    [token 1 9 "finally" 9, token 1 9 ":" 16, callBlock 1 9 [] 18]

/-- The concrete tree of `try: f()` with that clause. -/
def tryCall : Concrete :=
  construct 0 0 "try_statement" [] 0 21
    [token 0 0 "try" 0, token 0 0 ":" 3, callBlock 0 0 ["body"] 5, finallyCall]

/-- The statement has a body, no handlers, and a clause for the end. -/
theorem tryParts_tryCall :
    tryCall.TryParts (callBlock 0 0 ["body"] 5) [] none (some finallyCall) where
  parts := rfl
  isBody := ⟨rfl, rfl⟩
  isHandler _ mem := absurd mem List.not_mem_nil
  isElse _ mem := by cases mem
  isFinally clause mem := by
    cases mem
    exact ⟨rfl, _, rfl, rfl⟩

theorem grammatical_tryCall {source : Source} : tryCall.Grammatical source := by
  have kind : tryCall.kind = "try_statement" := rfl
  refine .of_parts ?_ ?_
  · constructor
    case extra => exact extra_of_all rfl
    case protectedBlock => exact fun _ => ⟨_, _, _, _, tryParts_tryCall⟩
    all_goals simp [kind, literalKinds, operatorKinds, definitionKinds, stringKinds]
  · refine List.forall_mem_cons.mpr ⟨grammatical_callBlock, List.forall_mem_singleton.mpr ?_⟩
    refine .of_parts (.of_kind "finally_clause" rfl (by decide) rfl) ?_
    exact List.forall_mem_singleton.mpr grammatical_callBlock

/-- The concrete tree of both lines. -/
def tryModule : Concrete := construct 0 0 "module" [] 0 22 [tryCall]

theorem grammatical_tryModule {source : Source} : tryModule.Grammatical source :=
  .of_parts (.of_kind "module" rfl (by decide) rfl)
    (List.forall_mem_singleton.mpr grammatical_tryCall)

end Concrete

/-- The text of which that is the tree. -/
def trySource : Source := ⟨"test.py", "try: f()\nfinally: g()\n"⟩

theorem Tree.exists_ofConcrete_tryModule :
    ∃ tree, Tree.ofConcrete trySource .tryModule = .ok tree := by
  rw [Tree.ofConcrete, Concrete.firstBad?_eq_none rfl]
  exact ⟨_, rfl⟩

/-- Both calls of this source are kept. -/
theorem Tree.calls_of_tryModule :
    Concrete.tryModule.Grammatical trySource ∧
      ∃ tree, Tree.ofConcrete trySource .tryModule = .ok tree ∧
        List.Forall₂
          (fun written read =>
            written.clauses = read.clauses ∧ LoweredTo trySource written.node read.node)
          (Concrete.tryModule.statementSites.filter (·.node.isCall))
          (tree.sites.filter (·.node.isCall)) := by
  obtain ⟨tree, h⟩ := Tree.exists_ofConcrete_tryModule
  have grammatical : Concrete.tryModule.Grammatical trySource := Concrete.grammatical_tryModule
  exact ⟨grammatical, tree, h, Tree.calls_of_ofConcrete grammatical h⟩

end SourceAudit
