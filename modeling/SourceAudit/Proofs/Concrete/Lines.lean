import SourceAudit.Proofs.Checker.ConstantCase
import SourceAudit.Proofs.Checker.TryOutput
import SourceAudit.Proofs.Concrete.Order
import SourceAudit.Proofs.Tree.Walk

/-!
# Lines of a lowered tree

Every construct of a lowered tree has a line, and it is the line of a node of the concrete tree: the
**origin** of the construct. Most constructs have the node they are lowered from as their origin;
what a shift of `print` is made of has the statement.

The proof is about any relation along which the concrete tree is ordered: it then holds between the
origins of a lowered tree, the earlier first (`traces_lower`). With the relation that always holds
this says that every line has an origin, with the order of rows that no line is less than one before
it. What walks announce and checkers report is read off the lines, so it goes up with them.
-/

namespace SourceAudit

/-! ## The lines of a tree -/

namespace Construct

/-- The line of a construct. -/
def line : Construct → Line
  | node inner => inner.line
  | handler (.mk line ..) => line

/-- The lines of a construct and of all that is inside it, in document order. -/
def lines (construct : Construct) : List Line := (construct.places []).map (·.construct.line)

/-- What stands around a construct does not bear on the lines in it: whatever the places are counted
from, the lines along them are the same. -/
theorem map_line_places (around : List Construct) (construct : Construct) :
    (construct.places around).map (·.construct.line) = construct.lines := by
  induction construct using inside_induction generalizing around with
  | step construct ih =>
    rw [lines, places_eq, places_eq [], List.map_cons, List.map_cons, List.map_flatMap,
      List.map_flatMap]
    congr 1
    refine List.flatMap_congr fun inner mem => ?_
    rw [ih inner mem, ih inner mem]

/-- The line of a construct comes first, and then the lines of what is directly inside it, one after
the other. This is the equation by which lines are compared with origins. -/
theorem lines_eq (construct : Construct) :
    construct.lines = construct.line :: construct.inside.flatMap lines := by
  rw [lines, places_eq, List.map_cons, List.map_flatMap]
  congr 1
  exact List.flatMap_congr fun inner _ => inner.map_line_places _

end Construct

/-- The lines of all constructs of a tree, in document order. -/
def Tree.lines (tree : Tree) : List Line := tree.places.map (·.construct.line)

/-- The lines of a tree are those of its statements, taken as constructs, one statement after the
other. -/
theorem Tree.lines_eq (tree : Tree) :
    tree.lines = (tree.body.map Construct.node).flatMap Construct.lines := by
  rw [Tree.lines, Tree.places, List.map_flatMap, List.flatMap_map]
  rfl

/-! ## Origins -/

/-- The lines of these constructs are those of nodes inside `nodes`, each related to those behind
it. -/
def Traced (r : Concrete → Concrete → Prop) (nodes : List Concrete)
    (constructs : List Construct) : Prop :=
  ∃ origins : List Concrete,
    constructs.flatMap Construct.lines = origins.map (fun origin => some origin.line) ∧
      (∀ origin ∈ origins, origin ∈ preorders nodes) ∧ origins.Pairwise r

namespace Traced

variable {r : Concrete → Concrete → Prop} {node : Concrete} {nodes later : List Concrete}
  {construct : Construct} {constructs others : List Construct}

theorem nil : Traced r nodes [] := ⟨[], rfl, fun _ mem => absurd mem List.not_mem_nil, .nil⟩

/-- Two traces stand one behind the other as soon as everything in the nodes of the first is related
to everything in those of the second. -/
theorem append (first : Traced r nodes constructs) (second : Traced r later others)
    (apart : ∀ node ∈ nodes, ∀ other ∈ later, Concrete.Precedes r node other) :
    Traced r (nodes ++ later) (constructs ++ others) := by
  obtain ⟨origins, lines, inside, ordered⟩ := first
  obtain ⟨origins', lines', inside', ordered'⟩ := second
  refine ⟨origins ++ origins', ?_, fun origin mem => ?_, ?_⟩
  · rw [List.flatMap_append, List.map_append, lines, lines']
  · rw [Concrete.mem_preorders]
    rcases List.mem_append.mp mem with mem | mem
    · obtain ⟨node, hnode, mem⟩ := Concrete.mem_preorders.mp (inside origin mem)
      exact ⟨node, List.mem_append_left _ hnode, mem⟩
    · obtain ⟨node, hnode, mem⟩ := Concrete.mem_preorders.mp (inside' origin mem)
      exact ⟨node, List.mem_append_right _ hnode, mem⟩
  · refine List.pairwise_append.mpr ⟨ordered, ordered', fun origin mem other hother => ?_⟩
    obtain ⟨node, hnode, mem⟩ := Concrete.mem_preorders.mp (inside origin mem)
    obtain ⟨last, hlast, hother⟩ := Concrete.mem_preorders.mp (inside' other hother)
    exact apart node hnode last hlast origin mem other hother

/-- What is inside some nodes is inside the nodes around them. -/
theorem within (h : Traced r nodes constructs)
    (around : ∀ inner ∈ nodes, ∃ node ∈ later, inner ∈ node.preorder) :
    Traced r later constructs := by
  obtain ⟨origins, lines, inside, ordered⟩ := h
  refine ⟨origins, lines, fun origin mem => ?_, ordered⟩
  obtain ⟨inner, hinner, mem⟩ := Concrete.mem_preorders.mp (inside origin mem)
  obtain ⟨node, hnode, hinner⟩ := around inner hinner
  exact Concrete.mem_preorders.mpr ⟨node, hnode, Concrete.mem_preorder_trans hinner mem⟩

/-- What is traced to nodes that lowering picks inside a node is traced to that node. -/
theorem of_picked (h : Traced r nodes constructs)
    (inside : ∀ inner ∈ nodes, inner ∈ node.preorder) : Traced r [node] constructs :=
  h.within fun inner mem => ⟨node, List.mem_singleton_self node, inside inner mem⟩

/-- What is traced to a child is traced to the node around it. -/
theorem of_child {child : Concrete} (h : Traced r [child] constructs)
    (mem : child ∈ node.children) : Traced r [node] constructs :=
  h.of_picked (List.forall_mem_singleton.mpr (Concrete.mem_preorder_of_mem_children mem))

/-- The line of a node may come before any lines from inside it. -/
theorem cons (ordered : node.Ordered r) (h : Traced r [node] constructs)
    (lines : others.flatMap Construct.lines =
      some node.line :: constructs.flatMap Construct.lines) : Traced r [node] others := by
  obtain ⟨origins, origin, inside, apart⟩ := h
  have here : ∀ origin ∈ origins, origin ∈ node.preorder := by
    intro origin mem
    obtain ⟨only, honly, mem⟩ := Concrete.mem_preorders.mp (inside origin mem)
    rwa [List.mem_singleton.mp honly] at mem
  refine ⟨node :: origins, ?_, ?_, ?_⟩
  · rw [lines, origin, List.map_cons]
  · refine List.forall_mem_cons.mpr ⟨?_, inside⟩
    exact Concrete.mem_preorders.mpr ⟨node, List.mem_singleton_self node, node.mem_preorder_self⟩
  · refine List.pairwise_cons.mpr ⟨fun origin mem => ?_, apart⟩
    exact ordered.here.above origin (here origin mem)

/-- A construct on the line of a node is traced to it as soon as all that is inside the construct
is. Nearly every rule of lowering comes down to this step. -/
theorem of_inside (ordered : node.Ordered r) (line : construct.line = some node.line)
    (h : Traced r [node] construct.inside) : Traced r [node] [construct] :=
  h.cons ordered (by rw [List.flatMap_singleton, Construct.lines_eq, line])

/-- A list that is lowered node by node is traced to its nodes, if every node stands wholly before
the next. The induction is on the nodes, with one `append` for each. -/
theorem mapM {α : Type} {step : Concrete → Except ParseError α} {toConstruct : α → Construct}
    {results : List α} (apart : nodes.Pairwise (Concrete.Precedes r))
    (each : ∀ node ∈ nodes, ∀ result, step node = .ok result →
      Traced r [node] [toConstruct result])
    (h : nodes.mapM step = .ok results) : Traced r nodes (results.map toConstruct) := by
  have lowered := mapM_eq_ok.mp h
  clear h
  induction lowered with
  | nil => exact .nil
  | cons first _ ih =>
    obtain ⟨beside, apart⟩ := List.pairwise_cons.mp apart
    obtain ⟨here, each⟩ := List.forall_mem_cons.mp each
    refine (here _ first).append (ih apart each) fun node mem other hother => ?_
    rw [List.mem_singleton.mp mem]
    exact beside other hother

/-- Of clauses that overwrite each other only the last is kept, and what it gives is traced to the
clauses as a whole. -/
theorem of_keepsLast {step : Concrete → Except ParseError (List Node)} {results : List Node}
    (each : ∀ node ∈ nodes, step node = .ok results → Traced r [node] (results.map .node))
    (h : KeepsLast step [] nodes results) : Traced r nodes (results.map .node) := by
  unfold KeepsLast at h
  split at h
  next =>
    rw [h]
    exact .nil
  next last hlast =>
    have mem := List.mem_of_getLast? hlast
    refine (each last mem h).within fun inner hinner => ⟨last, mem, ?_⟩
    rw [List.mem_singleton.mp hinner]
    exact last.mem_preorder_self

end Traced

/-! ## Rules that keep to the order -/

/-- What a part of a tree is lowered to has its lines from there. -/
def Traces (r : Concrete → Concrete → Prop) (lower : Lowering) : Prop :=
  ∀ node lowered, node.Ordered r → lower node = .ok lowered → Traced r [node] [.node lowered]

section

variable {r : Concrete → Concrete → Prop} {source : Source} {lower : Lowering}
  {node clause : Concrete} {nodes : List Concrete} {lowered : Node} {results : List Node}

/-- The nodes that lowering picks inside a node are traced one after the other, since each of them
is an ordered tree again. -/
theorem Traces.mapM (traces : Traces r lower) (ordered : node.Ordered r)
    (picks : node.Picks r nodes) (h : nodes.mapM lower = .ok results) :
    Traced r nodes (results.map .node) :=
  .mapM picks.apart (fun inner mem _ => traces _ _ (ordered.inside (picks.inside inner mem))) h

/-- What the parts of a node are lowered to is traced to the node. -/
theorem Traces.parts (traces : Traces r lower) (ordered : node.Ordered r)
    (h : lowerParts lower node = .ok results) : Traced r [node] (results.map .node) := by
  have picks : node.Picks r node.parts := ordered.picks_of_children List.filter_sublist
  exact (traces.mapM ordered picks h).of_picked picks.inside

/-- A construct without a rule of its own has the line of its node and holds what its parts are
lowered to. -/
theorem Traces.other (traces : Traces r lower) (ordered : node.Ordered r)
    (h : lowerOther lower node = .ok lowered) : Traced r [node] [.node lowered] := by
  obtain ⟨children, hchildren, rfl⟩ := lowerOther_eq_ok h
  exact .of_inside ordered rfl (traces.parts ordered hchildren)

/-- An expression statement gives way to its only expression; several stand as a tuple on its
line. -/
theorem Traces.expressionStatement (traces : Traces r lower) (ordered : node.Ordered r)
    (h : lowerExpressionStatement lower node = .ok lowered) : Traced r [node] [.node lowered] := by
  rcases lowerExpressionStatement_eq_ok h with h | only | ⟨several, hseveral, rfl⟩
  · exact traces.other ordered h
  · exact traces.parts ordered only
  · exact .of_inside ordered rfl (traces.parts ordered hseveral)

/-- The shift, the name in it and the tuple around it all have the line of the statement. -/
theorem Traces.print (traces : Traces r lower) (ordered : node.Ordered r)
    (h : lowerPrint source lower node = .ok lowered) : Traced r [node] [.node lowered] := by
  obtain ⟨chevron, rest, operands, values, parts, -, hoperands, hvalues, rfl⟩ := lowerPrint_eq_ok h
  have picks : node.Picks r (chevron :: rest) := by
    rw [← parts]
    exact ordered.picks_of_children List.filter_sublist
  obtain ⟨before, apart⟩ := List.pairwise_cons.mp picks.apart
  have shifted : Traced r [chevron] (operands.map .node) :=
    traces.parts (ordered.inside (picks.inside chevron List.mem_cons_self)) hoperands
  have printed : Traced r rest (values.map .node) :=
    traces.mapM ordered ⟨fun inner mem => picks.inside inner (List.mem_cons_of_mem _ mem), apart⟩
      hvalues
  have all : Traced r [node] (operands.map .node ++ values.map .node) := by
    refine (shifted.append printed fun inner mem other hother => ?_).of_picked picks.inside
    rw [List.mem_singleton.mp mem]
    exact before other hother
  have name : Traced r [node]
      (.node (.name node.line "print") :: operands.map .node ++ values.map .node) := by
    refine all.cons ordered ?_
    rw [List.cons_append, List.flatMap_cons, Construct.lines_eq]
    rfl
  have shift : Traced r [node] (.node (.other node.line "binary_operator"
      (.name node.line "print" :: operands)) :: values.map .node) := by
    refine name.cons ordered ?_
    rw [List.flatMap_cons, Construct.lines_eq, List.cons_append, List.flatMap_append]
    rfl
  cases values with
  | nil => exact shift
  | cons value values => exact .of_inside ordered rfl shift

/-- The operands of a flattened chain stand in the order of the source, so a chain is traced to its
outermost link. -/
theorem Traces.operators (traces : Traces r lower) (ordered : node.Ordered r)
    (kind : node.kind ∈ operatorKinds) (h : lowerOperators lower node = .ok lowered) :
    Traced r [node] [.node lowered] := by
  rcases lowerOperators_eq_ok h with ⟨left, right, operands, -, -, hoperands, rfl⟩ | h
  · have picks := ordered.picks_operands kind
    have inside := (traces.mapM ordered picks hoperands).of_picked picks.inside
    exact .of_inside ordered rfl inside
  · exact traces.other ordered h

/-- The targets of a chain of assignments come before its value, as they do in the source. -/
theorem Traces.assignment (traces : Traces r lower) (ordered : node.Ordered r)
    (kind : node.kind = "assignment") (h : lowerAssignment lower node = .ok lowered) :
    Traced r [node] [.node lowered] := by
  rcases lowerAssignment_eq_ok h with
    ⟨children, hchildren, rfl⟩ | ⟨targets, value, -, htargets, ⟨last, hlast, hvalue⟩, rfl⟩ | h
  · exact .of_inside ordered rfl (traces.parts ordered hchildren)
  · have picks := ordered.picks_assignments kind hlast
    have whole : (node.assignments.1 ++ [last]).mapM lower = .ok (targets ++ [value]) := by
      refine mapM_eq_ok.mpr (List.rel_append (mapM_eq_ok.mp htargets) ?_)
      exact .cons hvalue .nil
    have inside := (traces.mapM ordered picks whole).of_picked picks.inside
    rw [List.map_append] at inside
    exact .of_inside ordered rfl inside
  · exact traces.other ordered h

/-- The interpolations of a formatted string are traced to it; a string without them has its own
line only. -/
theorem Traces.string (traces : Traces r lower) (ordered : node.Ordered r)
    (h : lowerString source lower node = .ok lowered) : Traced r [node] [.node lowered] := by
  rcases lowerString_eq_ok h with ⟨children, -, hchildren, rfl⟩ | ⟨-, rfl⟩
  · have picks := ordered.picks_interpolations
    have each : Traced r node.interpolations (children.map .node) := by
      refine .mapM picks.apart (fun inner mem result h => ?_) hchildren
      exact traces.other (ordered.inside (picks.inside inner mem)) h
    exact .of_inside ordered rfl (each.of_picked picks.inside)
  · exact .of_inside ordered rfl .nil

/-- An access has the line of its node and the object inside it. The attribute is a text and has no
line. -/
theorem Traces.access (traces : Traces r lower) (ordered : node.Ordered r)
    (h : lowerAccess source lower node = .ok lowered) : Traced r [node] [.node lowered] := by
  rcases lowerAccess_eq_ok h with ⟨object, attr, value, hobject, -, hvalue, rfl⟩ | h
  · have child : object ∈ node.children := List.mem_of_find?_eq_some hobject
    have inside := traces object value (ordered.child child) hvalue
    exact .of_inside ordered rfl (inside.of_child child)
  · exact traces.other ordered h

/-- Parentheses give way to what is in them, which keeps its own line. -/
theorem Traces.parenthesized (traces : Traces r lower) (ordered : node.Ordered r)
    (h : lowerParenthesized lower node = .ok lowered) : Traced r [node] [.node lowered] := by
  rcases lowerParenthesized_eq_ok h with ⟨inner, rest, parts, hinner⟩ | h
  · have child : inner ∈ node.children := List.mem_of_mem_filter (parts ▸ List.mem_cons_self)
    exact (traces inner lowered (ordered.child child) hinner).of_child child
  · exact traces.other ordered h

/-! ### Constructs with fields -/

/-- What a field is lowered to is traced to the node under the field, and to no node where there is
none. -/
theorem Traces.field (traces : Traces r lower) (ordered : node.Ordered r) {field : String}
    (h : lowerField lower field node = .ok results) :
    Traced r (node.field? field).toList (results.map .node) := by
  rcases lowerField_eq_ok h with ⟨inner, found, h⟩ | ⟨found, rfl⟩
  · rw [found]
    exact traces.parts (ordered.child (List.mem_of_find?_eq_some found)) h
  · exact .nil

/-- The arguments of a call are traced to the list they stand in, or to the one argument that is not
in a list. -/
theorem Traces.arguments (traces : Traces r lower) (ordered : node.Ordered r) {args : List Node}
    (h : lowerArguments lower node = .ok args) :
    Traced r (node.field? "arguments").toList (args.map .node) := by
  rcases lowerArguments_eq_ok h with
    ⟨arguments, found, -, hparts⟩ | ⟨arguments, only, found, honly, rfl⟩ | ⟨-, rfl⟩
  · rw [found]
    exact traces.parts (ordered.child (List.mem_of_find?_eq_some found)) hparts
  · rw [found]
    exact traces arguments only (ordered.child (List.mem_of_find?_eq_some found)) honly
  · exact .nil

/-- What is called comes before the arguments, whichever is lowered first. -/
theorem Traces.call (traces : Traces r lower) (ordered : node.Ordered r)
    (kind : node.kind = "call") (h : lowerCall lower node = .ok lowered) :
    Traced r [node] [.node lowered] := by
  rcases lowerCall_eq_ok h with ⟨function, func, args, found, hfunc, hargs, rfl⟩ | ⟨-, h⟩
  · have sequence : node.sequence = [function] ++ (node.field? "arguments").toList := by
      simp [Concrete.sequence, kind, found]
    have picks := sequence ▸ ordered.picks_sequence
    obtain ⟨-, -, apart⟩ := List.pairwise_append.mp picks.apart
    have called := traces function func (ordered.child (List.mem_of_find?_eq_some found)) hfunc
    have all := called.append (traces.arguments ordered hargs) apart
    exact .of_inside ordered rfl (all.of_picked picks.inside)
  · exact traces.other ordered h

/-- The header of a definition comes before its body, each field of the header in the order in which
it is asked for. -/
theorem Traces.definition (traces : Traces r lower) (ordered : node.Ordered r)
    (kind : node.kind ∈ definitionKinds) {what : DefinitionKind}
    (h : lowerDefinition source lower node what = .ok lowered) :
    Traced r [node] [.node lowered] := by
  obtain ⟨header, body, name, hheader, hbody, rfl⟩ := lowerDefinition_eq_ok h
  have sequence : node.sequence =
      headerFields.filterMap node.field? ++ (node.field? "body").toList := by
    simp only [definitionKinds, List.mem_cons, List.not_mem_nil, or_false] at kind
    rcases kind with kind | kind <;> simp [Concrete.sequence, kind]
  have picks := sequence ▸ ordered.picks_sequence
  obtain ⟨first, -, apart⟩ := List.pairwise_append.mp picks.apart
  have inHeader (inner : Concrete) (mem : inner ∈ headerFields.filterMap node.field?) :=
    picks.inside inner (List.mem_append_left _ mem)
  have headed := traces.mapM ordered ⟨inHeader, first⟩ hheader
  have all := headed.append (traces.field ordered hbody) apart
  exact .of_inside ordered rfl (all.of_picked picks.inside)

/-! ### Protected blocks -/

/-- The statements of a clause are traced to the clause, through the block that holds them. -/
theorem Traces.clauseBody (traces : Traces r lower) (ordered : clause.Ordered r)
    (h : lowerClauseBody lower clause = .ok results) : Traced r [clause] (results.map .node) := by
  rcases lowerClauseBody_eq_ok h with ⟨block, found, h⟩ | ⟨-, rfl⟩
  · have child : block ∈ clause.children :=
      List.mem_of_mem_filter (List.mem_of_find?_eq_some found)
    exact (traces.parts (ordered.child child) h).of_child child
  · exact .nil

/-- The type of a handler is traced to its expressions: to the first, or to a node inside it where
the first binds a name as well. -/
theorem Traces.handlerType (traces : Traces r lower) {exprs : List Concrete}
    {typeExpr : Option Node} (ordered : ∀ expr ∈ exprs, expr.Ordered r)
    (h : lowerHandlerType lower exprs = .ok typeExpr) :
    Traced r exprs (typeExpr.toList.map .node) := by
  rcases lowerHandlerType_eq_ok h with ⟨rfl, -⟩ | ⟨first, rest, type, rfl, rfl, taken⟩
  · exact .nil
  · have here := ordered first List.mem_cons_self
    obtain ⟨inner, inside, h⟩ : ∃ inner ∈ first.preorder, lower inner = .ok type := by
      rcases taken with ⟨-, h⟩ | ⟨inner, names, -, parts, h⟩
      · exact ⟨first, first.mem_preorder_self, h⟩
      · have child : inner ∈ first.children := List.mem_of_mem_filter (parts ▸ List.mem_cons_self)
        exact ⟨inner, Concrete.mem_preorder_of_mem_children child, h⟩
    refine (traces inner type (here.inside inside) h).within fun origin mem => ?_
    rw [List.mem_singleton.mp mem]
    exact ⟨first, List.mem_cons_self, inside⟩

/-- A handler has the line of its clause, then its type, then its statements. The blocks are asked
for after the expressions, so the two traces stand one behind the other. -/
theorem Traces.handler (traces : Traces r lower) (ordered : clause.Ordered r)
    (isHandler : clause.isClause .handler) {handler : Handler}
    (h : lowerHandler source lower clause = .ok handler) :
    Traced r [clause] [.handler handler] := by
  obtain ⟨body, typeExpr, name, hbody, htype, rfl⟩ := lowerHandler_eq_ok h
  have sequence : clause.sequence =
      clause.parts.filter (!·.isBlock) ++ clause.parts.filter Concrete.isBlock := by
    simp only [Concrete.isClause, Bool.or_eq_true, decide_eq_true_eq] at isHandler
    rcases isHandler with kind | kind <;> simp [Concrete.sequence, kind]
  have picks := sequence ▸ ordered.picks_sequence
  obtain ⟨-, -, apart⟩ := List.pairwise_append.mp picks.apart
  have child {p : Concrete → Bool} {part : Concrete} (mem : part ∈ clause.parts.filter p) :
      part ∈ clause.children := List.mem_of_mem_filter (List.mem_of_mem_filter mem)
  have typed := traces.handlerType (fun expr mem => ordered.child (child mem)) htype
  have handled : Traced r (clause.parts.filter Concrete.isBlock) (body.map .node) :=
    .of_keepsLast (fun block mem => traces.parts (ordered.child (child mem))) hbody
  exact .of_inside ordered rfl ((typed.append handled apart).of_picked picks.inside)

/-- A protected block has its statements, its handlers and its other clauses, each traced to the
nodes it comes from, in the order of `Concrete.sequence`. -/
theorem Traces.tryBlock (traces : Traces r lower) (ordered : node.Ordered r)
    (kind : node.kind = "try_statement") (h : lowerTry source lower node = .ok lowered) :
    Traced r [node] [.node lowered] := by
  obtain ⟨body, handlers, orelse, finalbody, hbody, hhandlers, horelse, hfinalbody, rfl⟩ :=
    lowerTry_eq_ok h
  have sequence : node.sequence = (node.field? "body").toList
      ++ node.named.filter (Concrete.isClause .handler)
      ++ node.named.filter (Concrete.isClause .orelse)
      ++ node.named.filter (Concrete.isClause .finalbody) := by
    simp [Concrete.sequence, kind]
  have picks := sequence ▸ ordered.picks_sequence
  obtain ⟨before, -, third⟩ := List.pairwise_append.mp picks.apart
  obtain ⟨before, -, second⟩ := List.pairwise_append.mp before
  obtain ⟨-, between, first⟩ := List.pairwise_append.mp before
  have child {sort : Clause} {clause : Concrete}
      (mem : clause ∈ node.named.filter (Concrete.isClause sort)) : clause ∈ node.children :=
    List.mem_of_mem_filter (List.mem_of_mem_filter mem)
  have inHandlers : Traced r (node.named.filter (Concrete.isClause .handler))
      (handlers.map .handler) := by
    refine .mapM between (fun clause mem handler h => ?_) hhandlers
    exact traces.handler (ordered.child (child mem)) (List.mem_filter.mp mem).2 h
  have inElse : Traced r (node.named.filter (Concrete.isClause .orelse)) (orelse.map .node) :=
    .of_keepsLast (fun clause mem => traces.clauseBody (ordered.child (child mem))) horelse
  have inFinally : Traced r (node.named.filter (Concrete.isClause .finalbody))
      (finalbody.map .node) :=
    .of_keepsLast (fun clause mem => traces.clauseBody (ordered.child (child mem))) hfinalbody
  have all := (((traces.field ordered hbody).append inHandlers first).append inElse second).append
    inFinally third
  exact .of_inside ordered rfl (all.of_picked picks.inside)

/-! ### All constructs -/

/-- A construct keeps to the order if every part of it does. -/
theorem Traces.lowerKind (traces : Traces r lower) (ordered : node.Ordered r)
    (h : lowerKind source lower node = .ok lowered) : Traced r [node] [.node lowered] := by
  cases lowerKind_cases h with
  | tryBlock kind h => exact traces.tryBlock ordered kind h
  | definition kind h => exact traces.definition ordered kind h
  | expressionStatement _ h => exact traces.expressionStatement ordered h
  | assignment kind h => exact traces.assignment ordered kind h
  | call kind h => exact traces.call ordered kind h
  | access _ h => exact traces.access ordered h
  | name => exact .of_inside ordered rfl .nil
  | literal => exact .of_inside ordered rfl .nil
  | string _ h => exact traces.string ordered h
  | tuple _ helts => exact .of_inside ordered rfl (traces.parts ordered helts)
  | parenthesized _ h => exact traces.parenthesized ordered h
  | operators kind h => exact traces.operators ordered kind h
  | print _ h => exact traces.print ordered h
  | other _ h => exact traces.other ordered h

end

/-- Lowering traces every construct, at any number of levels. The induction is on the levels, and
`Traces.lowerKind` is its step. -/
theorem traces_lower (r : Concrete → Concrete → Prop) (source : Source) (levels : Nat) :
    Traces r (lower source levels) := by
  induction levels with
  | zero =>
    intro node lowered _ h
    cases h
  | succ levels ih =>
    intro node lowered ordered h
    exact ih.lowerKind ordered h

/-! ## The lines of a lowered tree -/

/-- The lines of a lowered tree have origins in its concrete tree, and what holds along the concrete
tree holds along the origins. -/
theorem Tree.exists_origins {r : Concrete → Concrete → Prop} {source : Source} {root : Concrete}
    {tree : Tree} (h : Tree.ofConcrete source root = .ok tree) (ordered : root.Ordered r) :
    ∃ origins : List Concrete, tree.lines = origins.map (fun origin => some origin.line) ∧
      (∀ origin ∈ origins, origin ∈ root.preorder) ∧ origins.Pairwise r := by
  obtain ⟨-, -, hbody⟩ := Tree.ofConcrete_eq_ok h
  obtain ⟨origins, lines, inside, apart⟩ :=
    (traces_lower r source nestingLimit).parts ordered hbody
  refine ⟨origins, by rw [Tree.lines_eq, lines], fun origin mem => ?_, apart⟩
  obtain ⟨only, honly, mem⟩ := Concrete.mem_preorders.mp (inside origin mem)
  rwa [List.mem_singleton.mp honly] at mem

/-- Every line of a lowered tree is known, and is the line of some node of the concrete tree. -/
theorem Tree.exists_origin {source : Source} {root : Concrete} {tree : Tree}
    (h : Tree.ofConcrete source root = .ok tree) {line : Line} (mem : line ∈ tree.lines) :
    ∃ node ∈ root.preorder, line = some node.line := by
  obtain ⟨origins, lines, inside, -⟩ := Tree.exists_origins h root.ordered_true
  rw [lines] at mem
  obtain ⟨origin, horigin, rfl⟩ := List.mem_map.mp mem
  exact ⟨origin, inside origin horigin, rfl⟩

/-- If rows go up in the concrete tree and its sequences stand in the order of the children, then no
line of the lowered tree is less than one before it. -/
theorem Tree.pairwise_lines {source : Source} {root : Concrete} {tree : Tree}
    (h : Tree.ofConcrete source root = .ok tree)
    (rows : (root.preorder.map (·.tag.row)).Pairwise (· ≤ ·))
    (sequences : ∀ node ∈ root.preorder, node.sequence.Sublist node.children) :
    (tree.lines.map (·.getD 0)).Pairwise (· ≤ ·) := by
  obtain ⟨origins, lines, -, apart⟩ :=
    Tree.exists_origins h (Concrete.ordered_of_rows rows sequences)
  rw [lines, List.map_map, List.pairwise_map]
  exact apart.imp fun le => Nat.succ_le_succ le

/-! ## What is announced and what is reported -/

/-- All that a walk announces for a construct carries the line of that construct. -/
theorem Construct.line_of_mem_events {construct : Construct} {event : Event}
    (h : event ∈ construct.events) : event.line = construct.line := by
  cases construct with
  | node inner =>
    simp only [events, List.mem_cons, List.not_mem_nil, or_false] at h
    rcases h with rfl | rfl <;> rfl
  | handler inner =>
    obtain ⟨line, typeExpr, name, body⟩ := inner
    rw [List.mem_singleton.mp h]
    rfl

/-- A walk announces the lines of a tree in their order. -/
theorem Tree.pairwise_event_lines {tree : Tree}
    (sorted : (tree.lines.map (·.getD 0)).Pairwise (· ≤ ·)) :
    ((tree.events fun _ => false).filterMap Event.line).Pairwise (· ≤ ·) := by
  have root : tree.event.line = none := rfl
  rw [Tree.events_unpruned, List.filterMap_cons, root, List.filterMap_flatMap]
  refine List.pairwise_flatMap.mpr ⟨fun place _ => ?_, ?_⟩
  · refine List.pairwise_filterMap.mpr (List.pairwise_of_forall_mem_list ?_)
    intro event hevent other hother first hfirst second hsecond
    rw [Construct.line_of_mem_events hevent] at hfirst
    rw [Construct.line_of_mem_events hother, hfirst] at hsecond
    exact Nat.le_of_eq (Option.some.inj hsecond)
  · rw [Tree.lines, List.map_map, List.pairwise_map] at sorted
    refine sorted.imp fun apart first hfirst second hsecond => ?_
    obtain ⟨event, hevent, hfirst⟩ := List.mem_filterMap.mp hfirst
    obtain ⟨other, hother, hsecond⟩ := List.mem_filterMap.mp hsecond
    rw [Construct.line_of_mem_events hevent] at hfirst
    rw [Construct.line_of_mem_events hother] at hsecond
    simpa only [Function.comp_apply, hfirst, hsecond, Option.getD_some] using apart

/-- A function that is defined on some items only, and agrees there with one defined on all, picks
some of the results of the latter in their order. -/
theorem filterMap_sublist_map {α β : Type} {f : α → Option β} {g : α → β}
    (h : ∀ a b, f a = some b → b = g a) (list : List α) :
    (list.filterMap f).Sublist (list.map g) := by
  induction list with
  | nil => exact .slnil
  | cons first list ih =>
    rw [List.filterMap_cons, List.map_cons]
    split
    next => exact ih.cons _
    next found =>
      rw [h _ _ found]
      exact ih.cons_cons _

/-- A checker that finds something at some sites, on the line of the node there, reports some of the
lines of the tree in their order. -/
theorem Checker.lines_sublist {checker : Checker} {tree : Tree} {finds : Site → Option Finding}
    (found : checker.findings tree = tree.sites.filterMap finds)
    (there : ∀ site finding, finds site = some finding → finding.line = site.node.line.getD 0) :
    ((checker.run tree {}).issues.map Issue.line).Sublist (tree.lines.map (·.getD 0)) := by
  have lines : (checker.run tree {}).issues.map Issue.line =
      tree.sites.filterMap fun site => (finds site).map Finding.line := by
    rw [Checker.run_issues, List.nil_append, Checker.issues, found, List.map_map,
      List.map_filterMap]
    rfl
  have atSites : ((checker.run tree {}).issues.map Issue.line).Sublist
      ((tree.sites.map Site.node).map (·.line.getD 0)) := by
    rw [lines, List.map_map]
    refine filterMap_sublist_map (fun site line h => ?_) _
    obtain ⟨finding, hfinding, rfl⟩ := Option.map_eq_some_iff.mp h
    exact there site finding hfinding
  refine atSites.trans ?_
  rw [← Tree.nodes_places, Tree.lines, List.map_map, List.map_filterMap]
  refine filterMap_sublist_map (fun place line h => ?_) _
  obtain ⟨node, hnode, rfl⟩ := Option.map_eq_some_iff.mp h
  obtain ⟨around, construct⟩ := place
  cases construct with
  | node inner =>
    cases hnode
    rfl
  | handler inner => cases hnode

/-- Findings about output in protected blocks are on the lines of the nodes they are about, so their
lines are some of the lines of the tree in its order. -/
theorem Checker.tryOutput_lines_sublist (tree : Tree) :
    ((Checker.tryOutput.run tree {}).issues.map Issue.line).Sublist
      (tree.lines.map (·.getD 0)) := by
  refine lines_sublist (tryOutput_findings tree) fun site finding h => ?_
  unfold Site.output? at h
  split at h
  next =>
    obtain ⟨kind, -, rfl⟩ := Option.map_eq_some_iff.mp h
    rfl
  next => cases h

/-- Findings about the case of constants are on the lines of the assigned names, so their lines are
some of the lines of the tree in its order. -/
theorem Checker.constantCase_lines_sublist (tree : Tree) :
    ((Checker.constantCase.run tree {}).issues.map Issue.line).Sublist
      (tree.lines.map (·.getD 0)) := by
  refine lines_sublist (constantCase_findings tree) fun site finding h => ?_
  unfold Site.constant? at h
  split at h
  next =>
    obtain ⟨id, -, rfl⟩ := Option.map_eq_some_iff.mp h
    rfl
  next => cases h

/-- **The lines of a lowered tree are real, and they are in order if the source is.** Every node and
every handler has the line of some node of the concrete tree, so no issue of either checker is on
line zero. If the rows of the concrete tree never go down in document order, and the children that
lowering asks for apart from each other stand in the order in which it holds them, then the lines
that a walk announces never go down, and neither do those of the issues of either checker. -/
theorem Tree.lines_of_ofConcrete {source : Source} {root : Concrete} {tree : Tree}
    (h : Tree.ofConcrete source root = .ok tree) :
    (∀ place ∈ tree.places, ∃ node ∈ root.preorder,
        place.construct.line = some (node.tag.row + 1)) ∧
      (∀ checker ∈ [Checker.tryOutput, Checker.constantCase],
        ∀ issue ∈ (checker.run tree {}).issues, 1 ≤ issue.line) ∧
      ((root.preorder.map (·.tag.row)).Pairwise (· ≤ ·) →
        (∀ node ∈ root.preorder, node.sequence.Sublist node.children) →
          ((tree.events fun _ => false).filterMap Event.line).Pairwise (· ≤ ·) ∧
            ∀ checker ∈ [Checker.tryOutput, Checker.constantCase],
              ((checker.run tree {}).issues.map Issue.line).Pairwise (· ≤ ·)) := by
  have reported : ∀ checker ∈ [Checker.tryOutput, Checker.constantCase],
      ((checker.run tree {}).issues.map Issue.line).Sublist (tree.lines.map (·.getD 0)) := by
    simp only [List.forall_mem_cons, List.not_mem_nil, false_implies, implies_true, and_true]
    exact ⟨Checker.tryOutput_lines_sublist tree, Checker.constantCase_lines_sublist tree⟩
  refine ⟨fun place mem => ?_, fun checker hchecker issue mem => ?_, fun rows sequences => ?_⟩
  · exact Tree.exists_origin h (List.mem_map_of_mem mem)
  · have line := (reported checker hchecker).subset (List.mem_map_of_mem mem)
    obtain ⟨known, hknown, line⟩ := List.mem_map.mp line
    obtain ⟨origin, -, rfl⟩ := Tree.exists_origin h hknown
    rw [← line]
    exact Nat.succ_pos _
  · have sorted := Tree.pairwise_lines h rows sequences
    refine ⟨Tree.pairwise_event_lines sorted, fun checker hchecker => ?_⟩
    exact sorted.sublist (reported checker hchecker)

/-! ## A source with two issues -/

/-- Two constants that are not in capitals. -/
def settingsSource : Source := ⟨"test.py", "total = 1\ncount = 2\n"⟩

namespace Concrete

/-- The assignment of a digit to a name of five letters. -/
def setting (row first : Nat) : Concrete :=
  construct row first "assignment" [] first (first + 9)
    [construct row first "identifier" ["left"] first (first + 5) [],
      token row first "=" (first + 6),
      construct row first "integer" ["right"] (first + 8) (first + 9) []]

/-- The concrete tree of both lines. -/
def settingsModule : Concrete :=
  construct 0 0 "module" [] 0 20
    [construct 0 0 "expression_statement" [] 0 9 [setting 0 0],
      construct 1 10 "expression_statement" [] 10 19 [setting 1 10]]

theorem sequences_setting {row first : Nat} :
    ∀ node ∈ (setting row first).preorder, node.sequence.Sublist node.children := by
  intro node mem
  simp only [setting, construct, token, preorder, preorders, List.append_nil, List.cons_append,
    List.nil_append, List.mem_cons, List.not_mem_nil, or_false] at mem
  rcases mem with rfl | rfl | rfl | rfl
  · exact .cons_cons _ (.cons _ (.cons_cons _ .slnil))
  all_goals exact List.nil_sublist _

/-- Nothing in the module is asked for out of the order in which it stands. -/
theorem sequences_settingsModule :
    ∀ node ∈ settingsModule.preorder, node.sequence.Sublist node.children := by
  have own : settingsModule.sequence.Sublist settingsModule.children := List.nil_sublist _
  have statement {row first start stop : Nat} : ∀ node ∈
      (construct row first "expression_statement" [] start stop [setting row first]).preorder,
      node.sequence.Sublist node.children := by
    rw [preorder_eq, List.forall_mem_cons, List.forall_mem_flatMap]
    exact ⟨List.nil_sublist _, List.forall_mem_singleton.mpr sequences_setting⟩
  rw [preorder_eq, List.forall_mem_cons, List.forall_mem_flatMap]
  exact ⟨own, List.forall_mem_cons.mpr ⟨statement, List.forall_mem_singleton.mpr statement⟩⟩

end Concrete

/-- The syntax tree of this source. -/
def Tree.settings : Tree where
  sourceName := "test.py"
  body :=
    [.assign (some 1) [.name (some 1) "total"] (.literal (some 1) .int "1"),
      .assign (some 2) [.name (some 2) "count"] (.literal (some 2) .int "2")]

/-- Each of the two is found on its line. -/
theorem Tree.lines_of_settingsModule :
    (Concrete.settingsModule.preorder.map (·.tag.row)).Pairwise (· ≤ ·) ∧
      (∀ node ∈ Concrete.settingsModule.preorder, node.sequence.Sublist node.children) ∧
      Tree.ofConcrete settingsSource .settingsModule = .ok .settings ∧
      (Checker.constantCase.run .settings {}).issues.map Issue.line = [1, 2] ∧
      ((Tree.settings.events fun _ => false).filterMap Event.line).Pairwise (· ≤ ·) ∧
      ((Checker.constantCase.run .settings {}).issues.map Issue.line).Pairwise (· ≤ ·) := by
  have rows : (Concrete.settingsModule.preorder.map (·.tag.row)).Pairwise (· ≤ ·) := by decide
  have lowered : Tree.ofConcrete settingsSource .settingsModule = .ok .settings := by
    rw [Tree.ofConcrete, Concrete.firstBad?_eq_none rfl]
    rfl
  have issues : (Checker.constantCase.run .settings {}).issues.map Issue.line = [1, 2] := by
    decide +kernel
  obtain ⟨-, -, ordered⟩ := Tree.lines_of_ofConcrete lowered
  obtain ⟨events, reports⟩ := ordered rows Concrete.sequences_settingsModule
  have mem : Checker.constantCase ∈ [Checker.tryOutput, Checker.constantCase] :=
    List.mem_cons_of_mem _ List.mem_cons_self
  exact ⟨rows, Concrete.sequences_settingsModule, lowered, issues, events, reports _ mem⟩

end SourceAudit
