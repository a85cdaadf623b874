import SourceAudit.Proofs.Concrete.Grammatical

/-!
# The calls in a tree

The calls in a node are listed with the clauses around each, on both sides of lowering: once for the
concrete tree and once for the syntax tree. Both lists are read off the sites, so they are in
document order, and both are taken apart by one equation: a call comes before the calls inside it,
and these come part after part (`Concrete.calls_eq`) or branch after branch (`Node.calls_eq`).

The second half is about the reading that comes before lowering. A chain of operators, a chain of
assignments and the interpolations of a string are read off several nodes at once, and a grammatical
tree has no call that such a reading passes over. The clauses of a protected block are sorted by
kind, and the grammar puts no two parts of one sort where only one is kept.
-/

namespace SourceAudit

/-! ## The calls in a node -/

/-- Calls, each with the clauses around it, seen from outside of one more clause. -/
def inClause {α : Type} (clause : Option Clause) (calls : List (List Clause × α)) :
    List (List Clause × α) :=
  calls.map fun call => (call.1 ++ clause.toList, call.2)

@[simp] theorem inClause_none {α : Type} (calls : List (List Clause × α)) :
    inClause none calls = calls := by
  simp [inClause]

/-- It is the same to see every node from outside of a clause and to see all their calls from
there. -/
theorem inClause_flatMap {α β : Type} (clause : Option Clause) (nodes : List β)
    (calls : β → List (List Clause × α)) :
    nodes.flatMap (fun node => inClause clause (calls node)) =
      inClause clause (nodes.flatMap calls) := by
  simp only [inClause, List.map_flatMap]

namespace Concrete

/-- The calls in a node, in document order, each with the clauses around it inside the node. -/
def calls (node : Concrete) : List (List Clause × Concrete) :=
  ((node.sites []).filter (·.node.isCall)).map fun site => (site.clauses, site.node)

/-- A call comes first, and then the calls in its parts, one part after the other. -/
theorem calls_eq (node : Concrete) :
    node.calls = (if node.isCall then [([], node)] else []) ++
      node.parts.flatMap fun part => inClause (node.clauseIn? part) part.calls := by
  have inside : ∀ part : Concrete,
      ((part.sites [⟨node, part⟩]).filter (·.node.isCall)).map
        (fun site => (site.clauses, site.node)) = inClause (node.clauseIn? part) part.calls := by
    intro part
    rw [sites_under, List.filter_map, List.map_map, calls, inClause, List.map_map]
    refine List.map_congr_left fun site _ => ?_
    simp only [Function.comp_apply, Site.under, Site.clauses, List.filterMap_append]
    cases h : node.clauseIn? part <;> simp [h]
  rw [calls, sites_eq, List.filter_cons]
  split
  next =>
    rw [List.map_cons, List.filter_flatMap, List.map_flatMap]
    simp only [inside]
    rfl
  next =>
    rw [List.filter_flatMap, List.map_flatMap]
    simp only [inside]
    rfl

/-- Only protected blocks have clauses. -/
theorem clauseIn?_eq_none {node part : Concrete} (h : node.kind ≠ "try_statement") :
    node.clauseIn? part = none := if_neg h

/-- The calls in what is neither a call nor a protected block are those in its parts. -/
theorem calls_of_parts {node : Concrete} (call : node.isCall = false)
    (kind : node.kind ≠ "try_statement") : node.calls = node.parts.flatMap calls := by
  rw [calls_eq, if_neg (Bool.eq_false_iff.mp call), List.nil_append]
  simp only [clauseIn?_eq_none kind, inClause_none]

/-- The kind of a node tells that it is neither a call nor a protected block. This is the form in
which most rules of lowering ask. -/
theorem calls_of_kind {node : Concrete} {kind : String} (same : node.kind = kind)
    (h : kind ≠ "call" ∧ kind ≠ "try_statement") : node.calls = node.parts.flatMap calls := by
  rw [← same] at h
  exact calls_of_parts (by simp [isCall, h.1]) h.2

theorem calls_of_mem {node : Concrete} {kinds : List String} (mem : node.kind ∈ kinds)
    (h : "call" ∉ kinds ∧ "try_statement" ∉ kinds) : node.calls = node.parts.flatMap calls :=
  calls_of_kind rfl ⟨fun same => h.1 (same ▸ mem), fun same => h.2 (same ▸ mem)⟩

/-- Whatever is of the kind of a clause is a piece of a construct, so the grammar lets it stand
nowhere else. -/
theorem mem_pieceKinds_of_isClause {node : Concrete} {clause : Clause}
    (h : node.isClause clause) : node.kind ∈ pieceKinds := by
  cases clause <;> simp only [isClause, isBlock, Bool.or_eq_true, decide_eq_true_eq] at h
  case handler => rcases h with kind | kind <;> simp [pieceKinds, kind]
  all_goals simp [pieceKinds, h]

/-- The calls in a clause are those in its parts. -/
theorem calls_of_isClause {node : Concrete} {clause : Clause} (h : node.isClause clause) :
    node.calls = node.parts.flatMap calls :=
  calls_of_mem (mem_pieceKinds_of_isClause h) (by decide)

/-- A node in which no call stands lists none, so a rule may pass over it. -/
theorem Callless.calls_eq_nil {node : Concrete} (h : node.Callless) : node.calls = [] := by
  have none : (node.sites []).filter (·.node.isCall) = [] :=
    List.filter_eq_nil_iff.mpr fun site mem => by simp [h site mem]
  rw [calls, none, List.map_nil]

theorem flatMap_calls_eq_nil {nodes : List Concrete} (h : ∀ node ∈ nodes, node.Callless) :
    nodes.flatMap calls = [] :=
  List.flatMap_eq_nil_iff.mpr fun node mem => (h node mem).calls_eq_nil

end Concrete

namespace Node

/-- Whether a node is a call. -/
def isCall : Node → Bool
  | call .. => true
  | _ => false

/-- The calls in a node, in document order, each with the clauses around it inside the node. -/
def calls (node : Node) : List (List Clause × Node) :=
  ((node.sites []).filter (·.node.isCall)).map fun site => (site.clauses, site.node)

/-- The calls in a branch, the clause that its role stands for counted. -/
def branchCalls (branch : Role × Node) : List (List Clause × Node) :=
  inClause branch.1.clause? branch.2.calls

/-- A call comes first, and then the calls in its branches, each with the clause that its role
stands for. This is the equation of `Concrete.calls_eq` on the other side of lowering. -/
theorem calls_eq (node : Node) :
    node.calls = (if node.isCall then [([], node)] else []) ++
      node.branches.flatMap branchCalls := by
  have inside : ∀ branch : Role × Node,
      ((branch.2.sites [⟨node, branch.1, branch.2⟩]).filter (·.node.isCall)).map
        (fun site => (site.clauses, site.node)) = branchCalls branch := by
    intro branch
    rw [sites_under, List.filter_map, List.map_map, branchCalls, calls, inClause, List.map_map]
    refine List.map_congr_left fun site _ => ?_
    simp only [Function.comp_apply, Site.under, Site.clauses, List.filterMap_append]
    cases h : branch.1.clause? <;> simp [h]
  rw [calls, sites_eq, List.filter_cons]
  split
  next =>
    rw [List.map_cons, List.filter_flatMap, List.map_flatMap]
    simp only [inside]
    rfl
  next =>
    rw [List.filter_flatMap, List.map_flatMap]
    simp only [inside]
    rfl

/-- Branches in one role have the calls of their nodes, seen from outside of the clause that the
role stands for. -/
@[simp] theorem flatMap_branchCalls (role : Role) (nodes : List Node) :
    (nodes.map (role, ·)).flatMap branchCalls = inClause role.clause? (nodes.flatMap calls) := by
  rw [List.flatMap_map, ← inClause_flatMap]
  rfl

/-- The calls in what is neither a call nor a protected block are those in its branches. -/
theorem calls_of_branches {node : Node} (h : node.isCall = false) :
    node.calls = node.branches.flatMap branchCalls := by
  rw [calls_eq, if_neg (Bool.eq_false_iff.mp h), List.nil_append]

@[simp] theorem calls_definition (line : Line) (kind : DefinitionKind) (name : String)
    (header body : List Node) :
    (definition line kind name header body).calls = header.flatMap calls ++ body.flatMap calls := by
  rw [calls_of_branches rfl]
  simp [branches, Role.clause?]

@[simp] theorem calls_assign (line : Line) (targets : List Node) (value : Node) :
    (assign line targets value).calls = targets.flatMap calls ++ value.calls := by
  rw [calls_of_branches rfl]
  simp [branches, branchCalls, Role.clause?]

/-- The call itself is listed before the calls in what is called, and these before the calls in the
arguments. -/
@[simp] theorem calls_call (line : Line) (func : Node) (args : List Node) :
    (call line func args).calls =
      ([], call line func args) :: (func.calls ++ args.flatMap calls) := by
  have own : (call line func args).isCall = true := rfl
  rw [calls_eq, if_pos own]
  simp [branches, branchCalls, Role.clause?]

@[simp] theorem calls_access (line : Line) (value : Node) (attr : String) :
    (access line value attr).calls = value.calls := by
  rw [calls_of_branches rfl]
  simp [branches, branchCalls, Role.clause?]

@[simp] theorem calls_name (line : Line) (id : String) : (name line id).calls = [] :=
  calls_of_branches rfl

@[simp] theorem calls_literal (line : Line) (kind : LiteralKind) (text : String) :
    (literal line kind text).calls = [] :=
  calls_of_branches rfl

@[simp] theorem calls_tuple (line : Line) (elts : List Node) :
    (tuple line elts).calls = elts.flatMap calls := by
  rw [calls_of_branches rfl]
  simp [branches, Role.clause?]

@[simp] theorem calls_other (line : Line) (kind : String) (children : List Node) :
    (other line kind children).calls = children.flatMap calls := by
  rw [calls_of_branches rfl]
  simp [branches, Role.clause?]

end Node

/-- The calls in a handler, the clause that it is not counted. -/
def Handler.calls : Handler → List (List Clause × Node)
  | .mk _ typeExpr _ body => typeExpr.toList.flatMap Node.calls ++ body.flatMap Node.calls

/-- All branches of a handler stand in the same clause, its type as well as its statements. -/
theorem Handler.flatMap_branchCalls (handler : Handler) :
    handler.branches.flatMap Node.branchCalls = inClause (some .handler) handler.calls := by
  obtain ⟨line, typeExpr, name, body⟩ := handler
  simp [branches, calls, Role.clause?, inClause]

/-- The calls in a protected block come clause by clause, each seen from outside of its clause.
Which handler a call stands in is not said. -/
theorem Node.calls_tryBlock (line : Line) (body : List Node) (handlers : List Handler)
    (orelse finalbody : List Node) :
    (tryBlock line body handlers orelse finalbody).calls =
      inClause (some .body) (body.flatMap calls) ++
        (inClause (some .handler) (handlers.flatMap Handler.calls) ++
          (inClause (some .orelse) (orelse.flatMap calls) ++
            inClause (some .finalbody) (finalbody.flatMap calls))) := by
  have inHandlers : (handlers.flatMap Handler.branches).flatMap branchCalls =
      inClause (some .handler) (handlers.flatMap Handler.calls) := by
    rw [List.flatMap_assoc, ← inClause_flatMap]
    exact List.flatMap_congr fun handler _ => handler.flatMap_branchCalls
  rw [calls_of_branches rfl]
  simp only [branches, List.flatMap_append, flatMap_branchCalls, inHandlers, Role.clause?,
    List.append_assoc]

/-! ## The parts that lowering reads -/

/-- Items that give nothing may be filtered out first. -/
theorem flatMap_filter_of_nil {α β : Type} {f : α → List β} {p : α → Bool} (xs : List α)
    (h : ∀ x, p x = false → f x = []) : (xs.filter p).flatMap f = xs.flatMap f := by
  induction xs with
  | nil => rfl
  | cons x xs ih =>
    rw [List.filter_cons, List.flatMap_cons]
    split
    next => rw [List.flatMap_cons, ih]
    next hp => rw [ih, h x (Bool.not_eq_true _ ▸ hp), List.nil_append]

namespace Concrete

variable {source : Source} {node : Concrete}

/-- What is a piece of a construct is a part of it. -/
theorem Regular.filter_named (regular : Regular source node) {p : Concrete → Bool}
    (h : ∀ child : Concrete, p child → child.kind ∈ pieceKinds) :
    node.named.filter p = node.parts.filter p := by
  unfold named parts
  rw [List.filter_filter, List.filter_filter]
  refine List.filter_congr fun child mem => ?_
  cases hp : p child with
  | false => rfl
  | true =>
    cases hnamed : child.tag.named with
    | false => simp [isPart, hnamed]
    | true =>
      have here : child ∈ node.named := List.mem_filter.mpr ⟨mem, hnamed⟩
      have inner : child.tag.extra = false := by
        by_contra extra
        exact regular.extra child here (Bool.not_eq_false _ ▸ extra) (h child hp)
      simp [isPart, hnamed, inner]

/-- A chain of operators has the calls of its operands. -/
theorem Grammatical.operands {kind : String} (hkind : kind ∈ operatorKinds)
    (grammatical : node.Grammatical source) :
    (node.operands kind).flatMap calls = node.calls ∧
      ∀ operand ∈ node.operands kind, operand.Grammatical source := by
  induction node using part_induction with
  | step node ih =>
    rcases node.operands_cases kind with ⟨left, right, same, hleft, hright, eq⟩ | eq
    · have hnode : node.kind ∈ operatorKinds := same ▸ hkind
      have parts := grammatical.here.operator hnode hleft hright
      have leftPart : left ∈ node.parts := by simp [parts]
      have rightPart : right ∈ node.parts := by simp [parts]
      obtain ⟨leftCalls, inLeft⟩ := ih left leftPart (grammatical.part leftPart)
      constructor
      · rw [eq, calls_of_mem hnode (by decide), parts]
        simp [leftCalls]
      · intro operand mem
        rw [eq, List.mem_append, List.mem_singleton] at mem
        rcases mem with mem | rfl
        · exact inLeft operand mem
        · exact grammatical.part rightPart
    · simp [eq, grammatical]

/-- A chain of assignments has the calls of its targets and of its value. -/
theorem Grammatical.assignments {last : Concrete} (kind : node.kind = "assignment")
    (untyped : node.field? "type" = none) (hlast : node.assignments.2 = some last)
    (grammatical : node.Grammatical source) :
    node.assignments.1.flatMap calls ++ last.calls = node.calls ∧
      ∀ expr ∈ node.assignments.1 ++ [last], expr.Grammatical source := by
  induction node using part_induction with
  | step node ih =>
    obtain ⟨left, right, hleft, hright, chain⟩ := assignments_cases hlast
    have parts := grammatical.here.assignment kind untyped hleft hright
    have leftPart : left ∈ node.parts := by simp [parts]
    have rightPart : right ∈ node.parts := by simp [parts]
    have here : node.calls = left.calls ++ right.calls := by
      rw [calls_of_kind kind (by decide), parts]
      simp
    rcases chain with ⟨rightKind, rightUntyped, rightLast, eq⟩ | ⟨rfl, eq⟩
    · obtain ⟨rightCalls, inRight⟩ :=
        ih right rightPart rightKind rightUntyped rightLast (grammatical.part rightPart)
      constructor
      · rw [eq, here, ← rightCalls, List.flatMap_cons, List.append_assoc]
      · intro expr mem
        rw [eq, List.cons_append, List.mem_cons] at mem
        rcases mem with rfl | mem
        · exact grammatical.part leftPart
        · exact inRight expr mem
    · constructor
      · simp [eq, here]
      · intro expr mem
        rw [eq, List.singleton_append, ← parts] at mem
        exact grammatical.part mem

/-- To go through the named children is to go through the parts, as long as only pieces of the
construct give anything: no piece is extra. -/
theorem Regular.flatMap_named {β : Type} (regular : Regular source node) {f : Concrete → List β}
    (h : ∀ child : Concrete, child.kind ∉ pieceKinds → f child = []) :
    node.named.flatMap f = node.parts.flatMap f := by
  have rest : ∀ child : Concrete, pieceKinds.contains child.kind = false → f child = [] := by
    intro child other
    exact h child fun piece => by simp [piece] at other
  rw [← flatMap_filter_of_nil node.named rest, ← flatMap_filter_of_nil node.parts rest,
    regular.filter_named fun child piece => List.contains_iff_mem.mp piece]

/-- A string has the calls of its interpolations. -/
theorem Grammatical.interpolations (kind : node.kind ∈ stringKinds)
    (grammatical : node.Grammatical source) :
    node.interpolations.flatMap calls = node.calls ∧
      ∀ inner ∈ node.interpolations, inner.kind = "interpolation" ∧ inner.Grammatical source := by
  induction node using part_induction with
  | step node ih =>
    have eq : node.interpolations = node.parts.flatMap added := by
      rw [interpolations_eq]
      refine grammatical.here.flatMap_named fun child other => ?_
      simp only [pieceKinds, List.mem_cons, not_or] at other
      simp [added, other]
    -- What one part adds has the calls of that part: others than these two kinds have none.
    have each : ∀ part ∈ node.parts, (added part).flatMap calls = part.calls ∧
        ∀ inner ∈ added part, inner.kind = "interpolation" ∧ inner.Grammatical source := by
      intro part mem
      unfold added
      split
      next interpolation =>
        have inside : part.Grammatical source := grammatical.part mem
        simp [interpolation, inside]
      next other =>
        split
        next isString => exact ih part mem (by simp [stringKinds, isString]) (grammatical.part mem)
        next plain =>
          have callless := (grammatical.here.string kind).2 part mem other plain
          simp [callless.calls_eq_nil]
    constructor
    · rw [eq, calls_of_mem kind (by decide), List.flatMap_assoc]
      exact List.flatMap_congr fun part mem => (each part mem).1
    · intro inner mem
      rw [eq] at mem
      obtain ⟨part, hpart, mem⟩ := List.mem_flatMap.mp mem
      exact (each part hpart).2 inner mem

/-! ### Protected blocks -/

/-- Parts of one sort are kept by the filter of that sort and dropped by every other, for no node is
of two sorts. -/
theorem filter_isClause {parts : List Concrete} {clause other : Clause}
    (h : ∀ part ∈ parts, part.isClause clause) :
    parts.filter (isClause other) = if clause = other then parts else [] := by
  split
  next same => exact List.filter_eq_self.mpr (same ▸ h)
  next ne =>
    refine List.filter_eq_nil_iff.mpr fun part mem => ?_
    simp [isClause_of_ne (h part mem) ne]

/-- Parts of one sort have their calls in the clause of that sort. -/
theorem flatMap_inClause {parts : List Concrete} {clause : Clause}
    (kind : node.kind = "try_statement") (h : ∀ part ∈ parts, part.isClause clause) :
    parts.flatMap (fun part => inClause (node.clauseIn? part) part.calls) =
      inClause (some clause) (parts.flatMap calls) := by
  rw [← inClause_flatMap]
  refine List.flatMap_congr fun part mem => ?_
  rw [clauseIn?_eq_some kind (h part mem)]

section

variable {body : Concrete} {handlers : List Concrete} {orelse finalbody : Option Concrete}

/-- Every part of a protected block is of the sort under which the grammar lists it. -/
theorem TryParts.sorts (h : node.TryParts body handlers orelse finalbody) :
    (∀ part ∈ [body], part.isClause .body) ∧ (∀ part ∈ handlers, part.isClause .handler) ∧
      (∀ part ∈ orelse.toList, part.isClause .orelse) ∧
      ∀ part ∈ finalbody.toList, part.isClause .finalbody := by
  refine ⟨fun part mem => ?_, fun part mem => (h.isHandler part mem).1, fun part mem => ?_,
    fun part mem => ?_⟩
  · rw [List.mem_singleton.mp mem]
    exact h.isBody.2
  · exact (h.isElse part (Option.mem_toList.mp mem)).1
  · exact (h.isFinally part (Option.mem_toList.mp mem)).1

/-- Sorting the named children of a protected block by clause gives back its parts. -/
theorem TryParts.filter_named (h : node.TryParts body handlers orelse finalbody)
    (regular : Regular source node) (clause : Clause) :
    node.named.filter (isClause clause) =
      (if Clause.body = clause then [body] else []) ++
        (if Clause.handler = clause then handlers else []) ++
        (if Clause.orelse = clause then orelse.toList else []) ++
        (if Clause.finalbody = clause then finalbody.toList else []) := by
  obtain ⟨isBody, isHandler, isElse, isFinally⟩ := h.sorts
  rw [regular.filter_named fun _ isClause => mem_pieceKinds_of_isClause isClause, h.parts,
    List.filter_append, List.filter_append, List.filter_append, filter_isClause isBody,
    filter_isClause isHandler, filter_isClause isElse, filter_isClause isFinally]

/-- The calls in a protected block are those in its clauses, each in its clause. -/
theorem TryParts.calls_eq (h : node.TryParts body handlers orelse finalbody)
    (kind : node.kind = "try_statement") :
    node.calls = inClause (some .body) body.calls ++
      (inClause (some .handler) (handlers.flatMap calls) ++
        (inClause (some .orelse) (orelse.toList.flatMap calls) ++
          inClause (some .finalbody) (finalbody.toList.flatMap calls))) := by
  obtain ⟨isBody, isHandler, isElse, isFinally⟩ := h.sorts
  have notCall : node.isCall ≠ true := by simp [isCall, kind]
  rw [Concrete.calls_eq, if_neg notCall, List.nil_append, h.parts, List.flatMap_append,
    List.flatMap_append, List.flatMap_append, flatMap_inClause kind isBody,
    flatMap_inClause kind isHandler, flatMap_inClause kind isElse, flatMap_inClause kind isFinally,
    List.flatMap_singleton, List.append_assoc, List.append_assoc]

end

end Concrete

end SourceAudit
