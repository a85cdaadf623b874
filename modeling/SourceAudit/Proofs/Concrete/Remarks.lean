import SourceAudit.Proofs.Concrete.Acceptance
import SourceAudit.Session

/-!
# Remarks do not matter

A comment or the mark of a continued line may stand anywhere, and the grammar puts it into the
concrete tree where it stands: between the parts of a construct, inside parentheses, between a
string and the next. Such a node is a **remark**. It is extra, of a kind that nothing asks for, and
known as no field.

Each rule of lowering looks at the children of a node in its own way. What all these ways have in
common is that they ask for children by their tags, and that no remark is ever asked for
(`ThinsTo.filter`, `ThinsTo.foldlM`). So a rule that lowers its parts without regard to remarks does
without regard to them itself (`Respects.lowerKind`), and taking out any set of remarks from a tree
changes nothing about what a source becomes, or about why and where it is refused.
-/

namespace SourceAudit

/-! ## Trees with some nodes taken out -/

/-- A list and what is left of it when some of its nodes with `p` are taken out and each of the
others is changed as `r` says. -/
inductive ThinsTo (p : Concrete → Prop) (r : Concrete → Concrete → Prop) :
    List Concrete → List Concrete → Prop
  | nil : ThinsTo p r [] []
  | drop {node : Concrete} {nodes rest : List Concrete} (h : p node)
      (later : ThinsTo p r nodes rest) : ThinsTo p r (node :: nodes) rest
  | keep {node left : Concrete} {nodes rest : List Concrete} (h : r node left)
      (later : ThinsTo p r nodes rest) : ThinsTo p r (node :: nodes) (left :: rest)

/-- A tree and what is left of it when some nodes with `p` inside it are taken out, each with all
that is inside it. The other nodes keep their tags. -/
inductive Concrete.TrimsTo (p : Concrete → Prop) : Concrete → Concrete → Prop
  | mk {tag : Tag} {children rest : List Concrete} (h : ThinsTo p (TrimsTo p) children rest) :
      TrimsTo p (.mk tag children) (.mk tag rest)

section

variable {p q : Concrete → Prop} {r s : Concrete → Concrete → Prop}
variable {nodes rest : List Concrete} {node left : Concrete}

/-- More may be taken out and changed than was; what the relations say of nodes that are not in the
list does not count. -/
theorem ThinsTo.imp (h : ThinsTo p r nodes rest) (dropped : ∀ node ∈ nodes, p node → q node)
    (kept : ∀ node ∈ nodes, ∀ left, r node left → s node left) : ThinsTo q s nodes rest := by
  induction h with
  | nil => exact .nil
  | drop h _ ih =>
    refine .drop (dropped _ List.mem_cons_self h) (ih ?_ ?_)
    · exact fun node mem => dropped node (List.mem_cons_of_mem _ mem)
    · exact fun node mem => kept node (List.mem_cons_of_mem _ mem)
  | keep h _ ih =>
    refine .keep (kept _ List.mem_cons_self _ h) (ih ?_ ?_)
    · exact fun node mem => dropped node (List.mem_cons_of_mem _ mem)
    · exact fun node mem => kept node (List.mem_cons_of_mem _ mem)

/-- Whoever may take out the nodes with `q` may leave the same tree as one who takes out nodes with
`p`, if all nodes with `p` in it have `q`. -/
theorem Concrete.TrimsTo.imp (h : node.TrimsTo p left)
    (weaker : ∀ inner ∈ node.preorder, p inner → q inner) : node.TrimsTo q left := by
  induction node using child_induction generalizing left with
  | step node ih =>
    cases h with
    | mk h =>
      have inside {child inner : Concrete} (mem : child ∈ _) (hinner : inner ∈ child.preorder) :=
        weaker inner (mem_preorder.mpr (.inr ⟨child, mem, hinner⟩))
      refine .mk (h.imp (fun child mem => inside mem child.mem_preorder_self) ?_)
      exact fun child mem left h => ih child mem h fun inner hinner => inside mem hinner

/-- No node is added, so nothing bad is. -/
theorem Concrete.TrimsTo.hasBad (h : node.TrimsTo p left) (clean : node.hasBad = false) :
    left.hasBad = false := by
  induction node using child_induction generalizing left with
  | step node ih =>
    cases h with
    | @mk tag children rest h =>
      rw [Concrete.hasBad, Bool.or_eq_false_iff] at clean ⊢
      refine ⟨clean.1, ?_⟩
      replace clean := clean.2
      induction h with
      | nil => rfl
      | drop _ _ further =>
        rw [anyBad, Bool.or_eq_false_iff] at clean
        exact further (fun child mem => ih child (List.mem_cons_of_mem _ mem)) clean.2
      | keep h _ further =>
        rw [anyBad, Bool.or_eq_false_iff] at clean ⊢
        refine ⟨ih _ List.mem_cons_self h clean.1, ?_⟩
        exact further (fun child mem => ih child (List.mem_cons_of_mem _ mem)) clean.2

/-- Children that are asked for by their tags are found again, if what is taken out is not asked
for. -/
theorem ThinsTo.filter (ask : Tag → Bool) (h : ThinsTo p r nodes rest)
    (dropped : ∀ node, p node → ask node.tag = false)
    (kept : ∀ node left, r node left → left.tag = node.tag) :
    List.Forall₂ r (nodes.filter (ask ·.tag)) (rest.filter (ask ·.tag)) := by
  induction h with
  | nil => exact .nil
  | drop h _ ih =>
    rw [List.filter_cons_of_neg (by rw [dropped _ h]; decide)]
    exact ih
  | keep h _ ih =>
    rw [List.filter_cons, List.filter_cons, kept _ _ h]
    split
    next => exact .cons h ih
    next => exact ih

/-- A loop over children that passes over what is taken out goes as before. -/
theorem ThinsTo.foldlM {α : Type} {step : α → Concrete → Except ParseError α} {start : α}
    (h : ThinsTo p r nodes rest) (dropped : ∀ value node, p node → step value node = .ok value)
    (kept : ∀ value node left, r node left → step value left = step value node) :
    rest.foldlM step start = nodes.foldlM step start := by
  induction h generalizing start with
  | nil => rfl
  | drop h _ ih =>
    rw [List.foldlM_cons, dropped _ _ h]
    exact ih
  | keep h _ ih =>
    rw [List.foldlM_cons, List.foldlM_cons, kept _ _ _ h]
    exact congrArg _ (funext fun _ => ih)

end

/-! ## Remarks -/

namespace Concrete

/-- The kinds of remarks. -/
def remarkKinds : List String := ["comment", "line_continuation"]

/-- A node that may stand anywhere, of a kind that nothing asks for and known as no field. -/
structure IsRemark (node : Concrete) : Prop where
  extra : node.tag.extra = true
  kind : node.kind ∈ remarkKinds
  fields : node.tag.fields = []

section

variable {node left : Concrete}

/-- A node keeps its tag, whatever is taken out inside it. All that is asked of a node by itself is
asked of the tag. -/
theorem TrimsTo.tag_eq {p : Concrete → Prop} (h : node.TrimsTo p left) : left.tag = node.tag := by
  cases h
  rfl

/-- What is left of a node has the children that are left of its children. -/
theorem TrimsTo.children {p : Concrete → Prop} (h : node.TrimsTo p left) :
    ThinsTo p (TrimsTo p) node.children left.children := by
  cases h with
  | mk h => exact h

theorem TrimsTo.kind_eq {p : Concrete → Prop} (h : node.TrimsTo p left) : left.kind = node.kind :=
  congrArg Tag.kind h.tag_eq

/-- A remark is extra, so it is not among the parts of any node. -/
theorem IsRemark.isPart (h : node.IsRemark) : node.isPart = false := by
  simp [Concrete.isPart, h.extra]

/-- A remark is known as no field, so no rule that asks for a field finds it. -/
theorem IsRemark.hasField (h : node.IsRemark) (field : String) : node.hasField field = false := by
  simp [Concrete.hasField, h.fields]

/-- A remark is of none of the kinds that lowering asks for. -/
theorem IsRemark.kind_ne (h : node.IsRemark) (kind : String) (other : kind ∉ remarkKinds) :
    node.tag.kind ≠ kind := fun same => other (same ▸ h.kind)

/-- What is found before and after remarks are taken out: nothing, or a node and what is left of
it. -/
def Found (before after : Option Concrete) : Prop :=
  before = none ∧ after = none ∨
    ∃ node left, before = some node ∧ after = some left ∧ node.TrimsTo IsRemark left

/-- The children that are picked by their tags are the same before and after, each trimmed, if no
remark is among those picked. -/
theorem TrimsTo.filter (h : node.TrimsTo IsRemark left) (ask : Tag → Bool)
    (dropped : ∀ child : Concrete, child.IsRemark → ask child.tag = false) :
    List.Forall₂ (TrimsTo IsRemark) (node.children.filter (ask ·.tag))
      (left.children.filter (ask ·.tag)) :=
  h.children.filter ask dropped fun _ _ h => h.tag_eq

theorem TrimsTo.parts (h : node.TrimsTo IsRemark left) :
    List.Forall₂ (TrimsTo IsRemark) node.parts left.parts :=
  h.filter (fun tag => tag.named && !tag.extra) fun _ remark => remark.isPart

/-- The first child that is picked by its tag is the same before and after, if no remark is
picked. -/
theorem TrimsTo.find? (h : node.TrimsTo IsRemark left) (ask : Tag → Bool)
    (dropped : ∀ child : Concrete, child.IsRemark → ask child.tag = false) :
    Found (node.children.find? (ask ·.tag)) (left.children.find? (ask ·.tag)) := by
  have found := h.filter ask dropped
  rw [← List.head?_filter, ← List.head?_filter]
  generalize node.children.filter (ask ·.tag) = before, left.children.filter (ask ·.tag) = after
    at found
  cases found with
  | nil => exact .inl ⟨rfl, rfl⟩
  | cons first _ => exact .inr ⟨_, _, rfl, rfl, first⟩

theorem TrimsTo.field? (h : node.TrimsTo IsRemark left) (field : String) :
    Found (node.field? field) (left.field? field) :=
  h.find? (·.fields.contains field) fun _ remark => remark.hasField field

/-- Whether some child has a tag of a certain sort stays as it is, if no remark has one. -/
theorem TrimsTo.any (h : node.TrimsTo IsRemark left) (ask : Tag → Bool)
    (dropped : ∀ child : Concrete, child.IsRemark → ask child.tag = false) :
    left.children.any (ask ·.tag) = node.children.any (ask ·.tag) := by
  rw [← List.isSome_find?, ← List.isSome_find?]
  rcases h.find? ask dropped with ⟨before, after⟩ | ⟨_, _, before, after, -⟩
  · rw [before, after]
  · rw [before, after]
    rfl

/-! ## Chains and interpolations -/

/-- A chain is flattened to the same operands, each trimmed: its links are found by their fields,
and no remark has one. -/
theorem TrimsTo.operands (h : node.TrimsTo IsRemark left) (kind : String) :
    List.Forall₂ (TrimsTo IsRemark) (node.operands kind) (left.operands kind) := by
  induction node using child_induction generalizing left with
  | step node ih =>
    rw [operands_eq, operands_eq kind left, h.kind_eq]
    rcases h.field? "left" with ⟨hleft, hleft'⟩ | ⟨inner, innerLeft, hleft, hleft', below⟩
    · rw [hleft, hleft']
      exact .cons h .nil
    · rcases h.field? "right" with ⟨hright, hright'⟩ | ⟨right, rightLeft, hright, hright', beside⟩
      · rw [hleft, hleft', hright, hright']
        exact .cons h .nil
      · rw [hleft, hleft', hright, hright']
        dsimp only
        split
        next =>
          have link := ih inner (List.mem_of_find?_eq_some hleft) below
          exact List.rel_append link (.cons beside .nil)
        next => exact .cons h .nil

/-- A chain of assignments has the same targets and the same value, each trimmed. -/
theorem TrimsTo.assignments (h : node.TrimsTo IsRemark left) :
    List.Forall₂ (TrimsTo IsRemark) node.assignments.1 left.assignments.1 ∧
      Found node.assignments.2 left.assignments.2 := by
  induction node using child_induction generalizing left with
  | step node ih =>
    rw [assignments_eq, assignments_eq left]
    rcases h.field? "left" with ⟨hleft, hleft'⟩ | ⟨target, targetLeft, hleft, hleft', below⟩
    · rw [hleft, hleft']
      exact ⟨.nil, .inl ⟨rfl, rfl⟩⟩
    · rcases h.field? "right" with ⟨hright, hright'⟩ | ⟨right, rightLeft, hright, hright', beside⟩
      · rw [hleft, hleft', hright, hright']
        exact ⟨.nil, .inl ⟨rfl, rfl⟩⟩
      · have untyped : (rightLeft.field? "type").isNone = (right.field? "type").isNone := by
          rcases beside.field? "type" with ⟨type, type'⟩ | ⟨_, _, type, type', -⟩
          · rw [type, type']
          · rw [type, type']
            rfl
        rw [hleft, hleft', hright, hright']
        dsimp only
        rw [beside.kind_eq, untyped]
        split
        next =>
          obtain ⟨targets, value⟩ := ih right (List.mem_of_find?_eq_some hright) beside
          exact ⟨.cons below targets, value⟩
        next => exact ⟨.cons below .nil, .inr ⟨_, _, rfl, rfl, beside⟩⟩

/-- Whether a child with this tag may add to the interpolations of a string. -/
def addsInterpolations (tag : Tag) : Bool :=
  (tag.kind = "interpolation" || tag.kind = "string") && tag.named

/-- Which children of a string add interpolations is seen from their tags, so the others may be
filtered out first. -/
theorem interpolations_eq_filter (node : Concrete) :
    node.interpolations =
      (node.children.filter (addsInterpolations ·.tag)).flatMap added := by
  have others (child : Concrete)
      (h : (child.kind = "interpolation" || child.kind = "string") = false) :
      added child = [] := by
    simp only [Bool.or_eq_false_iff, decide_eq_false_iff_not] at h
    simp [added, h]
  rw [interpolations_eq, ← flatMap_filter_of_nil _ others, named, List.filter_filter]
  rfl

/-- A string has the same interpolations, each trimmed, since no remark is an interpolation or a
string. -/
theorem TrimsTo.interpolations (h : node.TrimsTo IsRemark left) :
    List.Forall₂ (TrimsTo IsRemark) node.interpolations left.interpolations := by
  induction node using child_induction generalizing left with
  | step node ih =>
    have asked := h.filter addsInterpolations fun child remark => by
      have interpolation := remark.kind_ne "interpolation" (by decide)
      have string := remark.kind_ne "string" (by decide)
      simp [addsInterpolations, interpolation, string]
    rw [interpolations_eq_filter, interpolations_eq_filter left]
    have inside := (List.forall₂_and_left _ _).mpr
      ⟨fun child (mem : child ∈ node.children.filter _) => List.mem_of_mem_filter mem, asked⟩
    refine List.rel_flatMap inside fun child childLeft ⟨mem, h⟩ => ?_
    unfold added
    rw [h.kind_eq]
    split
    next => exact .cons h .nil
    next =>
      split
      next => exact ih child mem h
      next => exact .nil

end

end Concrete

/-! ## Texts -/

section

variable {source : Source} {node left : Concrete}

theorem Concrete.TrimsTo.line_eq {p : Concrete → Prop} (h : node.TrimsTo p left) :
    left.line = node.line := by
  rw [Concrete.line, h.tag_eq, Concrete.line]

theorem Concrete.TrimsTo.textOf_eq {p : Concrete → Prop} (h : node.TrimsTo p left) :
    source.textOf left = source.textOf node := by
  rw [Source.textOf, h.tag_eq, Source.textOf]

/-- The text of a field is that of a node that is still there, at the bytes where it was. -/
theorem Concrete.TrimsTo.fieldText_eq (h : node.TrimsTo IsRemark left) (field : String) :
    (left.field? field).map source.textOf = (node.field? field).map source.textOf := by
  rcases h.field? field with ⟨before, after⟩ | ⟨_, _, before, after, below⟩
  · rw [before, after]
  · rw [before, after, Option.map_some, Option.map_some, below.textOf_eq]

/-- An error says where a node starts, and that is kept. -/
theorem Concrete.TrimsTo.errorAt_eq {p : Concrete → Prop} (h : node.TrimsTo p left)
    (fault : Fault) : source.errorAt left fault = source.errorAt node fault := by
  rw [Source.errorAt, h.tag_eq, Source.errorAt]

/-- Whether a string is formatted is seen from its own text or, where several are joined, from the
texts of the strings among its children. -/
theorem Concrete.TrimsTo.isFormatted_eq (h : node.TrimsTo IsRemark left) :
    source.isFormatted left = source.isFormatted node := by
  have same : left.named.any (fun part =>
        part.kind = "string" && hasFormatMark (source.textOf part)) =
      node.named.any fun part => part.kind = "string" && hasFormatMark (source.textOf part) := by
    rw [Concrete.named, Concrete.named, List.any_filter, List.any_filter]
    refine h.any (fun tag => tag.named &&
      (tag.kind = "string" && hasFormatMark (source.slice tag.start tag.stop))) fun _ remark => ?_
    simp [remark.kind_ne "string" (by decide)]
  rw [Source.isFormatted, Source.isFormatted, h.kind_eq, same, h.textOf_eq]

end

/-! ## Rules without regard to remarks -/

/-- A step takes what is left of a node for the node. -/
def Respects {α : Type} (step : Concrete → Except ParseError α) : Prop :=
  ∀ {node left : Concrete}, node.TrimsTo Concrete.IsRemark left → step left = step node

section

variable {source : Source} {lower : Lowering} {node left : Concrete}

/-- A step that does not see remarks gives the same results, and the same first error, on lists that
are trimmed item by item. -/
theorem Respects.mapM {α : Type} {step : Concrete → Except ParseError α} (respects : Respects step)
    {nodes rest : List Concrete}
    (h : List.Forall₂ (Concrete.TrimsTo Concrete.IsRemark) nodes rest) :
    rest.mapM step = nodes.mapM step := by
  induction h with
  | nil => rfl
  | cons first _ ih => rw [List.mapM_cons, List.mapM_cons, respects first, ih]

/-- The parts of a node are lowered alike, since remarks are no parts. -/
theorem Respects.parts (respects : Respects lower) : Respects (lowerParts lower) :=
  fun h => respects.mapM h.parts

/-- A construct without a rule is made of its parts, kind and line, which all stay. -/
theorem Respects.other (respects : Respects lower) : Respects (lowerOther lower) := by
  intro node left h
  rw [lowerOther, lowerOther, respects.parts h, h.line_eq, h.kind_eq]

/-- A literal is made of its text and line and does not look inside at all. -/
theorem lowerLiteral_eq (h : node.TrimsTo Concrete.IsRemark left) (kind : LiteralKind) :
    lowerLiteral source left kind = lowerLiteral source node kind := by
  rw [lowerLiteral, lowerLiteral, h.line_eq, h.textOf_eq]

/-- A chain has both sides and the same operands before and after. -/
theorem Respects.operators (respects : Respects lower) : Respects (lowerOperators lower) := by
  intro node left h
  have operands := respects.mapM (h.operands node.kind)
  rw [lowerOperators, lowerOperators, respects.other h, h.line_eq, h.kind_eq, operands]
  rcases h.field? "left" with ⟨before, after⟩ | ⟨_, _, before, after, -⟩
  · rw [before, after]
  · rw [before, after]
    rcases h.field? "right" with ⟨before, after⟩ | ⟨_, _, before, after, -⟩
    · rw [before, after]
    · rw [before, after]

/-- Whether a print statement starts with a chevron, and what else is in it, is a matter of its
parts. -/
theorem Respects.print (respects : Respects lower) : Respects (lowerPrint source lower) := by
  intro node left h
  have parts := h.parts
  rw [lowerPrint, lowerPrint, h.errorAt_eq, h.line_eq]
  generalize node.parts = before, left.parts = after at parts
  cases parts with
  | nil => rfl
  | cons first rest =>
    dsimp only
    rw [first.kind_eq, respects.parts first, respects.mapM rest]

/-- A field is found where it was, and its parts are lowered alike. -/
theorem Respects.field (respects : Respects lower) (field : String) :
    Respects (lowerField lower field) := by
  intro node left h
  unfold lowerField
  rcases h.field? field with ⟨before, after⟩ | ⟨inner, innerLeft, before, after, below⟩
  · rw [before, after]
  · rw [before, after]
    exact respects.parts below

/-- The block of a clause is found by its kind, which no remark has. -/
theorem Respects.clauseBody (respects : Respects lower) : Respects (lowerClauseBody lower) := by
  intro node left h
  have block : Concrete.Found (node.named.find? (·.kind = "block"))
      (left.named.find? (·.kind = "block")) := by
    rw [Concrete.named, Concrete.named, List.find?_filter, List.find?_filter]
    refine h.find? (fun tag => tag.named = true ∧ decide (tag.kind = "block") = true) ?_
    intro child remark
    simp [remark.kind_ne "block" (by decide)]
  unfold lowerClauseBody
  rcases block with ⟨before, after⟩ | ⟨inner, innerLeft, before, after, below⟩
  · rw [before, after]
  · rw [before, after]
    exact respects.parts below

/-! ### Handlers -/

/-- The expressions of a handler are found by their tags: they are parts, and no blocks. -/
theorem Concrete.TrimsTo.exprs (h : node.TrimsTo IsRemark left) :
    List.Forall₂ (TrimsTo IsRemark) node.exprs left.exprs := by
  unfold Concrete.exprs Concrete.parts
  rw [List.filter_filter, List.filter_filter]
  exact h.filter (fun tag => !decide (tag.kind = "block") && (tag.named && !tag.extra))
    fun child remark => by simp [remark.extra]

/-- The type of a handler is its first expression or the first part of that, trimmed. -/
theorem Respects.handlerType (respects : Respects lower) {exprs rest : List Concrete}
    (h : List.Forall₂ (Concrete.TrimsTo Concrete.IsRemark) exprs rest) :
    lowerHandlerType lower rest = lowerHandlerType lower exprs := by
  cases h with
  | nil => rfl
  | @cons expr exprLeft _ _ first _ =>
    have parts := first.parts
    unfold lowerHandlerType
    dsimp only
    rw [first.kind_eq, respects first]
    generalize expr.parts = before, exprLeft.parts = after at parts
    cases parts with
    | nil => rfl
    | cons type _ =>
      dsimp only
      rw [respects type]

/-- The name that a handler binds is read from the text at its expressions, which stays. -/
theorem handlerName_eq {exprs rest : List Concrete}
    (h : List.Forall₂ (Concrete.TrimsTo Concrete.IsRemark) exprs rest) :
    handlerName source rest = handlerName source exprs := by
  cases h with
  | nil => rfl
  | cons first later =>
    cases later with
    | nil =>
      unfold handlerName
      dsimp only
      rw [first.kind_eq, first.fieldText_eq]
    | cons second _ => exact congrArg some second.textOf_eq

/-- A handler is read in one loop over all its children, remarks among them. `lowerHandler_eq` takes
the expressions out of the loop, and what is left passes over remarks. -/
theorem Respects.handler (respects : Respects lower) : Respects (lowerHandler source lower) := by
  intro node left h
  have body : left.children.foldlM (lowerHandlerBlock source lower) [] =
      node.children.foldlM (lowerHandlerBlock source lower) [] := by
    refine h.children.foldlM (fun body child remark => ?_) fun body child childLeft h => ?_
    · have comma : child.kind ≠ "," := remark.kind_ne "," (by decide)
      rw [lowerHandlerBlock, if_neg comma, remark.isPart]
      rfl
    · have isPart : childLeft.isPart = child.isPart := by
        rw [Concrete.isPart, h.tag_eq, Concrete.isPart]
      rw [lowerHandlerBlock, lowerHandlerBlock, h.errorAt_eq, h.kind_eq, isPart, Concrete.isBlock,
        h.kind_eq, respects.parts h, Concrete.isBlock]
  rw [lowerHandler_eq, lowerHandler_eq, body, respects.handlerType h.exprs, handlerName_eq h.exprs,
    h.line_eq]

/-- What a clause adds to those before it does not depend on the remarks in it. -/
theorem Respects.clause (respects : Respects lower) (clauses : Clauses) :
    Respects (lowerClause source lower clauses) := by
  intro node left h
  unfold lowerClause
  rw [h.kind_eq, respects.handler h, respects.clauseBody h]

/-- The loop over the clauses goes over remarks as well, and passes over them because they are of no
kind of clause. -/
theorem Respects.tryBlock (respects : Respects lower) : Respects (lowerTry source lower) := by
  intro node left h
  have clauses : left.named.foldlM (lowerClause source lower) ⟨[], [], []⟩ =
      node.named.foldlM (lowerClause source lower) ⟨[], [], []⟩ := by
    rw [Concrete.named, Concrete.named, List.foldlM_filter, List.foldlM_filter]
    refine h.children.foldlM (fun clauses child remark => ?_) fun clauses child childLeft h => ?_
    · have passed : lowerClause source lower clauses child = .ok clauses := by
        have kinds (kind : String) (h : kind ∉ Concrete.remarkKinds) : child.kind ≠ kind :=
          remark.kind_ne kind h
        simp [lowerClause, kinds "except_clause" (by decide),
          kinds "except_group_clause" (by decide), kinds "else_clause" (by decide),
          kinds "finally_clause" (by decide)]
        rfl
      rw [passed]
      exact ite_self _
    · rw [h.tag_eq, respects.clause clauses h]
  rw [lowerTry, lowerTry, respects.field "body" h, clauses, h.line_eq]

/-! ### The other constructs -/

/-- A definition asks for its header, its name and its body by their fields. -/
theorem Respects.definition (respects : Respects lower) (kind : DefinitionKind) :
    Respects (lowerDefinition source lower · kind) := by
  intro node left h
  have header : List.Forall₂ (Concrete.TrimsTo Concrete.IsRemark)
      (headerFields.filterMap node.field?) (headerFields.filterMap left.field?) := by
    generalize headerFields = fields
    induction fields with
    | nil => exact .nil
    | cons field fields ih =>
      rw [List.filterMap_cons, List.filterMap_cons]
      rcases h.field? field with ⟨before, after⟩ | ⟨_, _, before, after, below⟩
      · rw [before, after]
        exact ih
      · rw [before, after]
        exact .cons below ih
  simp only [lowerDefinition]
  rw [respects.mapM header, respects.field "body" h, h.fieldText_eq, h.line_eq]

/-- How many expressions a statement has is counted in parts, so a remark beside the only one does
not make it a tuple. -/
theorem Respects.expressionStatement (respects : Respects lower) :
    Respects (lowerExpressionStatement lower) := by
  intro node left h
  rw [lowerExpressionStatement, lowerExpressionStatement, respects.parts h, respects.other h,
    h.line_eq]

/-- Whether an assignment is annotated, and how far its chain goes, is seen from fields. -/
theorem Respects.assignment (respects : Respects lower) : Respects (lowerAssignment lower) := by
  intro node left h
  obtain ⟨targets, value⟩ := h.assignments
  unfold lowerAssignment
  simp only [respects.parts h, respects.other h, h.line_eq, respects.mapM targets]
  rcases h.field? "type" with ⟨before, after⟩ | ⟨_, _, before, after, -⟩
  · rw [before, after]
    rcases value with ⟨before, after⟩ | ⟨_, _, before, after, last⟩
    · rw [before, after]
    · simp only [before, after, respects last]
  · rw [before, after]

/-- The arguments of a call are the parts of their list, or the one node that stands in its
place. -/
theorem Respects.arguments (respects : Respects lower) : Respects (lowerArguments lower) := by
  intro node left h
  unfold lowerArguments
  rcases h.field? "arguments" with ⟨before, after⟩ | ⟨_, _, before, after, below⟩
  · rw [before, after]
  · simp only [before, after, below.kind_eq, respects.parts below, respects below]

/-- A call asks for the function and the arguments by their fields. -/
theorem Respects.call (respects : Respects lower) : Respects (lowerCall lower) := by
  intro node left h
  unfold lowerCall
  rw [respects.arguments h, respects.other h, h.line_eq]
  rcases h.field? "function" with ⟨before, after⟩ | ⟨_, _, before, after, below⟩
  · rw [before, after]
  · simp only [before, after, respects below]

/-- An access asks for the object and for the text of the attribute by their fields. -/
theorem Respects.access (respects : Respects lower) : Respects (lowerAccess source lower) := by
  intro node left h
  unfold lowerAccess
  rw [respects.other h, h.line_eq]
  rcases h.field? "object" with ⟨before, after⟩ | ⟨_, _, before, after, object⟩
  · rw [before, after]
  · rw [before, after]
    rcases h.field? "attribute" with ⟨before, after⟩ | ⟨_, _, before, after, attr⟩
    · rw [before, after]
    · simp only [before, after, respects object, attr.textOf_eq]

/-- Parentheses give way to their first part, so a comment in front of it is passed over. -/
theorem Respects.parenthesized (respects : Respects lower) :
    Respects (lowerParenthesized lower) := by
  intro node left h
  have parts := h.parts
  unfold lowerParenthesized
  rw [respects.other h]
  generalize node.parts = before, left.parts = after at parts
  cases parts with
  | nil => rfl
  | cons first _ => exact respects first

/-- A string has the same text and the same interpolations, and is formatted if it was. -/
theorem Respects.string (respects : Respects lower) : Respects (lowerString source lower) := by
  intro node left h
  have inside := Respects.mapM (Respects.other respects) h.interpolations
  rw [lowerString, lowerString, h.isFormatted_eq, h.line_eq, h.kind_eq, inside, lowerLiteral_eq h]

/-- A rule that lowers the parts of a construct without regard to remarks lowers the construct
without regard to remarks. -/
theorem Respects.lowerKind (respects : Respects lower) : Respects (lowerKind source lower) := by
  intro node left h
  unfold SourceAudit.lowerKind
  have definition (kind : DefinitionKind) :
      lowerDefinition source lower left kind = lowerDefinition source lower node kind :=
    respects.definition kind h
  simp only [h.kind_eq, respects.tryBlock h, definition, respects.expressionStatement h,
    respects.assignment h, respects.call h, respects.access h, respects.string h, respects.parts h,
    respects.parenthesized h, respects.operators h, respects.print h, respects.other h,
    h.errorAt_eq, h.line_eq, h.textOf_eq, lowerLiteral_eq h]

end

/-- Lowering does not see remarks, at any number of levels. The induction is on the levels, with
`Respects.lowerKind` as its step. -/
theorem respects_lower (source : Source) (levels : Nat) : Respects (lower source levels) := by
  induction levels with
  | zero =>
    intro node left h
    exact congrArg Except.error (h.errorAt_eq .tooDeep)
  | succ levels ih =>
    intro node left h
    exact ih.lowerKind h

/-- Nothing that may stand anywhere bears on what becomes of a clean source: without any of it, the
source has the same tree or is refused for the same reason at the same place, and every registry
says of it what it said. -/
theorem Tree.ofConcrete_without_extras {source : Source} {root rest : Concrete}
    (clean : root.hasBad = false)
    (plain : ∀ node ∈ root.preorder, node.tag.extra = true →
      node.kind ∈ Concrete.remarkKinds ∧ node.tag.fields = [])
    (h : root.TrimsTo (·.tag.extra = true) rest) :
    Tree.ofConcrete source rest = Tree.ofConcrete source root ∧
      ∀ registry : Registry,
        (Session.start source.name source.text).analyse (Grammar.provider fun _ => rest) registry =
          (Session.start source.name source.text).analyse (Grammar.provider fun _ => root)
            registry := by
  have remarks : root.TrimsTo Concrete.IsRemark rest :=
    h.imp fun node mem extra => ⟨extra, (plain node mem extra).1, (plain node mem extra).2⟩
  have same : Tree.ofConcrete source rest = Tree.ofConcrete source root := by
    rw [Tree.ofConcrete, Tree.ofConcrete, Concrete.firstBad?_eq_none clean,
      Concrete.firstBad?_eq_none (h.hasBad clean)]
    dsimp only
    rw [Respects.parts (respects_lower source nestingLimit) remarks]
  refine ⟨same, fun registry => ?_⟩
  have provided : Grammar.provider (fun _ => rest) source.text source.name =
      Grammar.provider (fun _ => root) source.text source.name := same
  simp only [Session.analyse, Session.tree, Session.start, provided]

/-- A number in parentheses, behind a comment and on the line after it. -/
def remarkedSource : Source := ⟨"m.py", "(# one\n1)\n"⟩

namespace Concrete

/-- The parentheses of this source, with `remarks` behind the first. -/
def parenthesizedOne (remarks : List Concrete) : Concrete :=
  construct 0 0 "parenthesized_expression" [] 0 9
    (token 0 0 "(" 0 :: remarks ++ [construct 1 7 "integer" [] 7 8 [], token 1 7 ")" 8])

/-- The whole source, with `remarks` behind the first parenthesis. -/
def moduleOfOne (remarks : List Concrete) : Concrete :=
  construct 0 0 "module" [] 0 10
    [construct 0 0 "expression_statement" [] 0 9 [parenthesizedOne remarks]]

/-- The comment in this source. -/
def oneComment : Concrete := .mk ⟨"comment", [], true, true, false, false, 1, 6, 0, 1⟩ []

/-- Taking out the comment leaves the module of one statement. -/
theorem trimsTo_moduleOfOne : (moduleOfOne [oneComment]).TrimsTo (·.tag.extra = true)
    (moduleOfOne []) := by
  have leaf (tag : Tag) : TrimsTo (·.tag.extra = true) (.mk tag []) (.mk tag []) := .mk .nil
  refine .mk (.keep (.mk (.keep (.mk ?_) .nil)) .nil)
  exact .keep (leaf _) (.drop rfl (.keep (leaf _) (.keep (leaf _) .nil)))

end Concrete

/-- The comment comes before the number in the parentheses, and yet it is the number that is
lowered. -/
theorem Tree.ofConcrete_without_oneComment :
    Tree.ofConcrete remarkedSource (.moduleOfOne []) =
        Tree.ofConcrete remarkedSource (.moduleOfOne [.oneComment]) ∧
      Tree.ofConcrete remarkedSource (.moduleOfOne []) =
        .ok ⟨"m.py", [.literal (some 2) .int "1"]⟩ ∧
      ∀ registry : Registry,
        (Session.start "m.py" "(# one\n1)\n").analyse
            (Grammar.provider fun _ => .moduleOfOne []) registry =
          (Session.start "m.py" "(# one\n1)\n").analyse
            (Grammar.provider fun _ => .moduleOfOne [.oneComment]) registry := by
  have plain : ∀ tag ∈ (Concrete.moduleOfOne [.oneComment]).preorder.map Concrete.tag,
      tag.extra = true → tag.kind ∈ Concrete.remarkKinds ∧ tag.fields = [] := by decide
  have lowered : Tree.ofConcrete remarkedSource (.moduleOfOne []) =
      .ok ⟨"m.py", [.literal (some 2) .int "1"]⟩ := by
    rw [Tree.ofConcrete, Concrete.firstBad?_eq_none rfl]
    rfl
  obtain ⟨same, issues⟩ := @Tree.ofConcrete_without_extras remarkedSource _ _ rfl
    (fun node mem => plain node.tag (List.mem_map_of_mem mem)) Concrete.trimsTo_moduleOfOne
  exact ⟨same, lowered, issues⟩

end SourceAudit
