import SourceAudit.Proofs.Concrete.Lower

/-!
# Chains

The concrete tree of `a + b + c` nests to the left, and that of `a = b = c` to the right, one link
in another. Lowering keeps neither nesting. It goes down the links first and gathers what they link,
and only then lowers it, in source order and all on the next level. So a chain costs one level,
however long it is.

A chain is said by its links here (`Concrete.OperatorChain`, `Concrete.AssignmentChain`), and by
what they link. The main statement, `lower_chains`, is that nothing else counts: the chain can be
lowered exactly if all that it links can be, and fails as the first of it that cannot
(`DecidedBy`).
-/

namespace SourceAudit

/-! ## Links -/

namespace Concrete

/-- A chain of `links` operators of one kind, which nests to the left, and its operands in source
order. -/
inductive OperatorChain (kind : String) : Nat → Concrete → List Concrete → Prop
  | one {node left right : Concrete} (same : node.kind = kind)
      (hleft : node.field? "left" = some left) (hright : node.field? "right" = some right)
      (other : left.kind ≠ kind) : OperatorChain kind 1 node [left, right]
  | more {links : Nat} {node left right : Concrete} {operands : List Concrete}
      (same : node.kind = kind) (hleft : node.field? "left" = some left)
      (hright : node.field? "right" = some right)
      (inner : OperatorChain kind links left operands) :
      OperatorChain kind (links + 1) node (operands ++ [right])

/-- An assignment without an annotation. -/
def IsPlainAssignment (node : Concrete) : Prop :=
  node.kind = "assignment" ∧ node.field? "type" = none

/-- A chain of `links` assignments without annotations, which nests to the right, its targets in
source order and its value. -/
inductive AssignmentChain : Nat → Concrete → List Concrete → Concrete → Prop
  | one {node left right : Concrete} (plain : node.IsPlainAssignment)
      (hleft : node.field? "left" = some left) (hright : node.field? "right" = some right)
      (other : ¬right.IsPlainAssignment) : AssignmentChain 1 node [left] right
  | more {links : Nat} {node left right value : Concrete} {targets : List Concrete}
      (plain : node.IsPlainAssignment) (hleft : node.field? "left" = some left)
      (hright : node.field? "right" = some right)
      (inner : AssignmentChain links right targets value) :
      AssignmentChain (links + 1) node (left :: targets) value

section

variable {kind : String} {links : Nat} {node value : Concrete} {operands targets : List Concrete}

/-- A chain has one operand more than it has links. -/
theorem OperatorChain.length_eq (chain : OperatorChain kind links node operands) :
    operands.length = links + 1 := by
  induction chain with
  | one => rfl
  | more _ _ _ _ ih => rw [List.length_append, ih, List.length_singleton]

/-- The outermost link of a chain has both sides. -/
theorem OperatorChain.outermost (chain : OperatorChain kind links node operands) :
    node.kind = kind ∧ ∃ left right, node.field? "left" = some left ∧
      node.field? "right" = some right := by
  cases chain with
  | one same hleft hright => exact ⟨same, _, _, hleft, hright⟩
  | more same hleft hright => exact ⟨same, _, _, hleft, hright⟩

/-- A node of another kind ends a chain and is an operand itself. -/
theorem operands_of_ne (other : node.kind ≠ kind) : node.operands kind = [node] := by
  rcases node.operands_cases kind with ⟨left, right, same, -⟩ | alone
  · exact absurd same other
  · exact alone

/-- What is read off the links of a chain are its operands. -/
theorem OperatorChain.operands_eq (chain : OperatorChain kind links node operands) :
    node.operands kind = operands := by
  induction chain with
  | one same hleft hright other =>
    rw [Concrete.operands_eq, hleft, hright]
    dsimp only
    rw [if_pos same, operands_of_ne other, List.singleton_append]
  | more same hleft hright _ ih =>
    rw [Concrete.operands_eq, hleft, hright]
    dsimp only
    rw [if_pos same, ih]

/-- Each link of a chain of assignments adds one target. -/
theorem AssignmentChain.length_eq (chain : AssignmentChain links node targets value) :
    targets.length = links := by
  induction chain with
  | one => rfl
  | more _ _ _ _ ih => rw [List.length_cons, ih]

/-- The outermost link of a chain is an assignment without an annotation. -/
theorem AssignmentChain.plain (chain : AssignmentChain links node targets value) :
    node.IsPlainAssignment := by
  cases chain with
  | one plain => exact plain
  | more plain => exact plain

/-- The test that the chain goes by, as a proposition. -/
theorem isPlainAssignment_iff :
    (node.kind = "assignment" && (node.field? "type").isNone) = true ↔
      node.IsPlainAssignment := by
  rw [Bool.and_eq_true, decide_eq_true_eq, Option.isNone_iff_eq_none]
  rfl

/-- What is read off the links of a chain are its targets and its value. -/
theorem AssignmentChain.assignments_eq (chain : AssignmentChain links node targets value) :
    node.assignments = (targets, some value) := by
  induction chain with
  | one _ hleft hright other =>
    rw [Concrete.assignments_eq, hleft, hright]
    exact if_neg (mt isPlainAssignment_iff.mp other)
  | more _ hleft hright inner ih =>
    rw [Concrete.assignments_eq, hleft, hright]
    dsimp only
    rw [if_pos (isPlainAssignment_iff.mpr inner.plain), ih]

end

end Concrete

/-! ## Outcomes that parts decide -/

/-- An outcome is decided by lowering parts in order: it succeeds exactly if each part does, and it
fails exactly as the first part that fails. -/
structure DecidedBy (lower : Lowering) (parts : List Concrete) (outcome : Except ParseError Node) :
    Prop where
  succeeds : (∃ lowered, outcome = .ok lowered) ↔
    ∀ part ∈ parts, ∃ lowered, lower part = .ok lowered
  fails : ∀ error, outcome = .error error ↔ FirstRefused lower parts error

section

variable {source : Source} {lower : Lowering} {parts operands targets : List Concrete}
  {node value : Concrete} {kind : String} {links : Nat}

/-- It is enough to fail as lowering the parts does. -/
theorem DecidedBy.of_mapM {outcome : Except ParseError Node}
    (same : ∀ error, outcome = .error error ↔ parts.mapM lower = .error error) :
    DecidedBy lower parts outcome where
  succeeds := by
    rw [← exists_mapM_eq_ok]
    cases outcome with
    | error error =>
      rw [(same error).mp rfl]
      exact iff_of_false (fun ⟨_, h⟩ => by cases h) (fun ⟨_, h⟩ => by cases h)
    | ok lowered =>
      cases each : parts.mapM lower with
      | error error => cases (same error).mpr each
      | ok results => exact iff_of_true ⟨lowered, rfl⟩ ⟨results, rfl⟩
  fails error := (same error).trans mapM_eq_error

/-- An outcome that is made of all the lowered parts is decided by them. -/
theorem decidedBy_map (make : List Node → Node) :
    DecidedBy lower parts (parts.mapM lower >>= fun results => .ok (make results)) := by
  apply DecidedBy.of_mapM
  intro error
  rw [bind_eq_error]
  exact or_iff_left fun ⟨_, _, h⟩ => by cases h

/-- An outcome for which the last part is lowered by itself, after the others, is decided by all of
them in order. -/
theorem decidedBy_last (make : List Node → Node → Node) :
    DecidedBy lower (parts ++ [value]) (parts.mapM lower >>= fun results =>
      lower value >>= fun last => .ok (make results last)) := by
  apply DecidedBy.of_mapM
  intro error
  rw [List.mapM_append, List.mapM_cons, List.mapM_nil]
  cases parts.mapM lower with
  | error refusal => simp only [bind, Except.bind, Except.error.injEq]
  | ok results =>
    cases lower value with
    | error refusal => simp only [bind, Except.bind, Except.error.injEq]
    | ok last => exact iff_of_false (fun h => by cases h) (fun h => by cases h)

/-! ## Lowering a chain -/

theorem lowerKind_of_operator (operator : node.kind ∈ operatorKinds) :
    lowerKind source lower node = lowerOperators lower node := by
  simp only [operatorKinds, List.mem_cons, List.not_mem_nil, or_false] at operator
  rcases operator with kind | kind
  · simp only [lowerKind, kind]
  · simp only [lowerKind, kind]

/-- Of a chain of operators only the operands are lowered, all at once. The number of links is gone
from the right side. -/
theorem Concrete.OperatorChain.lowerKind_eq (chain : OperatorChain kind links node operands)
    (operator : kind ∈ operatorKinds) :
    lowerKind source lower node =
      operands.mapM lower >>= fun results => .ok (.other node.line kind results) := by
  obtain ⟨rfl, left, right, hleft, hright⟩ := chain.outermost
  rw [lowerKind_of_operator operator, lowerOperators, hleft, hright]
  dsimp only
  rw [chain.operands_eq]
  rfl

/-- Of a chain of assignments the targets are lowered in order and then the value, and nothing else
is. -/
theorem Concrete.AssignmentChain.lowerKind_eq (chain : AssignmentChain links node targets value) :
    lowerKind source lower node =
      targets.mapM lower >>= fun results =>
        lower value >>= fun last => .ok (.assign node.line results last) := by
  obtain ⟨kind, untyped⟩ := chain.plain
  simp only [lowerKind, kind, lowerAssignment, untyped, chain.assignments_eq]
  rfl

end

/-- Lowers a construct on a level: the constructs around it have taken that many levels. -/
def lowerAt (source : Source) (level : Nat) : Lowering := lower source (nestingLimit - level)

/-- A construct within the limit is lowered from its parts on the next level. -/
theorem lowerAt_eq (source : Source) {level : Nat} (within : level < nestingLimit)
    (node : Concrete) :
    lowerAt source level node = lowerKind source (lowerAt source (level + 1)) node := by
  obtain ⟨left, hleft⟩ : ∃ left, nestingLimit - level = left + 1 :=
    Nat.exists_eq_succ_of_ne_zero (by omega)
  have next : nestingLimit - (level + 1) = left := by omega
  show lower source (nestingLimit - level) node =
    lowerKind source (lower source (nestingLimit - (level + 1))) node
  rw [hleft, next, lower]

/-- **Chains become flat.** On a level within the limit, a chain of operators with any number of
links has one operand more than links. It is lowered exactly if all of them can be on the next
level, and it fails as the first operand that fails; what it becomes is one node with the kind of
the chain, the line of the outermost link and the lowered operands in order. A chain of assignments
has as many targets as links. It is lowered exactly if they and the value can be on the next level,
and it fails as the first of these that fails; what it becomes is one assignment, with the lowered
targets in order. -/
theorem lower_chains (source : Source) (level : Nat) (within : level < nestingLimit) :
    (∀ kind ∈ operatorKinds, ∀ links node operands,
      Concrete.OperatorChain kind links node operands →
        operands.length = links + 1 ∧
        DecidedBy (lowerAt source (level + 1)) operands (lowerAt source level node) ∧
        ∀ lowered, lowerAt source level node = .ok lowered ↔ ∃ results : List Node,
          List.Forall₂ (fun operand result => lowerAt source (level + 1) operand = .ok result)
            operands results ∧
          results.length = links + 1 ∧ lowered = .other node.line kind results) ∧
      ∀ links node targets value, Concrete.AssignmentChain links node targets value →
        targets.length = links ∧
        DecidedBy (lowerAt source (level + 1)) (targets ++ [value])
          (lowerAt source level node) ∧
        ∀ lowered, lowerAt source level node = .ok lowered ↔ ∃ (results : List Node) (last : Node),
          List.Forall₂ (fun target result => lowerAt source (level + 1) target = .ok result)
            targets results ∧
          lowerAt source (level + 1) value = .ok last ∧
          results.length = links ∧ lowered = .assign node.line results last := by
  constructor
  · intro kind operator links node operands chain
    rw [lowerAt_eq source within, chain.lowerKind_eq operator]
    refine ⟨chain.length_eq, decidedBy_map _, fun lowered => ?_⟩
    rw [bind_eq_ok]
    constructor
    · rintro ⟨results, hresults, ⟨⟩⟩
      have each := mapM_eq_ok.mp hresults
      exact ⟨results, each, each.length_eq.symm.trans chain.length_eq, rfl⟩
    · rintro ⟨results, each, -, rfl⟩
      exact ⟨results, mapM_eq_ok.mpr each, rfl⟩
  · intro links node targets value chain
    rw [lowerAt_eq source within, chain.lowerKind_eq]
    refine ⟨chain.length_eq, decidedBy_last _, fun lowered => ?_⟩
    simp only [bind_eq_ok]
    constructor
    · rintro ⟨results, hresults, last, hlast, ⟨⟩⟩
      have each := mapM_eq_ok.mp hresults
      exact ⟨results, last, each, hlast, each.length_eq.symm.trans chain.length_eq, rfl⟩
    · rintro ⟨results, last, each, hlast, -, rfl⟩
      exact ⟨results, mapM_eq_ok.mpr each, last, hlast, rfl⟩

/-! ## Chains of any length -/

/-- The text `x + x + … + x`, or with another mark, in which the mark stands so many times. -/
def chainText (mark : String) (links : Nat) : String :=
  "x" ++ String.join (List.replicate links (" " ++ mark ++ " x"))

namespace Concrete

/-- The name `x` at byte `start`. -/
def nameAt (fields : List String) (start : Nat) : Concrete :=
  construct 0 0 "identifier" fields start (start + 1) []

/-- The concrete tree of `x + x + … + x`. -/
def sum (fields : List String) : Nat → Concrete
  | 0 => nameAt fields 0
  | links + 1 =>
    construct 0 0 "binary_operator" fields 0 (4 * links + 5)
      [sum ["left"] links, token 0 0 "+" (4 * links + 2), nameAt ["right"] (4 * links + 4)]

/-- The names in it, in source order. -/
def sumOperands : Nat → List Concrete
  | 0 => [nameAt ["left"] 0]
  | links + 1 => sumOperands links ++ [nameAt ["right"] (4 * links + 4)]

/-- The concrete tree of `x = x = … = x` from byte `start` on. -/
def assignAll (fields : List String) (start : Nat) : Nat → Concrete
  | 0 => nameAt fields start
  | links + 1 =>
    construct 0 0 "assignment" fields start (start + 4 * links + 5)
      [nameAt ["left"] start, token 0 0 "=" (start + 2), assignAll ["right"] (start + 4) links]

/-- The names in it but for the last, in source order. -/
def assignTargets (start : Nat) : Nat → List Concrete
  | 0 => []
  | links + 1 => nameAt ["left"] start :: assignTargets (start + 4) links

/-- The tree of a sum is a chain with one link for each mark. -/
theorem operatorChain_sum (fields : List String) (links : Nat) :
    OperatorChain "binary_operator" (links + 1) (sum fields (links + 1))
      (sumOperands (links + 1)) := by
  induction links generalizing fields with
  | zero => exact .one rfl rfl rfl (by decide)
  | succ links ih => exact .more rfl rfl rfl (ih ["left"])

/-- The tree of an assignment to many names is a chain with one link for each mark, and its value is
the last name. -/
theorem assignmentChain_assignAll (fields : List String) (start links : Nat) :
    ∃ last, AssignmentChain (links + 1) (assignAll fields start (links + 1))
      (assignTargets start (links + 1)) (nameAt ["right"] last) := by
  induction links generalizing fields start with
  | zero =>
    have other : "identifier" ≠ "assignment" := by decide
    exact ⟨start + 4, .one ⟨rfl, rfl⟩ rfl rfl fun plain => other plain.1⟩
  | succ links ih =>
    obtain ⟨last, chain⟩ := ih ["right"] (start + 4)
    exact ⟨last, .more ⟨rfl, rfl⟩ rfl rfl chain⟩

/-- The operands of a sum are names, and the first of them begins the text. -/
theorem sumOperands_eq (links : Nat) :
    ∃ rest, sumOperands links = nameAt ["left"] 0 :: rest ∧
      ∀ operand ∈ rest, ∃ start, operand = nameAt ["right"] start := by
  induction links with
  | zero => exact ⟨[], rfl, fun _ mem => absurd mem List.not_mem_nil⟩
  | succ links ih =>
    obtain ⟨rest, eq, names⟩ := ih
    refine ⟨rest ++ [nameAt ["right"] (4 * links + 4)], ?_, ?_⟩
    · rw [sumOperands, eq, List.cons_append]
    · refine List.forall_mem_append.mpr ⟨names, List.forall_mem_singleton.mpr ⟨_, rfl⟩⟩

theorem exists_of_mem_assignTargets {start links : Nat} {target : Concrete}
    (mem : target ∈ assignTargets start links) : ∃ place, target = nameAt ["left"] place := by
  induction links generalizing start with
  | zero => cases mem
  | succ links ih =>
    rcases List.mem_cons.mp mem with rfl | mem
    · exact ⟨start, rfl⟩
    · exact ih mem

end Concrete

/-- A name can be lowered on every level within the limit. -/
theorem exists_lowerAt_nameAt (source : Source) {level : Nat} (within : level < nestingLimit)
    (fields : List String) (start : Nat) :
    ∃ lowered, lowerAt source level (.nameAt fields start) = .ok lowered := by
  rw [lowerAt_eq source within]
  exact ⟨_, rfl⟩

/-- A thousand operators and a thousand assignments are lowered with two levels left. With one level
left, a chain fails at its first operand. -/
theorem lower_chains_thousand :
    let added : Source := ⟨"test.py", chainText "+" 1000⟩
    let assigned : Source := ⟨"test.py", chainText "=" 1000⟩
    198 < nestingLimit ∧
      (∃ results, lowerAt added 198 (.sum [] 1000) =
          .ok (.other (Concrete.sum [] 1000).line "binary_operator" results) ∧
        results.length = 1001) ∧
      lowerAt added 199 (.sum [] 1000) = .error (added.errorAt (.nameAt ["left"] 0) .tooDeep) ∧
      ∃ results last, lowerAt assigned 198 (.assignAll [] 0 1000) =
          .ok (.assign (Concrete.assignAll [] 0 1000).line results last) ∧
        results.length = 1000 := by
  intro added assigned
  have within : 198 < nestingLimit := by decide
  have sum := Concrete.operatorChain_sum [] 999
  obtain ⟨rest, operands, names⟩ := Concrete.sumOperands_eq 1000
  refine ⟨within, ?_, ?_, ?_⟩
  · have each : ∀ operand ∈ Concrete.sumOperands 1000,
        ∃ lowered, lowerAt added 199 operand = .ok lowered := by
      rw [operands]
      refine List.forall_mem_cons.mpr ⟨exists_lowerAt_nameAt added (by decide) _ _, ?_⟩
      intro operand mem
      obtain ⟨start, rfl⟩ := names operand mem
      exact exists_lowerAt_nameAt added (by decide) _ _
    obtain ⟨-, decided, made⟩ := (lower_chains added 198 within).1 _ (by decide) _ _ _ sum
    obtain ⟨lowered, h⟩ := decided.succeeds.mpr each
    obtain ⟨results, -, length, rfl⟩ := (made lowered).mp h
    exact ⟨results, h, length⟩
  · obtain ⟨-, decided, -⟩ := (lower_chains added 199 (by decide)).1 _ (by decide) _ _ _ sum
    refine (decided.fails _).mpr ⟨[], _, rest, operands, ?_, rfl⟩
    exact fun _ mem => absurd mem List.not_mem_nil
  · obtain ⟨final, set⟩ := Concrete.assignmentChain_assignAll [] 0 999
    have each : ∀ part ∈ Concrete.assignTargets 0 1000 ++ [.nameAt ["right"] final],
        ∃ lowered, lowerAt assigned 199 part = .ok lowered := by
      refine List.forall_mem_append.mpr ⟨?_, List.forall_mem_singleton.mpr ?_⟩
      · intro target mem
        obtain ⟨start, rfl⟩ := Concrete.exists_of_mem_assignTargets mem
        exact exists_lowerAt_nameAt assigned (by decide) _ _
      · exact exists_lowerAt_nameAt assigned (by decide) _ _
    obtain ⟨-, decided, made⟩ := (lower_chains assigned 198 within).2 _ _ _ _ set
    obtain ⟨lowered, h⟩ := decided.succeeds.mpr each
    obtain ⟨results, value, -, -, length, rfl⟩ := (made lowered).mp h
    exact ⟨results, value, h, length⟩

end SourceAudit
