import SourceAudit.Checker.ConstantCase
import SourceAudit.Proofs.Dispatch
import SourceAudit.Proofs.Tree.Visit

/-!
# What the constant checker reports

The checker walks the tree and turns back at definitions and at assignments. Here its reports are
said without the walk: an assignment is reported when it stands **in the open**, with no definition
and no other assignment around its site, and gives a literal or a tuple to one name that should be
in capitals and is not. The reports come in document order, which is the order of `Tree.sites`.

The two meet in `Node.collects_constants`: where a path leaves the open it never comes back, so the
sites that the walk does not get to are the sites at which nothing is found.
-/

namespace SourceAudit

/-! ## The reports, read off the sites -/

/-- A name is in capitals: some character is uppercase and none is lowercase. -/
def IsUpper (id : String) : Prop :=
  (∃ c ∈ id.toList, Text.isUppercase c = true) ∧ ∀ c ∈ id.toList, Text.isLowercase c = false

instance (id : String) : Decidable (IsUpper id) := inferInstanceAs (Decidable (_ ∧ _))

/-- A name that a constant should not have: it is longer than two characters, so it counts, it does
not start as a private name does, and it is not in capitals. -/
def Miswritten (id : String) : Prop :=
  2 < id.length ∧ id.toList.head? ≠ some '_' ∧ ¬IsUpper id

instance (id : String) : Decidable (Miswritten id) := inferInstanceAs (Decidable (_ ∧ _ ∧ _))

namespace Node

/-- Whether a node is a literal or a tuple. -/
def isConstant : Node → Bool
  | literal .. => true
  | tuple .. => true
  | _ => false

/-- The miswritten name that an assignment gives a constant to, if it has no other target. -/
def miswritten? : Node → Option String
  | assign _ [name _ id] value => if Miswritten id ∧ value.isConstant then some id else none
  | _ => none

/-- Whether what is inside a node is no longer in the open. -/
def closes : Node → Bool
  | definition .. => true
  | assign .. => true
  | _ => false

end Node

namespace Site

/-- No definition and no assignment stands around a site. -/
def inOpen (site : Site) : Bool := site.path.all (!·.around.closes)

/-- What is found at a site: a miswritten name, which the explanation quotes. -/
def constant? (site : Site) : Option Finding :=
  if site.inOpen then
    site.node.miswritten?.map fun id =>
      ⟨site.node.line.getD 0, "Constant variable '" ++ id ++ "' should be in uppercase format."⟩
  else none

end Site

/-! ## The walk, branch by branch -/

/-- The test for capitals that the checker makes is the one that the specification asks for, as a
decision. -/
theorem inCapitals_eq (id : String) : inCapitals id = decide (IsUpper id) := by
  rw [Bool.eq_iff_iff, decide_eq_true_iff, inCapitals, Bool.and_eq_true, List.any_eq_true,
    Bool.not_eq_true', List.any_eq_false, IsUpper]
  simp only [Bool.not_eq_true]

/-- What the checker asks of a name and a value, in its own order, comes to the conditions on names
and on values of the specification. -/
theorem looksConstant_eq (id : String) (value : Node) :
    (looksConstant id value && !inCapitals id) = decide (Miswritten id ∧ value.isConstant) := by
  have same : looksConstant id value =
      (decide (2 < id.length) && id.toList.head? != some '_' && value.isConstant) := by
    cases value <;> rfl
  rw [same, inCapitals_eq, Bool.eq_iff_iff, decide_eq_true_iff]
  simp only [Miswritten, Bool.and_eq_true, bne_iff_ne, Bool.not_eq_true', decide_eq_true_iff,
    decide_eq_false_iff_not]
  tauto

/-- In the open, what is found does not depend on the path. -/
theorem Site.constant?_of_inOpen {path : List Step} {node : Node}
    (opened : Site.inOpen ⟨path, node⟩ = true) :
    Site.constant? ⟨path, node⟩ = Site.constant? ⟨[], node⟩ :=
  if_pos opened

/-- What is found at an assignment is found at its site. -/
theorem assignFindings_eq (line : Line) (targets : List Node) (value : Node) :
    assignFindings line targets value =
      (Site.constant? ⟨[], .assign line targets value⟩).toList := by
  unfold assignFindings
  split
  next _ id =>
    rw [looksConstant_eq]
    show _ = (Option.map _ (if Miswritten id ∧ value.isConstant then some id else none)).toList
    by_cases h : Miswritten id ∧ value.isConstant
    · rw [if_pos h, decide_eq_true h]
      rfl
    · rw [if_neg h, decide_eq_false h]
      rfl
  next other =>
    have none : (Node.assign line targets value).miswritten? = none := by
      unfold Node.miswritten?
      split
      next heq =>
        cases heq
        exact absurd rfl (other _ _)
      next => rfl
    show _ = (Option.map _ (Node.assign line targets value).miswritten?).toList
    rw [none]
    rfl

/-- The checker has no hook for handlers, so it goes through them to what they hold. -/
theorem constantVisitor_passesHandlers : constantVisitor.PassesHandlers := rfl

/-- The walk finds what is at the node itself, and then what is in its branches, unless the node
closes them off. -/
theorem Node.collects_constants_of_branches {node : Node} {found : List Finding}
    (closed : node.closes = true → found = [])
    (branches : node.closes = false → Collects
      (Construct.walkAll constantVisitor (node.branches.map fun branch => .node branch.2)) found) :
    Collects (node.walk constantVisitor) ((Site.constant? ⟨[], node⟩).toList ++ found) := by
  rw [← Node.run_descent_branches constantVisitor_passesHandlers] at branches
  rw [Node.walk_eq]
  cases node with
  | definition =>
    rw [closed rfl]
    exact fun list => (List.append_nil list).symm
  | assign line targets value =>
    rw [closed rfl, ← assignFindings_eq, List.append_nil]
    exact fun list => rfl
  | tryBlock | call | access | name | literal | tuple | other => exact branches rfl

/-! ## The walk and the sites -/

/-- Below a place that is not in the open, nothing is found. -/
theorem Node.constants_eq_nil {path : List Step} {node : Node}
    (closed : Site.inOpen ⟨path, node⟩ = false) :
    (node.sites path).filterMap Site.constant? = [] := by
  rw [List.filterMap_eq_nil_iff, Node.sites_under, List.forall_mem_map]
  intro site _
  have still : (Site.under path site).inOpen = false := by
    rw [Site.under, Site.inOpen, List.all_append]
    exact Bool.and_eq_false_imp.mpr fun _ => closed
  rw [Site.constant?, still]
  rfl

/-- What the walk finds in a node that is in the open is what is found at its sites. -/
theorem Node.collects_constants {path : List Step} {node : Node}
    (opened : Site.inOpen ⟨path, node⟩ = true) :
    Collects (node.walk constantVisitor) ((node.sites path).filterMap Site.constant?) := by
  induction node using Node.branch_induction generalizing path with
  | step node ih =>
    have below (branch : Role × Node) :
        Site.inOpen ⟨⟨node, branch.1, branch.2⟩ :: path, branch.2⟩ = !node.closes := by
      rw [Site.inOpen, List.all_cons, show path.all (!·.around.closes) = true from opened,
        Bool.and_true]
    rw [Node.sites_eq, List.filterMap_eq_flatMap_toList, List.flatMap_cons,
      ← List.filterMap_eq_flatMap_toList, List.filterMap_flatMap, Site.constant?_of_inOpen opened]
    refine node.collects_constants_of_branches (fun closes => ?_) fun opens => ?_
    · refine List.flatMap_eq_nil_iff.mpr fun branch _ => Node.constants_eq_nil ?_
      rw [below, closes]
      rfl
    · refine .walkAll_map fun branch mem => ih branch mem ?_
      rw [below, opens]
      rfl

/-- The findings of the checker are what the specification finds at the sites of the tree, site by
site and in document order. -/
theorem Checker.constantCase_findings (tree : Tree) :
    Checker.constantCase.findings tree = tree.sites.filterMap Site.constant? := by
  have walked : Collects (walkNodes constantVisitor tree.body)
      (tree.body.flatMap fun node => (node.sites []).filterMap Site.constant?) :=
    .walkNodes fun node _ => node.collects_constants rfl
  rw [Tree.sites, List.filterMap_flatMap]
  exact walked []

/-- **The constant checker is exact.** It appends to a sink, in document order and under its own
code and name, one issue for each assignment in the open that gives a literal or a tuple to one
miswritten name, and nothing else. -/
theorem Checker.constantCase_run_issues (tree : Tree) (sink : Sink) :
    (Checker.constantCase.run tree sink).issues =
      sink.issues ++ (tree.sites.filterMap Site.constant?).map fun finding =>
        ⟨finding.line, finding.explanation, "PA002", "uppercase-constants"⟩ := by
  rw [Checker.run_issues, Checker.issues, Checker.constantCase_findings]
  rfl

/-- Four assignments: one that should be in capitals, one that is, one in a function, and one of a
private name. -/
def Tree.fourConstants : Tree where
  sourceName := "test.py"
  body :=
    [.assign (some 1) [.name (some 1) "limit"] (.literal (some 1) .int "1"),
      .assign (some 2) [.name (some 2) "LIMIT"] (.literal (some 2) .int "2"),
      .definition (some 3) .functionDef "f" []
        [.assign (some 4) [.name (some 4) "inner"] (.tuple (some 4) [])],
      .assign none [.name none "_hidden"] (.tuple none [])]

/-- Of these the first is reported, with its name in the explanation. -/
theorem Checker.constantCase_run_fourConstants :
    let issues : List Issue :=
      [⟨1, "Constant variable 'limit' should be in uppercase format.", "PA002",
        "uppercase-constants"⟩]
    (Checker.constantCase.run .fourConstants {}).issues = issues ∧
      ((Tree.fourConstants.sites.filterMap Site.constant?).map fun finding =>
        ⟨finding.line, finding.explanation, "PA002", "uppercase-constants"⟩) = issues := by
  intro issues
  have run : (Checker.constantCase.run .fourConstants {}).issues = issues := by decide +kernel
  have spec := Checker.constantCase_run_issues .fourConstants {}
  rw [run] at spec
  exact ⟨run, (spec.trans (List.nil_append _)).symm⟩

end SourceAudit
