import SourceAudit.Checker.TryOutput
import SourceAudit.Proofs.Dispatch
import SourceAudit.Proofs.Tree.Visit

/-!
# What the output checker reports

The checker walks the tree with a slot for one bit, which is set in bodies and cleared in the other
clauses. Here its reports are said without the walk: a call of `print`, or of anything on `logging`,
is reported when the innermost protected block around its site holds it in the body. The reports
come in document order, which is the order of `Tree.sites`.

What is put into a slot for a scope and put back behind it could as well be handed down as an
argument: `TryOutput.Adds` says what a step adds where it finds a bit in the slot, and a scope adds
what its inside adds with the bit of the scope, whatever is in the slot around it
(`TryOutput.Adds.within`). So the bit at a node is the innermost clause on the path to it, and a
branch changes it exactly if its role is one of a clause (`Role.inTryBody`). With this, the walk and
the sites meet in `TryOutput.adds_sites`.
-/

namespace SourceAudit

/-! ## The reports, read off the sites -/

/-- How a node gives output, in a word: it calls `print`, or it calls an attribute of `logging`. -/
def Node.output? : Node → Option String
  | .call _ (.name _ id) _ => if id = "print" then some "Print" else none
  | .call _ (.access _ (.name _ id) _) _ => if id = "logging" then some "Logging" else none
  | _ => none

namespace Site

/-- Whether there is a protected block around the site, and the innermost one holds the site in its
body. -/
def inTryBody (site : Site) : Bool := site.clauses.head? = some .body

/-- What is found at a site. -/
def output? (site : Site) : Option Finding :=
  if site.inTryBody then
    site.node.output?.map fun word =>
      ⟨site.node.line.getD 0,
        word ++ " statement found in try block. Consider using proper error logging in " ++
          "except or finally block instead.\nIgnore, if it serves a needed purpose."⟩
  else none

end Site

/-- The bit of the walk at a branch of this role. -/
def Role.inTryBody (role : Role) (outside : Bool) : Bool :=
  match role.clause? with
  | some clause => clause = .body
  | none => outside

/-- One step further on a path, the bit is that of the role, or else it stays. -/
theorem Site.inTryBody_step (around node : Node) (role : Role) (path : List Step) :
    Site.inTryBody ⟨⟨around, role, node⟩ :: path, node⟩ =
      role.inTryBody (Site.inTryBody ⟨path, around⟩) := by
  unfold Site.inTryBody Site.clauses Role.inTryBody
  cases h : role.clause? with
  | none => simp only [List.filterMap_cons, h]
  | some clause => simp only [List.filterMap_cons, h, List.head?_cons, Option.some.injEq]

namespace TryOutput

/-! ## The slot and the argument -/

/-- Where the slot holds `inBody`, a step adds `found` and leaves the slot as it is. -/
def Adds (inBody : Bool) (step : State → State) (found : List Finding) : Prop :=
  ∀ findings, step ⟨inBody, findings⟩ = ⟨inBody, findings ++ found⟩

section

variable {inBody outside : Bool} {step next : State → State} {found more : List Finding}

/-- A step that does nothing. -/
theorem Adds.nil : Adds inBody id [] :=
  fun findings => congrArg (State.mk inBody) (List.append_nil findings).symm

/-- One walk after another adds what both find, and the place stays set as it was before them. -/
theorem Adds.append (first : Adds inBody step found) (second : Adds inBody next more) :
    Adds inBody (fun state => next (step state)) (found ++ more) := by
  intro findings
  show next (step _) = _
  rw [first, second, List.append_assoc]

/-- **A scope hands down its value.** It adds what its inside adds with the value of the scope in
the slot, and what is in the slot around it makes no difference and comes back. -/
theorem Adds.within (inside : Adds inBody step found) :
    Adds outside (place.within inBody step) found := by
  intro findings
  show place.set outside (step ⟨inBody, findings⟩) = _
  rw [inside]
  rfl

/-- Nodes add what each of them adds, one after the other. -/
theorem Adds.walkAll {α : Type} {items : List α} {node : α → Node} {found : α → List Finding}
    (each : ∀ item ∈ items, Adds inBody ((node item).walk visitor) (found item)) :
    Adds inBody (Construct.walkAll visitor (items.map fun item => .node (node item)))
      (items.flatMap found) := by
  induction items with
  | nil => exact .nil
  | cons item items ih =>
    rw [List.forall_mem_cons] at each
    exact each.1.append (ih each.2)

end

/-! ## The walk and the sites -/

/-- The checker has no hook for handlers. What tells a handler from the body is the scope that the
hook for protected blocks opens. -/
theorem visitor_passesHandlers : visitor.PassesHandlers := rfl

/-- A call gives output as its callee says. -/
theorem output?_call (line : Line) (func : Node) (args : List Node) :
    (Node.call line func args).output? = (OutputKind.ofCallee? func).map OutputKind.word := by
  cases func with
  | name line id =>
    rw [Node.output?, OutputKind.ofCallee?]
    split <;> rfl
  | access line value attr =>
    cases value with
    | name line id =>
      rw [Node.output?, OutputKind.ofCallee?]
      simp only [Node.identifier?, Option.some.injEq]
      split <;> rfl
    | _ => rfl
  | _ => rfl

/-- The two texts of the checker are one sentence about a kind of output, with the word for the kind
in front. -/
theorem explanation_eq (kind : OutputKind) :
    kind.explanation =
      kind.word ++ " statement found in try block. Consider using proper error logging in " ++
        "except or finally block instead.\nIgnore, if it serves a needed purpose." := by
  cases kind <;> decide +kernel

/-- Looking at a call adds what is found at its site. -/
theorem adds_meet (path : List Step) (line : Line) (func : Node) (args : List Node) :
    Adds (Site.inTryBody ⟨path, .call line func args⟩) (·.meet line func)
      (Site.output? ⟨path, .call line func args⟩).toList := by
  rw [Site.output?, output?_call]
  cases Site.inTryBody ⟨path, .call line func args⟩ with
  | false => exact .nil
  | true =>
    cases callee : OutputKind.ofCallee? func with
    | none =>
      intro findings
      simp only [State.meet, callee, if_true]
      exact Adds.nil findings
    | some kind =>
      intro findings
      simp only [State.meet, callee, explanation_eq, if_true]
      rfl

/-- Nothing in a handler counts as being in the body of the protected block, wherever the block
itself stands. -/
theorem inTryBody_of_mem_branches {handler : Handler} {branch : Role × Node}
    (mem : branch ∈ handler.branches) (outside : Bool) : branch.1.inTryBody outside = false := by
  obtain ⟨line, typeExpr, name, body⟩ := handler
  simp only [Handler.branches, List.mem_append, List.mem_map] at mem
  rcases mem with ⟨node, -, rfl⟩ | ⟨node, -, rfl⟩
  · rfl
  · rfl

/-- A protected block adds what its branches add, each with the bit of its clause. -/
theorem adds_tryBlock {outside : Bool} {found : Role × Node → List Finding} {line : Line}
    {body orelse finalbody : List Node} {handlers : List Handler}
    (each : ∀ branch ∈ (Node.tryBlock line body handlers orelse finalbody).branches,
      Adds (branch.1.inTryBody outside) (branch.2.walk visitor) (found branch)) :
    Adds outside ((Node.tryBlock line body handlers orelse finalbody).walk visitor)
      ((Node.tryBlock line body handlers orelse finalbody).branches.flatMap found) := by
  have clause (role : Role) {nodes : List Node}
      (listed : ∀ branch ∈ nodes.map (role, ·),
        Adds (branch.1.inTryBody outside) (branch.2.walk visitor) (found branch)) :
      Adds (role.inTryBody outside) (Construct.walkAll visitor (nodes.map .node))
        ((nodes.map (role, ·)).flatMap found) := by
    rw [List.flatMap_map]
    exact .walkAll fun node mem => listed (role, node) (List.mem_map_of_mem mem)
  simp only [Node.branches, List.forall_mem_append] at each
  obtain ⟨⟨⟨inBody, inHandlers⟩, inElse⟩, inFinal⟩ := each
  have handled : Adds false (Construct.walkAll visitor (handlers.map .handler))
      ((handlers.flatMap Handler.branches).flatMap found) := by
    rw [visitor_passesHandlers.walkAll_handlers]
    refine .walkAll fun branch mem => ?_
    obtain ⟨handler, -, inner⟩ := List.mem_flatMap.mp mem
    rw [← inTryBody_of_mem_branches inner outside]
    exact inHandlers branch mem
  have rest := handled.append ((clause .tryElse inElse).append (clause .tryFinally inFinal))
  rw [Node.walk_eq]
  simp only [Node.branches, List.flatMap_append, List.append_assoc]
  exact (clause .tryBody inBody).within.append rest.within

/-- A node without clauses adds what its branches add, with the bit unchanged. -/
theorem adds_descent {outside : Bool} {found : Role × Node → List Finding} {node : Node}
    (same : ∀ branch ∈ node.branches, branch.1.clause? = none)
    (each : ∀ branch ∈ node.branches,
      Adds (branch.1.inTryBody outside) (branch.2.walk visitor) (found branch)) :
    Adds outside (node.descent visitor).run (node.branches.flatMap found) := by
  rw [Node.run_descent_branches visitor_passesHandlers]
  refine .walkAll fun branch mem => ?_
  have role : branch.1.inTryBody outside = outside := by
    rw [Role.inTryBody, same branch mem]
  exact role ▸ each branch mem

/-- A node that puts nothing out is no finding at any site. -/
theorem output?_eq_none {path : List Step} {node : Node} (silent : node.output? = none) :
    Site.output? ⟨path, node⟩ = none := by
  rw [Site.output?, silent]
  exact ite_self none

/-- What the walk adds in a node that is reached by `path` is what is found at its sites. -/
theorem adds_sites (path : List Step) (node : Node) :
    Adds (Site.inTryBody ⟨path, node⟩) (node.walk visitor)
      ((node.sites path).filterMap Site.output?) := by
  induction node using Node.branch_induction generalizing path with
  | step node ih =>
    have each : ∀ branch ∈ node.branches,
        Adds (branch.1.inTryBody (Site.inTryBody ⟨path, node⟩)) (branch.2.walk visitor)
          ((branch.2.sites (⟨node, branch.1, branch.2⟩ :: path)).filterMap Site.output?) := by
      intro branch mem
      rw [← Site.inTryBody_step]
      exact ih branch mem _
    rw [Node.sites_eq, List.filterMap_eq_flatMap_toList, List.flatMap_cons,
      ← List.filterMap_eq_flatMap_toList, List.filterMap_flatMap]
    -- Only a protected block has clauses, and only a call is found itself.
    cases node with
    | tryBlock =>
      rw [output?_eq_none rfl]
      exact adds_tryBlock each
    | call line func args =>
      rw [Node.walk_eq]
      refine (adds_meet path line func args).append (adds_descent ?_ each)
      simp [Node.branches, Role.clause?]
    | definition | assign | access | name | literal | tuple | other =>
      rw [Node.walk_eq, output?_eq_none rfl]
      refine adds_descent ?_ each
      simp only [Node.branches, List.forall_mem_append, List.forall_mem_singleton,
        List.forall_mem_map, List.not_mem_nil, Role.clause?, false_implies, implies_true, and_self]

end TryOutput

/-- The findings of the checker are what the specification finds at the sites of the tree, site by
site and in document order. -/
theorem Checker.tryOutput_findings (tree : Tree) :
    Checker.tryOutput.findings tree = tree.sites.filterMap Site.output? := by
  have walked : TryOutput.Adds false (walkNodes TryOutput.visitor tree.body)
      (tree.body.flatMap fun node => (node.sites []).filterMap Site.output?) := by
    rw [walkNodes_eq]
    exact .walkAll fun node _ => TryOutput.adds_sites [] node
  rw [Tree.sites, List.filterMap_flatMap]
  exact congrArg TryOutput.State.findings (walked [])

/-- **The output checker is exact.** It appends to a sink, in document order and under its own code
and name, one issue for each call of `print` or of an attribute of `logging` whose innermost
protected block holds it in the body, and nothing else. -/
theorem Checker.tryOutput_run_issues (tree : Tree) (sink : Sink) :
    (Checker.tryOutput.run tree sink).issues =
      sink.issues ++ (tree.sites.filterMap Site.output?).map fun finding =>
        ⟨finding.line, finding.explanation, "PA001", "no-output-in-try-body"⟩ := by
  rw [Checker.run_issues, Checker.issues, Checker.tryOutput_findings]
  rfl

/-- A protected block that prints on line 2 and logs on a line that is not known, with a handler
that prints. -/
def Tree.guardedOutput : Tree where
  sourceName := "test.py"
  body :=
    [.tryBlock (some 1)
      [.call (some 2) (.name (some 2) "print") [],
        .call none (.access none (.name none "logging") "info") []]
      [.mk (some 4) none none [.call (some 5) (.name (some 5) "print") []]] [] []]

/-- What is printed and what is logged in the body is reported, and the handler may print. -/
theorem Checker.tryOutput_run_guardedOutput :
    let issues : List Issue :=
      [⟨2, "Print statement found in try block. Consider using proper error logging in " ++
          "except or finally block instead.\nIgnore, if it serves a needed purpose.",
          "PA001", "no-output-in-try-body"⟩,
        ⟨0, "Logging statement found in try block. Consider using proper error logging in " ++
          "except or finally block instead.\nIgnore, if it serves a needed purpose.",
          "PA001", "no-output-in-try-body"⟩]
    (Checker.tryOutput.run .guardedOutput {}).issues = issues ∧
      ((Tree.guardedOutput.sites.filterMap Site.output?).map fun finding =>
        ⟨finding.line, finding.explanation, "PA001", "no-output-in-try-body"⟩) = issues := by
  intro issues
  have run : (Checker.tryOutput.run .guardedOutput {}).issues = issues := by decide +kernel
  have spec := Checker.tryOutput_run_issues .guardedOutput {}
  rw [run] at spec
  exact ⟨run, (spec.trans (List.nil_append _)).symm⟩

end SourceAudit
