import SourceAudit.Proofs.Concrete.Lower
import SourceAudit.Proofs.Concrete.Search
import SourceAudit.Proofs.Tree.Site

/-!
# How deep a lowered tree nests

Lowering spends a level on each construct it goes into, and refuses a source when the levels are
used up. The levels bound the nesting of the tree only as far as every node costs one, and some
nodes cost nothing: the interpolations of a formatted string are made together with the string, and
the shift that stands for `print >> f, x` is made together with the tuple around it. Such a node is
**unmetered** (`Node.unmeteredIn`). On the other side parentheses cost a level and leave no node, so
a tree may also nest less than its levels.

What the levels do bound is `Node.Within`: a site lies no deeper than the levels and the unmetered
nodes on the way to it together. So the limit holds for every site that has no unmetered node on its
way, and a tree keeps the limit exactly if its other sites do. Between two nodes that cost a level
there is at most one that costs none, so no tree nests more than twice as deep as the limit.
-/

namespace SourceAudit

/-! ## Unmetered nodes -/

/-- Whether a node is the shift of the name `print`. -/
def Node.isPrintShift : Node → Bool
  | .other _ kind (.name _ id :: _) => kind = "binary_operator" && id = "print"
  | _ => false

/-- Whether a node directly inside `around` may have been made without a level: what is inside a
string, the shift that begins a tuple, and the name that such a shift is made of if it has nothing
else. -/
def Node.unmeteredIn (node around : Node) : Bool :=
  match around with
  | .other _ kind children =>
    stringKinds.contains kind || kind = "binary_operator" && children.length = 1
  | .tuple .. => node.isPrintShift
  | _ => false

/-- Whether a step of a path goes to an unmetered node. -/
def Step.unmetered (step : Step) : Bool := step.inner.unmeteredIn step.around

/-- The number of unmetered nodes on the way to a site, its own node included. -/
def Site.unmetered (site : Site) : Nat := site.path.countP Step.unmetered

/-- No site of a node lies deeper than `levels`, unmetered nodes not counted. -/
def Node.Within (levels : Nat) (node : Node) : Prop :=
  ∀ site ∈ node.sites [], site.level ≤ levels + site.unmetered

/-- No site of a node lies deeper than `depth`. -/
def Node.Shallow (depth : Nat) (node : Node) : Prop := ∀ site ∈ node.sites [], site.level ≤ depth

/-- The sites of a node are the node and the sites of its branches, one level further in. -/
theorem Node.forall_mem_sites {P : Site → Prop} {node : Node} :
    (∀ site ∈ node.sites [], P site) ↔
      P ⟨[], node⟩ ∧ ∀ branch ∈ node.branches, ∀ site ∈ branch.2.sites [],
        P (site.under [⟨node, branch.1, branch.2⟩]) := by
  rw [Node.sites_eq, List.forall_mem_cons, List.forall_mem_flatMap]
  refine and_congr_right fun _ => forall₂_congr fun branch _ => ?_
  rw [Node.sites_under, List.forall_mem_map]

theorem Node.Within.mono {levels more : Nat} {node : Node} (h : node.Within levels)
    (le : levels ≤ more) : node.Within more := by
  intro site mem
  have := h site mem
  omega

/-- A node needs one level more than its branches, of which an unmetered one may need that level
itself. -/
theorem Node.within_succ {levels : Nat} {node : Node}
    (h : ∀ branch ∈ node.branches,
      branch.2.Within (levels + if branch.2.unmeteredIn node then 1 else 0)) :
    node.Within (levels + 1) := by
  unfold Node.Within
  rw [Node.forall_mem_sites]
  constructor
  · show 1 ≤ levels + 1 + 0
    omega
  · intro branch mem site hsite
    have inside := h branch mem site hsite
    have counted : (site.under [⟨node, branch.1, branch.2⟩]).unmetered =
        site.unmetered + if branch.2.unmeteredIn node then 1 else 0 := by
      unfold Site.unmetered Site.under
      rw [List.countP_append, List.countP_singleton]
      rfl
    have deeper : (site.under [⟨node, branch.1, branch.2⟩]).level = site.level + 1 := by
      unfold Site.level Site.under
      rw [List.length_append]
      rfl
    omega

theorem Node.Shallow.mono {depth more : Nat} {node : Node} (h : node.Shallow depth)
    (le : depth ≤ more) : node.Shallow more :=
  fun site mem => Nat.le_trans (h site mem) le

/-- A node nests one level deeper than what is directly inside it. -/
theorem Node.shallow_succ {depth : Nat} {node : Node}
    (h : ∀ branch ∈ node.branches, branch.2.Shallow depth) : node.Shallow (depth + 1) := by
  unfold Node.Shallow
  rw [Node.forall_mem_sites]
  constructor
  · show 1 ≤ depth + 1
    omega
  · intro branch mem site hsite
    have inside := h branch mem site hsite
    unfold Site.level at inside ⊢
    simp only [Site.under, List.length_append, List.length_singleton]
    omega

/-! ## What lowering makes without a level -/

section

variable {source : Source} {lower : Lowering} {node : Concrete} {lowered : Node}

/-- A node is lowered with one level less, or is the name `print` and stands beside something that
is. -/
def Operand (lower : Lowering) (node : Node) : Prop :=
  (∃ inner, lower inner = .ok node) ∨
    (∃ line, node = .name line "print") ∧ ∃ inner other, lower inner = .ok other

/-- A node is an operand, or is unmetered and made of operands. -/
def Made (lower : Lowering) (around node : Node) : Prop :=
  Operand lower node ∨
    node.unmeteredIn around = true ∧ ∀ branch ∈ node.branches, Operand lower branch.2

/-- What was lowered with one level less is made, whatever stands around it. -/
theorem Made.of_lower {around : Node} {inner : Concrete} (h : lower inner = .ok lowered) :
    Made lower around lowered := .inl (.inl ⟨inner, h⟩)

/-- Every one of the nodes is lowered with one level less. -/
def Lowered (lower : Lowering) (nodes : List Node) : Prop :=
  ∀ node ∈ nodes, ∃ inner, lower inner = .ok node

theorem Lowered.nil : Lowered lower [] := fun _ mem => absurd mem List.not_mem_nil

theorem Lowered.singleton {inner : Concrete} (h : lower inner = .ok lowered) :
    Lowered lower [lowered] := by
  intro node mem
  rw [List.mem_singleton.mp mem]
  exact ⟨inner, h⟩

/-- Nodes that are lowered one by one are all lowered with one level less. -/
theorem Lowered.of_mapM {inner : List Concrete} {results : List Node}
    (h : inner.mapM lower = .ok results) : Lowered lower results := by
  intro node mem
  obtain ⟨part, -, hpart⟩ := exists_of_mem_mapM h mem
  exact ⟨part, hpart⟩

/-- A field is gone through at no cost: its parts are lowered with one level less, as the parts of
the node itself are. -/
theorem Lowered.of_field {field : String} {results : List Node}
    (h : lowerField lower field node = .ok results) : Lowered lower results := by
  rcases lowerField_eq_ok h with ⟨inner, -, h⟩ | ⟨-, rfl⟩
  · exact .of_mapM h
  · exact .nil

/-- A list of arguments costs no level of its own. -/
theorem Lowered.of_arguments {args : List Node} (h : lowerArguments lower node = .ok args) :
    Lowered lower args := by
  rcases lowerArguments_eq_ok h with ⟨_, -, -, hparts⟩ | ⟨_, only, -, honly, rfl⟩ | ⟨-, rfl⟩
  · exact .of_mapM hparts
  · exact .singleton honly
  · exact .nil

/-- A clause and its block cost no level: the statements in it are lowered as if they stood in the
protected block. -/
theorem Lowered.of_clauseBody {clause : Concrete} {results : List Node}
    (h : lowerClauseBody lower clause = .ok results) : Lowered lower results := by
  rcases lowerClauseBody_eq_ok h with ⟨block, -, h⟩ | ⟨-, rfl⟩
  · exact .of_mapM h
  · exact .nil

/-- Whichever clause is kept, what it holds is lowered with one level less. -/
theorem Lowered.of_keepsLast {step : Concrete → Except ParseError (List Node)}
    {nodes : List Concrete} {results : List Node} (h : KeepsLast step [] nodes results)
    (each : ∀ {node results}, step node = .ok results → Lowered lower results) :
    Lowered lower results := by
  unfold KeepsLast at h
  split at h
  next => rw [h]; exact .nil
  next => exact each h

/-- What a handler holds is lowered with one level less: the handler itself costs none, and it is
no node. -/
theorem Lowered.of_handler {clause : Concrete} {handler : Handler}
    (h : lowerHandler source lower clause = .ok handler) :
    Lowered lower (handler.branches.map (·.2)) := by
  obtain ⟨body, typeExpr, name, hbody, htype, rfl⟩ := lowerHandler_eq_ok h
  have bodyLowered : Lowered lower body := .of_keepsLast hbody .of_mapM
  have typeLowered : Lowered lower typeExpr.toList := by
    rcases lowerHandlerType_eq_ok htype with
      ⟨rfl, -⟩ | ⟨_, _, type, -, rfl, ⟨-, h⟩ | ⟨_, _, -, -, h⟩⟩
    · exact .nil
    · exact .singleton h
    · exact .singleton h
  intro node mem
  simp only [Handler.branches, List.map_append, List.map_map, List.mem_append, List.mem_map,
    Function.comp_apply, exists_eq_right] at mem
  exact mem.elim (typeLowered node) (bodyLowered node)

/-- Branches that were lowered with one level less are made, in any role and inside any node. -/
theorem Lowered.made {nodes : List Node} (h : Lowered lower nodes) {role : Role} {around : Node} :
    ∀ branch ∈ nodes.map (role, ·), Made lower around branch.2 := by
  intro branch mem
  obtain ⟨node, hnode, rfl⟩ := List.mem_map.mp mem
  obtain ⟨inner, hinner⟩ := h node hnode
  exact .of_lower hinner

/-- A lowered node is one that was lowered with one level less, as parentheses are, or every node
directly inside it is made. -/
def FromParts (lower : Lowering) (lowered : Node) : Prop :=
  (∃ inner, lower inner = .ok lowered) ∨
    ∀ branch ∈ lowered.branches, Made lower lowered branch.2

/-- A construct without a rule holds what its parts are lowered to, and nothing else. -/
theorem FromParts.of_other (h : lowerOther lower node = .ok lowered) : FromParts lower lowered := by
  obtain ⟨children, hchildren, rfl⟩ := lowerOther_eq_ok h
  exact .inr (Lowered.of_mapM hchildren).made

/-- A protected block holds its statements, what its handlers hold, and the statements of its other
clauses, all lowered with one level less. -/
theorem FromParts.of_try (h : lowerTry source lower node = .ok lowered) :
    FromParts lower lowered := by
  obtain ⟨body, handlers, orelse, finalbody, hbody, hhandlers, horelse, hfinal, rfl⟩ :=
    lowerTry_eq_ok h
  refine .inr fun branch mem => ?_
  simp only [Node.branches, List.mem_append, List.mem_flatMap] at mem
  rcases mem with ((mem | ⟨handler, hhandler, mem⟩) | mem) | mem
  · exact (Lowered.of_field hbody).made branch mem
  · obtain ⟨clause, -, hclause⟩ := exists_of_mem_mapM hhandlers hhandler
    obtain ⟨inner, h⟩ := Lowered.of_handler hclause branch.2 (List.mem_map_of_mem mem)
    exact .of_lower h
  · exact (Lowered.of_keepsLast horelse .of_clauseBody).made branch mem
  · exact (Lowered.of_keepsLast hfinal .of_clauseBody).made branch mem

/-- The interpolations of a string are made together with it. -/
theorem FromParts.of_string (kind : node.kind ∈ stringKinds)
    (h : lowerString source lower node = .ok lowered) : FromParts lower lowered := by
  rcases lowerString_eq_ok h with ⟨children, -, hchildren, rfl⟩ | ⟨-, rfl⟩
  · refine .inr fun branch mem => ?_
    obtain ⟨child, hmem, rfl⟩ := List.mem_map.mp mem
    obtain ⟨interpolation, -, hchild⟩ := exists_of_mem_mapM hchildren hmem
    obtain ⟨inner, hinner, rfl⟩ := lowerOther_eq_ok hchild
    refine .inr ⟨?_, ?_⟩
    · have : stringKinds.contains node.kind = true := List.contains_iff_mem.mpr kind
      simp only [Node.unmeteredIn, this, Bool.true_or]
    · intro branch mem
      obtain ⟨part, hpart, rfl⟩ := List.mem_map.mp mem
      exact .inl (Lowered.of_mapM hinner part hpart)
  · exact .inr fun _ mem => absurd mem List.not_mem_nil

/-- The shift of a print statement is made together with the tuple, if there is one. -/
theorem FromParts.of_print (h : lowerPrint source lower node = .ok lowered) :
    FromParts lower lowered := by
  obtain ⟨chevron, rest, operands, values, -, -, hoperands, hvalues, rfl⟩ := lowerPrint_eq_ok h
  have operandsLowered := Lowered.of_mapM hoperands
  -- The name in the shift costs no level, so it leans on whatever is lowered beside it.
  have inside (beside : ∃ inner other, lower inner = .ok other) :
      ∀ branch ∈ (Node.other node.line "binary_operator"
        (.name node.line "print" :: operands)).branches, Operand lower branch.2 := by
    intro branch mem
    rcases List.mem_cons.mp mem with rfl | mem
    · exact .inr ⟨⟨node.line, rfl⟩, beside⟩
    · obtain ⟨operand, hoperand, rfl⟩ := List.mem_map.mp mem
      exact .inl (operandsLowered operand hoperand)
  refine .inr ?_
  cases values with
  | nil =>
    cases operands with
    | nil =>
      intro branch mem
      rw [List.mem_singleton.mp mem]
      exact .inr ⟨rfl, fun _ mem => absurd mem List.not_mem_nil⟩
    | cons operand operands =>
      obtain ⟨inner, h⟩ := operandsLowered operand List.mem_cons_self
      exact fun branch mem => .inl (inside ⟨inner, operand, h⟩ branch mem)
  | cons value values =>
    obtain ⟨inner, h⟩ := Lowered.of_mapM hvalues value List.mem_cons_self
    intro branch mem
    rcases List.mem_cons.mp mem with rfl | mem
    · exact .inr ⟨rfl, inside ⟨inner, value, h⟩⟩
    · exact (Lowered.of_mapM hvalues).made branch mem

/-- **What lowering gives is made of what it gives one level further in**, unmetered nodes apart. -/
theorem fromParts_of_lowerKind (h : lowerKind source lower node = .ok lowered) :
    FromParts lower lowered := by
  cases lowerKind_cases h with
  | tryBlock _ h => exact .of_try h
  | definition _ h =>
    obtain ⟨header, body, name, hheader, hbody, rfl⟩ := lowerDefinition_eq_ok h
    refine .inr fun branch mem => ?_
    rcases List.mem_append.mp mem with mem | mem
    · exact (Lowered.of_mapM hheader).made branch mem
    · exact (Lowered.of_field hbody).made branch mem
  | expressionStatement _ h =>
    rcases lowerExpressionStatement_eq_ok h with other | only | ⟨several, hseveral, rfl⟩
    · exact .of_other other
    · exact .inl (Lowered.of_mapM only lowered (List.mem_singleton_self _))
    · exact .inr (Lowered.of_mapM hseveral).made
  | assignment _ h =>
    rcases lowerAssignment_eq_ok h with
      ⟨children, hchildren, rfl⟩ | ⟨targets, value, -, htargets, ⟨last, -, hvalue⟩, rfl⟩ | other
    · exact .inr (Lowered.of_mapM hchildren).made
    · refine .inr fun branch mem => ?_
      rcases List.mem_append.mp mem with mem | mem
      · exact (Lowered.of_mapM htargets).made branch mem
      · rw [List.mem_singleton.mp mem]
        exact .of_lower hvalue
    · exact .of_other other
  | call _ h =>
    rcases lowerCall_eq_ok h with ⟨function, func, args, -, hfunc, hargs, rfl⟩ | ⟨-, other⟩
    · refine .inr fun branch mem => ?_
      rcases List.mem_cons.mp mem with rfl | mem
      · exact .of_lower hfunc
      · exact (Lowered.of_arguments hargs).made branch mem
    · exact .of_other other
  | access _ h =>
    rcases lowerAccess_eq_ok h with ⟨object, attr, value, -, -, hvalue, rfl⟩ | other
    · refine .inr fun branch mem => ?_
      rw [List.mem_singleton.mp mem]
      exact .of_lower hvalue
    · exact .of_other other
  | name => exact .inr fun _ mem => absurd mem List.not_mem_nil
  | literal => exact .inr fun _ mem => absurd mem List.not_mem_nil
  | string kind h => exact .of_string kind h
  | tuple _ helts => exact .inr (Lowered.of_mapM helts).made
  | parenthesized _ h =>
    rcases lowerParenthesized_eq_ok h with ⟨inner, rest, -, hinner⟩ | other
    · exact .inl ⟨inner, hinner⟩
    · exact .of_other other
  | operators _ h =>
    rcases lowerOperators_eq_ok h with ⟨left, right, operands, -, -, hoperands, rfl⟩ | other
    · exact .inr (Lowered.of_mapM hoperands).made
    · exact .of_other other
  | print _ h => exact .of_print h
  | other _ h => exact .of_other h

end

/-! ## What the levels bound -/

section

variable {levels : Nat} {source : Source} {around node : Node}

/-- Without a level left nothing is lowered. -/
theorem levels_pos_of_lower {inner : Concrete} (h : lower source levels inner = .ok node) :
    0 < levels := by
  cases levels with
  | zero => cases h
  | succ levels => exact Nat.succ_pos levels

/-- An operand lies within the levels that are left. The name `print` needs one, and there is one
because something is lowered beside it. -/
theorem Operand.within
    (ih : ∀ {inner node}, lower source levels inner = .ok node → node.Within levels)
    (h : Operand (lower source levels) node) : node.Within levels := by
  rcases h with ⟨inner, h⟩ | ⟨⟨line, rfl⟩, inner, other, h⟩
  · exact ih h
  · obtain ⟨fewer, rfl⟩ := Nat.exists_eq_succ_of_ne_zero (Nat.ne_of_gt (levels_pos_of_lower h))
    exact Node.within_succ fun _ mem => absurd mem List.not_mem_nil

/-- What is made lies within the levels that are left, and an unmetered node within one more. -/
theorem Made.within
    (ih : ∀ {inner node}, lower source levels inner = .ok node → node.Within levels)
    (h : Made (lower source levels) around node) :
    node.Within (levels + if node.unmeteredIn around then 1 else 0) := by
  rcases h with h | ⟨unmetered, inside⟩
  · exact (h.within ih).mono (Nat.le_add_right _ _)
  · rw [if_pos unmetered]
    refine Node.within_succ fun branch mem => ?_
    exact ((inside branch mem).within ih).mono (Nat.le_add_right _ _)

/-- A construct lies within the levels it was lowered with. -/
theorem within_of_lower {inner : Concrete} (h : lower source levels inner = .ok node) :
    node.Within levels := by
  induction levels generalizing inner node with
  | zero => cases h
  | succ levels ih =>
    rcases fromParts_of_lowerKind h with ⟨inner, h⟩ | made
    · exact (ih h).mono (Nat.le_succ _)
    · exact Node.within_succ fun branch mem => (made branch mem).within ih

/-- An operand nests at most twice as deep as the levels that are left. -/
theorem Operand.shallow
    (ih : ∀ {inner node}, lower source levels inner = .ok node → node.Shallow (2 * levels))
    (h : Operand (lower source levels) node) : node.Shallow (2 * levels) := by
  rcases h with ⟨inner, h⟩ | ⟨⟨line, rfl⟩, inner, other, h⟩
  · exact ih h
  · have := levels_pos_of_lower h
    exact (Node.shallow_succ fun _ mem => absurd mem List.not_mem_nil).mono (by omega : 1 ≤ _)

/-- What is made nests at most one deeper than twice the levels that are left, for it is an operand
or an unmetered node around operands. -/
theorem Made.shallow
    (ih : ∀ {inner node}, lower source levels inner = .ok node → node.Shallow (2 * levels))
    (h : Made (lower source levels) around node) : node.Shallow (2 * levels + 1) := by
  rcases h with h | ⟨-, inside⟩
  · exact (h.shallow ih).mono (Nat.le_succ _)
  · exact Node.shallow_succ fun branch mem => (inside branch mem).shallow ih

/-- A construct nests at most twice as deep as the levels it was lowered with: between two nodes
that cost a level there is at most one that costs none. -/
theorem shallow_of_lower {inner : Concrete} (h : lower source levels inner = .ok node) :
    node.Shallow (2 * levels) := by
  induction levels generalizing inner node with
  | zero => cases h
  | succ levels ih =>
    rcases fromParts_of_lowerKind h with ⟨inner, h⟩ | made
    · exact (ih h).mono (by omega)
    · exact Node.shallow_succ fun branch mem => (made branch mem).shallow ih

end

/-- The sites of the tree of a source are those of statements that were lowered with all levels. -/
theorem Tree.exists_lower_of_mem_sites {source : Source} {root : Concrete} {tree : Tree}
    (h : Tree.ofConcrete source root = .ok tree) {site : Site} (mem : site ∈ tree.sites) :
    ∃ inner node, lower source nestingLimit inner = .ok node ∧ site ∈ node.sites [] := by
  obtain ⟨-, -, hbody⟩ := Tree.ofConcrete_eq_ok h
  obtain ⟨node, hnode, mem⟩ := List.mem_flatMap.mp mem
  obtain ⟨inner, hinner⟩ := Lowered.of_mapM hbody node hnode
  exact ⟨inner, node, hinner, mem⟩

/-- **The nesting limit, and what escapes it.** A tree keeps the limit exactly if the sites that
have an unmetered node on their way keep it: every other site does. Each unmetered node on the way
lets a site lie one level deeper, and no site lies deeper than twice the limit. -/
theorem Tree.levels_le_nestingLimit_iff {source : Source} {root : Concrete} {tree : Tree}
    (h : Tree.ofConcrete source root = .ok tree) :
    ((∀ site ∈ tree.sites, site.level ≤ nestingLimit) ↔
        ∀ site ∈ tree.sites, 0 < site.unmetered → site.level ≤ nestingLimit) ∧
      ∀ site ∈ tree.sites, site.level ≤ nestingLimit + site.unmetered ∧
        site.level ≤ 2 * nestingLimit := by
  have bound : ∀ site ∈ tree.sites, site.level ≤ nestingLimit + site.unmetered ∧
      site.level ≤ 2 * nestingLimit := by
    intro site mem
    obtain ⟨inner, node, hinner, mem⟩ := Tree.exists_lower_of_mem_sites h mem
    exact ⟨within_of_lower hinner site mem, shallow_of_lower hinner site mem⟩
  refine ⟨⟨fun all site mem _ => all site mem, fun escaping site mem => ?_⟩, bound⟩
  rcases Nat.eq_zero_or_pos site.unmetered with none | some
  · have := (bound site mem).1
    omega
  · exact escaping site mem some

/-! ## A source that nests too deep -/

section

variable {source : Source}

/-- The concrete tree of an empty list inside `depth` lists, from byte `start` on. -/
def Concrete.nestedLists (start : Nat) : Nat → Concrete
  | 0 =>
    .construct 0 0 "list" [] start (start + 2)
      [.token 0 0 "[" start, .token 0 0 "]" (start + 1)]
  | depth + 1 =>
    .construct 0 0 "list" [] start (start + 2 * depth + 4)
      [.token 0 0 "[" start, nestedLists (start + 1) depth, .token 0 0 "]" (start + 2 * depth + 3)]

/-- An empty list inside `depth` lists. -/
def Node.nestedLists : Nat → Node
  | 0 => .other (some 1) "list" []
  | depth + 1 => .other (some 1) "list" [nestedLists depth]

theorem Concrete.isPart_nestedLists (start depth : Nat) :
    (nestedLists start depth).isPart = true := by
  cases depth <;> rfl

theorem Concrete.hasBad_nestedLists (start depth : Nat) :
    (nestedLists start depth).hasBad = false := by
  induction depth generalizing start with
  | zero => rfl
  | succ depth ih =>
    simp only [nestedLists, construct, token, hasBad, anyBad, ih, Bool.or_self]

/-- The only part of a list around others is the next list; the brackets are tokens. -/
theorem Concrete.parts_nestedLists (start depth : Nat) :
    (nestedLists start (depth + 1)).parts = [nestedLists (start + 1) depth] :=
  List.filter_cons_of_pos (isPart_nestedLists _ _)

/-- Each list costs one level. -/
theorem lower_nestedLists {levels depth : Nat} (start : Nat) (h : depth < levels) :
    lower source levels (.nestedLists start depth) = .ok (.nestedLists depth) := by
  obtain ⟨fewer, rfl⟩ := Nat.exists_eq_succ_of_ne_zero (Nat.ne_zero_of_lt h)
  induction depth generalizing start fewer with
  | zero => rfl
  | succ depth ih =>
    obtain ⟨fewest, rfl⟩ := Nat.exists_eq_succ_of_ne_zero (by omega : fewer ≠ 0)
    have inner := ih (start + 1) fewest (by omega)
    show lowerOther (lower source (fewest + 1)) (.nestedLists start (depth + 1)) = _
    rw [lowerOther, lowerParts, Concrete.parts_nestedLists, List.mapM_cons, inner]
    rfl

/-- What is inside a node lies one level deeper than it does by itself. -/
theorem Node.exists_site_of_branch {node inner : Node} {role : Role} {level : Nat}
    (mem : (role, inner) ∈ node.branches) (h : ∃ site ∈ inner.sites [], site.level = level) :
    ∃ site ∈ node.sites [], site.level = level + 1 := by
  obtain ⟨site, hsite, rfl⟩ := h
  refine ⟨site.under [⟨node, role, inner⟩], ?_, ?_⟩
  · rw [sites_eq]
    refine List.mem_cons_of_mem _ (List.mem_flatMap.mpr ⟨(role, inner), mem, ?_⟩)
    rw [sites_under]
    exact List.mem_map_of_mem hsite
  · simp only [Site.level, Site.under, List.length_append, List.length_singleton]

/-- The innermost list lies one level deeper than there are lists around it. -/
theorem Node.exists_site_nestedLists (depth : Nat) :
    ∃ site ∈ (Node.nestedLists depth).sites [], site.level = depth + 1 := by
  induction depth with
  | zero => exact ⟨⟨[], _⟩, by rw [sites_eq]; exact List.mem_cons_self, rfl⟩
  | succ depth ih => exact exists_site_of_branch List.mem_cons_self ih

/-- The text `print >> [[…]], x`, with an empty list inside `depth` lists. -/
def shiftText (depth : Nat) : String :=
  "print >> " ++ String.ofList (List.replicate (depth + 1) '[' ++ List.replicate (depth + 1) ']')
    ++ ", x\n"

/-- The part `>> [[…]]` of that text. -/
def Concrete.chevron (depth : Nat) : Concrete :=
  .construct 0 0 "chevron" [] 6 (2 * depth + 11) [.token 0 0 ">>" 6, .nestedLists 9 depth]

/-- The part `x` of that text. -/
def Concrete.shiftValue (depth : Nat) : Concrete :=
  .construct 0 0 "identifier" ["argument"] (2 * depth + 13) (2 * depth + 14) []

/-- The statement that is all of that text. -/
def Concrete.shiftStatement (depth : Nat) : Concrete :=
  .construct 0 0 "print_statement" [] 0 (2 * depth + 14)
    [.token 0 0 "print" 0, .chevron depth, .token 0 0 "," (2 * depth + 11), .shiftValue depth]

/-- The concrete tree of that text. -/
def Concrete.shiftModule (depth : Nat) : Concrete :=
  .construct 0 0 "module" [] 0 (2 * depth + 15) [.shiftStatement depth]

/-- What the statement becomes if `value` is the text of its last part. -/
def Node.shiftStatement (depth : Nat) (value : String) : Node :=
  .tuple (some 1)
    [.other (some 1) "binary_operator" [.name (some 1) "print", .nestedLists depth],
      .name (some 1) value]

theorem Concrete.hasBad_shiftModule (depth : Nat) : (shiftModule depth).hasBad = false := by
  simp only [shiftModule, shiftStatement, chevron, shiftValue, construct, token, hasBad, anyBad,
    Concrete.hasBad_nestedLists, Bool.or_self]

/-- The chevron is gone through and costs no level, so all levels are left for the lists in it. -/
theorem lowerParts_chevron {levels depth : Nat} (h : depth < levels) :
    lowerParts (lower source levels) (.chevron depth) = .ok [.nestedLists depth] := by
  have parts : (Concrete.chevron depth).parts = [.nestedLists 9 depth] :=
    List.filter_cons_of_pos (Concrete.isPart_nestedLists _ _)
  rw [lowerParts, parts, List.mapM_cons, lower_nestedLists 9 h]
  rfl

/-- The statement costs one level and the lists cost one each; the shift costs none. -/
theorem lower_shiftStatement {levels depth : Nat} (h : depth < levels) :
    lower source (levels + 1) (.shiftStatement depth) =
      .ok (.shiftStatement depth (source.textOf (.shiftValue depth))) := by
  obtain ⟨fewer, rfl⟩ := Nat.exists_eq_succ_of_ne_zero (Nat.ne_zero_of_lt h)
  show (lowerParts (lower source (fewer + 1)) (.chevron depth) >>= _) = _
  rw [lowerParts_chevron h]
  rfl

/-- The whole text is accepted as long as the statement and the lists keep to the limit between
them. The shift is not counted. -/
theorem Tree.ofConcrete_shiftModule {depth : Nat} (h : depth + 1 < nestingLimit) :
    Tree.ofConcrete source (.shiftModule depth) =
      .ok ⟨source.name, [.shiftStatement depth (source.textOf (.shiftValue depth))]⟩ := by
  have statement : lower source 200 (.shiftStatement depth) = _ :=
    lower_shiftStatement (Nat.lt_of_succ_lt_succ h)
  rw [Tree.ofConcrete, Concrete.firstBad?_eq_none (Concrete.hasBad_shiftModule depth)]
  show ([Concrete.shiftStatement depth].mapM (lower source 200) >>= _) = _
  rw [List.mapM_cons, statement]
  rfl

/-- The innermost list lies three levels deeper in it than there are lists around it. -/
theorem Node.exists_site_shiftStatement (depth : Nat) (value : String) :
    ∃ site ∈ (Node.shiftStatement depth value).sites [], site.level = depth + 3 := by
  refine exists_site_of_branch List.mem_cons_self ?_
  refine exists_site_of_branch (List.mem_cons_of_mem _ List.mem_cons_self) ?_
  exact exists_site_nestedLists depth

end

/-- **The limit does not hold as it stands.** The text `print >> [[…]], x` with a list inside 198
lists is accepted, and its innermost list lies on level 201. -/
theorem Tree.nestingLimit_lt_level_shiftModule :
    ∃ tree, Tree.ofConcrete ⟨"test.py", shiftText 198⟩ (.shiftModule 198) = .ok tree ∧
      ∃ site ∈ tree.sites, nestingLimit < site.level := by
  have fits : 198 + 1 < nestingLimit := by decide
  refine ⟨_, Tree.ofConcrete_shiftModule fits, ?_⟩
  obtain ⟨site, mem, level⟩ := Node.exists_site_shiftStatement 198 _
  refine ⟨site, List.mem_flatMap.mpr ⟨_, List.mem_singleton_self _, mem⟩, ?_⟩
  rw [level]
  decide

/-- The same text meets what does hold of the limit. -/
theorem Tree.levels_le_shiftModule :
    ∃ tree, Tree.ofConcrete ⟨"test.py", shiftText 198⟩ (.shiftModule 198) = .ok tree ∧
      ((∀ site ∈ tree.sites, site.level ≤ nestingLimit) ↔
        ∀ site ∈ tree.sites, 0 < site.unmetered → site.level ≤ nestingLimit) ∧
      ∀ site ∈ tree.sites, site.level ≤ nestingLimit + site.unmetered ∧
        site.level ≤ 2 * nestingLimit := by
  have fits : 198 + 1 < nestingLimit := by decide
  have h : Tree.ofConcrete ⟨"test.py", shiftText 198⟩ (.shiftModule 198) = _ :=
    Tree.ofConcrete_shiftModule fits
  exact ⟨_, h, Tree.levels_le_nestingLimit_iff h⟩

end SourceAudit
