import SourceAudit.Concrete.Search
import SourceAudit.Proofs.Concrete.Site

/-!
# Where the cursor has still to go

A cursor stands for the nodes that are still to come, in document order: its focus with all that is
inside it, the siblings behind it, and the siblings behind each node above. Moving down drops the
focus from these nodes, moving on drops the focus and all that is inside it, and nothing else is
lost. So the search finds the first bad one among them (`Cursor.search_eq`).

That the search ends is said by its runs: `Cursor.Run` goes from one place to the next without any
bound, and there is exactly one finite run from each cursor. It looks at no node twice, because what
it looks at stands in document order.
-/

namespace SourceAudit

mutual

/-- The nodes of a tree in document order, tokens as well. -/
def Concrete.preorder : Concrete → List Concrete
  | .mk tag children => .mk tag children :: preorders children

def preorders : List Concrete → List Concrete
  | [] => []
  | node :: nodes => node.preorder ++ preorders nodes

end

mutual

/-- Whether a tree has a bad node is known from the nodes in document order, so the test that steers
the search looks at no other nodes than the search itself might. -/
theorem Concrete.any_preorder : ∀ node : Concrete, node.preorder.any Concrete.isBad = node.hasBad
  | .mk tag children => by
    rw [Concrete.preorder, List.any_cons, any_preorders children]
    rfl

theorem any_preorders : ∀ nodes : List Concrete, (preorders nodes).any Concrete.isBad = anyBad nodes
  | [] => rfl
  | node :: nodes => by
    rw [preorders, List.any_append, Concrete.any_preorder node, any_preorders nodes, anyBad]

end

namespace Cursor

/-- The nodes still to come, in document order. -/
def upcoming (cursor : Cursor) : List Concrete :=
  cursor.focus.preorder ++ preorders cursor.later ++ cursor.above.flatMap preorders

/-- Moving on passes over the focus with all that is inside it. -/
theorem upcoming_of_advance? {later : List Concrete} {above : List (List Concrete)} :
    ((advance? later above).map upcoming).getD [] = preorders later ++ above.flatMap preorders := by
  induction above generalizing later with
  | nil =>
    cases later with
    | nil => rfl
    | cons node nodes => rfl
  | cons siblings above ih =>
    cases later with
    | nil => exact ih
    | cons node nodes => rfl

/-- To move on is to leave the focus and what is inside it behind, and no more. -/
theorem upcoming_of_next? (cursor : Cursor) :
    (cursor.next?.map upcoming).getD [] =
      preorders cursor.later ++ cursor.above.flatMap preorders :=
  upcoming_of_advance?

/-- Moving down passes over the focus alone. -/
theorem upcoming_of_down? {cursor target : Cursor} (h : cursor.down? = some target) :
    cursor.upcoming = cursor.focus :: target.upcoming := by
  obtain ⟨⟨tag, children⟩, later, above⟩ := cursor
  cases children with
  | nil => cases h
  | cons child children =>
    cases h
    simp only [upcoming, Concrete.preorder, preorders, List.flatMap_cons, List.cons_append,
      List.append_assoc]

/-- A tree that is passed over as a whole has no bad node in it. -/
theorem find?_eq_none_of_hasBad {node : Concrete} (h : node.hasBad = false) :
    node.preorder.find? Concrete.isBad = none := by
  rw [← Concrete.any_preorder, List.any_eq_false] at h
  exact List.find?_eq_none.mpr h

/-- A step leaves the focus behind, and with it only nodes that are not bad. -/
theorem upcoming_of_step? (cursor : Cursor) :
    ∃ passed, cursor.upcoming =
        cursor.focus :: (passed ++ (cursor.step?.map upcoming).getD []) ∧
      ∀ node ∈ passed, node.isBad = false := by
  obtain ⟨⟨tag, children⟩, later, above⟩ := cursor
  unfold step?
  split
  next bad =>
    refine ⟨[], ?_, fun _ mem => absurd mem List.not_mem_nil⟩
    cases children with
    | nil =>
      -- With nothing inside the focus, there is nothing to pass over.
      show _ = _ :: ((next? _).map upcoming).getD []
      rw [upcoming_of_next?]
      rfl
    | cons child children => exact upcoming_of_down? rfl
  next clean =>
    have good : ∀ node ∈ (Concrete.mk tag children).preorder, ¬node.isBad = true :=
      List.any_eq_false.mp ((Concrete.any_preorder _).trans (Bool.not_eq_true _ ▸ clean))
    refine ⟨preorders children, ?_, ?_⟩
    · rw [upcoming_of_next?, ← List.append_assoc]
      rfl
    · intro node mem
      exact Bool.not_eq_true _ ▸ good node (List.mem_cons_of_mem _ mem)

/-- A step from a focus that is not bad passes over no bad node. -/
theorem find?_upcoming_step? {cursor : Cursor} (h : cursor.focus.isBad = false) :
    cursor.upcoming.find? Concrete.isBad =
      ((cursor.step?.map upcoming).getD []).find? Concrete.isBad := by
  obtain ⟨passed, ahead, good⟩ := cursor.upcoming_of_step?
  have nothing : passed.find? Concrete.isBad = none := by
    apply List.find?_eq_none.mpr
    intro node mem
    rw [good node mem]
    exact Bool.false_ne_true
  rw [ahead, List.find?_cons, h, List.find?_append, nothing, Option.none_or]

/-- The search finds the first bad node that is still to come. -/
theorem search_eq (cursor : Cursor) :
    cursor.search = cursor.upcoming.find? Concrete.isBad := by
  fun_induction search cursor with
  | case1 cursor bad =>
    obtain ⟨⟨tag, children⟩, later, above⟩ := cursor
    rw [upcoming, Concrete.preorder, List.cons_append, List.cons_append,
      List.find?_cons_of_pos bad]
  | case2 cursor good step =>
    rw [find?_upcoming_step? (Bool.not_eq_true _ ▸ good), step]
    rfl
  | case3 cursor good target step ih =>
    rw [find?_upcoming_step? (Bool.not_eq_true _ ▸ good), step, ih]
    rfl

/-! ## Runs of the search -/

/-- A run of the search from a cursor: the nodes that it looks at, one after the other, and its
answer. -/
inductive Run : Cursor → List Concrete → Option Concrete → Prop
  | found {cursor : Cursor} (bad : cursor.focus.isBad = true) :
      Run cursor [cursor.focus] (some cursor.focus)
  | ends {cursor : Cursor} (good : cursor.focus.isBad = false) (last : cursor.step? = none) :
      Run cursor [cursor.focus] none
  | moves {cursor target : Cursor} {stops : List Concrete} {answer : Option Concrete}
      (good : cursor.focus.isBad = false) (step : cursor.step? = some target)
      (onward : Run target stops answer) : Run cursor (cursor.focus :: stops) answer

section

variable {cursor : Cursor} {stops others : List Concrete} {answer another : Option Concrete}

/-- The search is a run: it comes to an end and gives the answer of `search`. -/
theorem exists_run (cursor : Cursor) : ∃ stops, Run cursor stops cursor.search := by
  fun_induction search cursor with
  | case1 cursor bad => exact ⟨_, .found bad⟩
  | case2 cursor good step => exact ⟨_, .ends (Bool.not_eq_true _ ▸ good) step⟩
  | case3 cursor good target step ih =>
    obtain ⟨stops, onward⟩ := ih
    exact ⟨_, .moves (Bool.not_eq_true _ ▸ good) step onward⟩

/-- There is only one run from a cursor, for a step has only one outcome. -/
theorem Run.unique (run : Run cursor stops answer) (other : Run cursor others another) :
    others = stops ∧ another = answer := by
  induction run generalizing others another with
  | found bad =>
    cases other with
    | found => exact ⟨rfl, rfl⟩
    | ends good => cases bad.symm.trans good
    | moves good => cases bad.symm.trans good
  | ends good last =>
    cases other with
    | found bad => cases bad.symm.trans good
    | ends => exact ⟨rfl, rfl⟩
    | moves _ step => cases last.symm.trans step
  | moves good step _ ih =>
    cases other with
    | found bad => cases bad.symm.trans good
    | ends _ last => cases last.symm.trans step
    | moves _ same onward =>
      cases step.symm.trans same
      obtain ⟨rfl, rfl⟩ := ih onward
      exact ⟨rfl, rfl⟩

/-- The focus can stand before nodes that come after a step. -/
theorem sublist_of_step? (onward : stops.Sublist ((cursor.step?.map upcoming).getD [])) :
    (cursor.focus :: stops).Sublist cursor.upcoming := by
  obtain ⟨passed, ahead, -⟩ := cursor.upcoming_of_step?
  rw [ahead, List.cons_sublist_cons]
  exact onward.trans (List.sublist_append_right _ _)

/-- A run looks at some of the nodes that are still to come, in their order. -/
theorem Run.sublist (run : Run cursor stops answer) : stops.Sublist cursor.upcoming := by
  induction run with
  | found => exact sublist_of_step? (List.nil_sublist _)
  | ends => exact sublist_of_step? (List.nil_sublist _)
  | moves _ step _ ih =>
    apply sublist_of_step?
    rw [step]
    exact ih

end

end Cursor

/-- The cursor on the root of a tree has all its nodes still to come. -/
theorem Concrete.upcoming_root (root : Concrete) :
    Cursor.upcoming ⟨root, [], []⟩ = root.preorder := by
  rw [Cursor.upcoming, preorders, List.flatMap_nil, List.append_nil, List.append_nil]

/-- The first bad node of a tree is the first in document order. -/
theorem Concrete.firstBad?_eq (root : Concrete) :
    root.firstBad? = root.preorder.find? Concrete.isBad := by
  rw [Concrete.firstBad?, Cursor.search_eq, Concrete.upcoming_root]

/-- Nothing is found in a tree that holds nothing bad. -/
theorem Concrete.firstBad?_eq_none {root : Concrete} (h : root.hasBad = false) :
    root.firstBad? = none := by
  rw [Concrete.firstBad?_eq]
  exact Cursor.find?_eq_none_of_hasBad h

/-- **The search is exact.** From the root of any tree there is one run, and it looks at each node
once at most, in document order. Its answer is a node exactly if that node is bad and no node before
it in document order is, and there is no answer exactly if no node is bad. A node is taken to hold
something bad exactly if it is bad or one inside it is, and so no step of the search passes over a
bad node. -/
theorem Concrete.firstBad?_exact (root : Concrete) :
    (∃ stops, Cursor.Run ⟨root, [], []⟩ stops root.firstBad? ∧ stops.Sublist root.preorder ∧
        ∀ others answer, Cursor.Run ⟨root, [], []⟩ others answer →
          others = stops ∧ answer = root.firstBad?) ∧
      (∀ node, root.firstBad? = some node ↔ node.isBad = true ∧
        ∃ before after, root.preorder = before ++ node :: after ∧
          ∀ earlier ∈ before, earlier.isBad = false) ∧
      (root.firstBad? = none ↔ ∀ node ∈ root.preorder, node.isBad = false) ∧
      (∀ node : Concrete, node.hasBad = true ↔ ∃ inner ∈ node.preorder, inner.isBad = true) ∧
      ∀ cursor : Cursor, ∃ passed,
        cursor.upcoming = cursor.focus :: (passed ++ (cursor.step?.map Cursor.upcoming).getD []) ∧
          ∀ node ∈ passed, node.isBad = false := by
  refine ⟨?_, ?_, ?_, ?_, Cursor.upcoming_of_step?⟩
  · obtain ⟨stops, run⟩ := Cursor.exists_run ⟨root, [], []⟩
    exact ⟨stops, run, root.upcoming_root ▸ run.sublist, fun _ _ other => run.unique other⟩
  · intro node
    rw [Concrete.firstBad?_eq, List.find?_eq_some_iff_append]
    simp only [Bool.not_eq_true']
  · rw [Concrete.firstBad?_eq, List.find?_eq_none]
    simp only [Bool.not_eq_true]
  · intro node
    rw [← Concrete.any_preorder, List.any_eq_true]

/-- The closing bracket that a grammar supplies behind `g(` on the second line. -/
def Concrete.missingBracket : Concrete := .mk ⟨")", [], false, false, false, true, 4, 4, 1, 2⟩ []

/-- The concrete tree of the lines `f` and `g(`. -/
def Concrete.unclosedModule : Concrete :=
  construct 0 0 "module" [] 0 5
    [construct 0 0 "identifier" [] 0 1 [],
      construct 1 2 "call" [] 2 4
        [construct 1 2 "identifier" ["function"] 2 3 [],
          construct 1 2 "argument_list" ["arguments"] 3 4 [token 1 2 "(" 3, missingBracket]]]

/-- The bracket is found, and every run comes to it. -/
theorem Concrete.firstBad?_unclosedModule :
    unclosedModule.firstBad? = some missingBracket ∧
      ∃ stops, Cursor.Run ⟨unclosedModule, [], []⟩ stops (some missingBracket) ∧
        ∀ others answer, Cursor.Run ⟨unclosedModule, [], []⟩ others answer →
          others = stops ∧ answer = some missingBracket := by
  obtain ⟨⟨stops, run, -, unique⟩, found, -⟩ := Concrete.firstBad?_exact unclosedModule
  have bracket : unclosedModule.firstBad? = some missingBracket :=
    (found _).mpr ⟨rfl, unclosedModule.preorder.take 6, [], rfl, by decide⟩
  rw [bracket] at run unique
  exact ⟨bracket, stops, run, unique⟩

end SourceAudit
