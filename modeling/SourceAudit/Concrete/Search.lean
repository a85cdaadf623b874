import SourceAudit.Concrete.Basic

/-!
# The first bad node of a concrete tree

A cursor stands on a node and remembers what is still to come: the siblings behind it, and the
siblings behind each node above it. It moves down to the first child or on to the next node that
is not inside its own, climbing as far as it must.

The search goes down only where something bad is to be found and passes over every other subtree
as a whole. It ends because each move leaves fewer nodes to come.
-/

namespace SourceAudit

mutual

/-- Whether a node or one inside it is bad. -/
def Concrete.hasBad : Concrete → Bool
  | .mk tag children => tag.error || tag.missing || anyBad children

def anyBad : List Concrete → Bool
  | [] => false
  | node :: nodes => node.hasBad || anyBad nodes

end

mutual

/-- The number of nodes in a tree. -/
def Concrete.size : Concrete → Nat
  | .mk _ children => sizes children + 1

def sizes : List Concrete → Nat
  | [] => 0
  | node :: nodes => node.size + sizes nodes

end

/-- The number of nodes in several lists of trees. -/
def allSizes : List (List Concrete) → Nat
  | [] => 0
  | nodes :: rest => sizes nodes + allSizes rest

/-- A place in a tree and what comes after it. -/
structure Cursor where
  /-- The node it stands on. -/
  focus : Concrete
  /-- The siblings behind that node. -/
  later : List Concrete
  /-- The siblings behind each node above, the nearest first. -/
  above : List (List Concrete)

namespace Cursor

/-- The nodes still to come, the focus and what is inside it counted. -/
def pending (cursor : Cursor) : Nat :=
  cursor.focus.size + sizes cursor.later + allSizes cursor.above

/-- Down to the first child. -/
def down? (cursor : Cursor) : Option Cursor :=
  match cursor.focus with
  | .mk _ [] => none
  | .mk _ (child :: children) => some ⟨child, children, cursor.later :: cursor.above⟩

/-- The first of `later`, or else the first sibling behind a node above. -/
def advance? (later : List Concrete) : List (List Concrete) → Option Cursor
  | [] =>
    match later with
    | [] => none
    | node :: nodes => some ⟨node, nodes, []⟩
  | siblings :: above =>
    match later with
    | [] => advance? siblings above
    | node :: nodes => some ⟨node, nodes, siblings :: above⟩

/-- On to the next node that is not inside the focus. -/
def next? (cursor : Cursor) : Option Cursor := advance? cursor.later cursor.above

/-- Moving down leaves the focus behind, so fewer nodes are still to come. -/
theorem pending_of_down? {cursor target : Cursor} (h : cursor.down? = some target) :
    target.pending < cursor.pending := by
  obtain ⟨⟨tag, children⟩, later, above⟩ := cursor
  cases children with
  | nil => simp [down?] at h
  | cons child children =>
    simp only [down?, Option.some.injEq] at h
    subst h
    simp only [pending, Concrete.size, sizes, allSizes]
    omega

/-- Climbing loses nothing: what is to come at the target is all that was to come behind the
focus. -/
theorem pending_of_advance? {later : List Concrete} {above : List (List Concrete)}
    {target : Cursor} (h : advance? later above = some target) :
    target.pending = sizes later + allSizes above := by
  induction above generalizing later with
  | nil =>
    cases later with
    | nil => simp [advance?] at h
    | cons node nodes =>
      simp only [advance?, Option.some.injEq] at h
      subst h
      simp [pending, sizes, allSizes]
  | cons siblings above ih =>
    cases later with
    | nil =>
      simp only [advance?] at h
      simp [ih h, sizes, allSizes]
    | cons node nodes =>
      simp only [advance?, Option.some.injEq] at h
      subst h
      simp [pending, sizes, allSizes]

/-- Moving on leaves the focus behind with all that is inside it. -/
theorem pending_of_next? {cursor target : Cursor} (h : cursor.next? = some target) :
    target.pending < cursor.pending := by
  have positive : 0 < cursor.focus.size := by
    cases cursor.focus
    simp [Concrete.size]
  have same := pending_of_advance? h
  simp only [pending] at same ⊢
  omega

/-- Where the search goes from a node that is not bad itself: down if there is something bad
inside, and past it otherwise. -/
def step? (cursor : Cursor) : Option Cursor :=
  if cursor.focus.hasBad then cursor.down? <|> cursor.next? else cursor.next?

/-- Every step of the search leaves fewer nodes to come, which is why it ends. -/
theorem pending_of_step? {cursor target : Cursor} (h : cursor.step? = some target) :
    target.pending < cursor.pending := by
  unfold step? at h
  split at h
  · cases hd : cursor.down? with
    | none =>
      rw [hd] at h
      exact pending_of_next? h
    | some below =>
      rw [hd] at h
      cases h
      exact pending_of_down? hd
  · exact pending_of_next? h

/-- The first bad node from the cursor on. -/
def search (cursor : Cursor) : Option Concrete :=
  if cursor.focus.isBad then some cursor.focus
  else
    match _h : cursor.step? with
    | none => none
    | some target => search target
  termination_by cursor.pending
  decreasing_by exact pending_of_step? _h

end Cursor

/-- The first bad node of a tree, in document order. -/
def Concrete.firstBad? (root : Concrete) : Option Concrete := Cursor.search ⟨root, [], []⟩

end SourceAudit
