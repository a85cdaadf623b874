import SourceAudit.Proofs.Tree.Visit
import SourceAudit.Tree.Walk

/-!
# A walk announces every construct, and pruning only leaves out

A node is announced twice and a handler once. `Tree.listing` is all announcements of a tree in
document order, each with the events it lies inside; of a node the second announcement lies inside
the first. No walk is needed to write this list. Pruning is read off it: a walk leaves out exactly
the announcements that lie inside an event at a pruned hook (`Tree.events_eq_kept`), so a walk that
is pruned at more hooks leaves out more and reorders nothing.

At a construct the recorder announces its events, one inside the other, and goes on inside the last
(`Construct.walk_recorder`). The rest is by induction on what stands inside a construct.
-/

namespace SourceAudit

/-! ## The listing -/

/-- An event and the events it lies inside. -/
structure Announcement where
  /-- The events around, the innermost first. -/
  above : List Event
  event : Event

/-- Events one inside the other, the first outermost, all of them inside `above`. -/
def nested (above : List Event) : List Event → List Announcement
  | [] => []
  | event :: events => ⟨above, event⟩ :: nested (event :: above) events

/-- The events of a construct itself, the second inside the first. -/
def Construct.events : Construct → List Event
  | node inner =>
    [⟨.node, inner.line, .ofText? inner.identifier?⟩, ⟨inner.hook, inner.line, inner.detail⟩]
  | handler (.mk line _ name _) => [⟨.handler, line, .ofText? name⟩]

/-- The events that a place lies inside, the innermost first and that of the root last. -/
def Tree.Place.above (root : Event) (place : Tree.Place) : List Event :=
  place.around.flatMap (·.events.reverse) ++ [root]

/-- The announcements of a place itself. -/
def Tree.Place.announcements (root : Event) (place : Tree.Place) : List Announcement :=
  nested (place.above root) place.construct.events

/-- The event of a tree itself. -/
def Tree.event (tree : Tree) : Event := ⟨.module, none, .count tree.body.length⟩

/-- All announcements of a tree, in document order. -/
def Tree.listing (tree : Tree) : List Announcement :=
  ⟨[], tree.event⟩ :: tree.places.flatMap (Tree.Place.announcements tree.event)

/-- An announcement lies inside no event at a pruned hook. -/
def Announcement.kept (prune : Hook → Bool) (announcement : Announcement) : Bool :=
  announcement.above.all (!prune ·.hook)

theorem Announcement.kept_of_forall {prune : Hook → Bool} {announcement : Announcement}
    (h : ∀ event ∈ announcement.above, prune event.hook = false) :
    announcement.kept prune = true := by
  refine List.all_eq_true.mpr fun event mem => ?_
  rw [h event mem]
  rfl

/-- One pruned event around an announcement is enough to leave it out. -/
theorem Announcement.kept_eq_false {prune : Hook → Bool} {announcement : Announcement}
    {event : Event} (mem : event ∈ announcement.above) (pruned : prune event.hook = true) :
    announcement.kept prune = false := by
  refine List.all_eq_false.mpr ⟨event, mem, ?_⟩
  rw [pruned]
  decide

/-- What is around a chain of events is around each event in it. -/
theorem mem_above_of_mem_nested {above events : List Event} {announcement : Announcement}
    (h : announcement ∈ nested above events) {event : Event} (mem : event ∈ above) :
    event ∈ announcement.above := by
  induction events generalizing above with
  | nil => cases h
  | cons first events ih =>
    rcases List.mem_cons.mp h with rfl | h
    · exact mem
    · exact ih h (List.mem_cons_of_mem _ mem)

/-- Nesting events one in the other neither drops nor reorders any. -/
theorem map_event_nested (above events : List Event) :
    (nested above events).map (·.event) = events := by
  induction events generalizing above with
  | nil => rfl
  | cons first events ih => rw [nested, List.map_cons, ih]

/-! ## The walk of one construct -/

section

variable {prune : Hook → Bool}

/-- A walk that announces `events`, one inside the other, with `inner` inside the last. -/
def announcing (prune : Hook → Bool) (events : List Event) (inner : List Event → List Event) :
    List Event → List Event :=
  events.foldr (announce prune) inner

/-- What is announced is what is listed and kept, if what comes inside is. -/
theorem collects_announcing (above : List Event) {events : List Event}
    {inner : List Event → List Event} {later : List Announcement}
    (entered : ∀ event ∈ above, prune event.hook = false)
    (inside : ∀ announcement ∈ later, ∀ event ∈ events, event ∈ announcement.above)
    (h : (∀ event ∈ events, prune event.hook = false) →
      Collects inner ((later.filter (·.kept prune)).map (·.event))) :
    Collects (announcing prune events inner)
      (((nested above events ++ later).filter (·.kept prune)).map (·.event)) := by
  induction events generalizing above with
  | nil => exact h fun _ mem => by cases mem
  | cons event events ih =>
    have here : Announcement.kept prune ⟨above, event⟩ = true :=
      Announcement.kept_of_forall entered
    intro list
    rw [nested, List.cons_append, List.filter_cons, if_pos here, List.map_cons, announcing,
      List.foldr_cons, announce]
    cases pruned : prune event.hook with
    | true =>
      -- Everything that follows in the list lies inside the pruned event.
      rw [List.filter_eq_nil_iff.mpr fun announcement mem => ?_]
      · rfl
      · rw [Announcement.kept_eq_false ?_ pruned]
        · decide
        · rcases List.mem_append.mp mem with mem | mem
          · exact mem_above_of_mem_nested mem List.mem_cons_self
          · exact inside announcement mem event List.mem_cons_self
    | false =>
      have further := ih (event :: above) (List.forall_mem_cons.mpr ⟨pruned, entered⟩)
        (fun announcement mem other hother =>
          inside announcement mem other (List.mem_cons_of_mem _ hother))
        fun others => h (List.forall_mem_cons.mpr ⟨pruned, others⟩)
      exact (further _).trans (List.append_assoc list [event] _)

namespace Construct

/-- The recorder announces a construct, and inside the last of its events comes what is inside. -/
theorem walk_recorder (construct : Construct) :
    construct.walk (recorder prune) =
      announcing prune construct.events (walkAll (recorder prune) construct.inside) := by
  cases construct with
  | node outer =>
    rw [walk, Node.walk_eq, ← Node.run_descent]
    rfl
  | handler outer =>
    rw [walk, Handler.walk_eq]
    cases outer
    rfl

/-- What the walk of a construct announces is what is listed and kept. -/
theorem collects_recorder {root : Event} {around : List Construct} (construct : Construct)
    (entered : ∀ event ∈ Tree.Place.above root ⟨around, construct⟩, prune event.hook = false) :
    Collects (construct.walk (recorder prune))
      ((((construct.places around).flatMap (Tree.Place.announcements root)).filter
        (·.kept prune)).map (·.event)) := by
  induction construct using inside_induction generalizing around with
  | step construct ih =>
    rw [walk_recorder, places_eq, List.flatMap_cons]
    refine collects_announcing _ entered (fun announcement mem event hevent => ?_) fun own => ?_
    · -- Places further in have the construct around them.
      obtain ⟨place, hplace, mem⟩ := List.mem_flatMap.mp mem
      obtain ⟨inner, -, hplace⟩ := List.mem_flatMap.mp hplace
      have around := mem_around_of_mem_places List.mem_cons_self hplace
      refine mem_above_of_mem_nested mem (List.mem_append_left _ (List.mem_flatMap.mpr ?_))
      exact ⟨construct, around, List.mem_reverse.mpr hevent⟩
    · rw [List.flatMap_assoc, List.filter_flatMap, List.map_flatMap]
      refine Collects.walkAll fun inner mem => ih inner mem fun event hevent => ?_
      rw [Tree.Place.above, List.flatMap_cons, List.append_assoc, List.mem_append] at hevent
      rcases hevent with hevent | hevent
      · exact own event (List.mem_reverse.mp hevent)
      · exact entered event hevent

end Construct

/-! ## The walk of a tree -/

/-- A walk leaves out exactly the announcements that lie inside an event at a pruned hook. -/
theorem Tree.events_eq_kept (prune : Hook → Bool) (tree : Tree) :
    tree.events prune = (tree.listing.filter (·.kept prune)).map (·.event) := by
  have walked : Collects (announcing prune [tree.event] (walkNodes (recorder prune) tree.body))
      (((nested [] [tree.event] ++
        tree.places.flatMap (Tree.Place.announcements tree.event)).filter
          (·.kept prune)).map (·.event)) := by
    refine collects_announcing [] (fun _ mem => by cases mem)
      (fun announcement mem event hevent => ?_) fun entered => ?_
    · obtain ⟨place, -, mem⟩ := List.mem_flatMap.mp mem
      exact mem_above_of_mem_nested mem (List.mem_append_right _ hevent)
    · rw [Tree.places, List.flatMap_assoc, List.filter_flatMap, List.map_flatMap]
      exact .walkNodes fun node _ => (Construct.node node).collects_recorder entered
  exact walked []

end

/-- A walk that is pruned at more hooks announces some of what the other does, in the same order. -/
theorem Tree.events_sublist {prune fewer : Hook → Bool}
    (h : ∀ hook, fewer hook = true → prune hook = true) (tree : Tree) :
    (tree.events prune).Sublist (tree.events fewer) := by
  rw [Tree.events_eq_kept, Tree.events_eq_kept]
  refine (List.monotone_filter_right _ fun announcement kept => ?_).map _
  refine Announcement.kept_of_forall fun event mem => ?_
  by_contra pruned
  rw [Announcement.kept_eq_false mem (h _ (Bool.not_eq_false _ ▸ pruned))] at kept
  cases kept

/-- A walk that is not pruned announces each construct with all its events, one construct after the
other. -/
theorem Tree.events_unpruned (tree : Tree) :
    tree.events (fun _ => false) =
      tree.event :: tree.places.flatMap (·.construct.events) := by
  have all : ∀ announcement : Announcement, announcement.kept (fun _ => false) = true :=
    fun _ => Announcement.kept_of_forall fun _ _ => rfl
  rw [Tree.events_eq_kept, List.filter_eq_self.mpr fun announcement _ => all announcement,
    Tree.listing, List.map_cons, List.map_flatMap]
  simp only [Tree.Place.announcements, map_event_nested]

/-- A node is announced twice and a handler once. -/
theorem Construct.length_events (construct : Construct) :
    construct.events.length =
      2 * construct.node?.toList.length + construct.handler?.toList.length := by
  cases construct with
  | node inner => rfl
  | handler inner =>
    cases inner
    rfl

/-- Counted over all places, there are two announcements for each node and one for each handler. -/
theorem length_flatMap_events (places : List Tree.Place) :
    (places.flatMap (·.construct.events)).length =
      2 * (places.filterMap (·.construct.node?)).length +
        (places.filterMap (·.construct.handler?)).length := by
  rw [List.filterMap_eq_flatMap_toList, List.filterMap_eq_flatMap_toList]
  induction places with
  | nil => rfl
  | cons place places ih =>
    simp only [List.flatMap_cons, List.length_append, ih, Construct.length_events]
    omega

/-! ## The names -/

/-- The identifier that is announced at the hook of names. -/
def Event.name? (event : Event) : Option String :=
  match event.hook, event.detail with
  | .name, .text id => some id
  | _, _ => none

namespace Construct

/-- Only a name is an identifier itself; all others come from what is inside. -/
theorem collects_nameCollector_of_inside {construct : Construct} {found : List String}
    (inside : Collects (walkAll nameCollector construct.inside) found) :
    Collects (construct.walk nameCollector)
      (construct.events.filterMap Event.name? ++ found) := by
  cases construct with
  | handler outer =>
    rw [walk, Handler.walk_eq]
    cases outer
    exact inside
  | node outer =>
    rw [walk, Node.walk_eq]
    rw [← Node.run_descent] at inside
    cases outer with
    | name line id =>
      -- There is nothing inside a name.
      obtain rfl : found = [] := (inside []).symm
      exact fun list => rfl
    | _ => exact inside

/-- The collector of names finds at a construct what an unpruned walk would announce as names there.
It has one hook only, and goes on inside at every other. -/
theorem collects_nameCollector (around : List Construct) (construct : Construct) :
    Collects (construct.walk nameCollector)
      (((construct.places around).flatMap (·.construct.events)).filterMap Event.name?) := by
  induction construct using inside_induction generalizing around with
  | step construct ih =>
    rw [places_eq, List.flatMap_cons, List.filterMap_append, List.flatMap_assoc,
      List.filterMap_flatMap]
    exact collects_nameCollector_of_inside (.walkAll fun inner mem => ih inner mem _)

end Construct

/-- The names that are collected are those that an unpruned walk announces, in its order. -/
theorem Tree.names_eq_events (tree : Tree) :
    tree.names = (tree.events fun _ => false).filterMap Event.name? := by
  have root : tree.event.name? = none := rfl
  have collected : Collects (walkNodes nameCollector tree.body) (tree.body.flatMap fun node =>
      (((Construct.node node).places []).flatMap (·.construct.events)).filterMap Event.name?) :=
    .walkNodes fun node _ => (Construct.node node).collects_nameCollector []
  rw [Tree.events_unpruned, List.filterMap_cons, root, Tree.places, List.flatMap_assoc,
    List.filterMap_flatMap]
  exact collected []

/-- **A walk meets every construct once, in document order, and pruning only leaves out.** The
events of a walk are the listing without what lies inside a pruned event, so a walk that is pruned
at fewer hooks gives all events of one that is pruned at more, and further ones between them.
Without pruning each node gives two events that stand side by side and each handler gives one. A
walk that asks for names alone gives the identifiers of the names that are announced. -/
theorem Tree.events_pruned_listing (tree : Tree) :
    (∀ prune, tree.events prune = (tree.listing.filter (·.kept prune)).map (·.event)) ∧
      (∀ prune fewer : Hook → Bool, (∀ hook, fewer hook = true → prune hook = true) →
        (tree.events prune).Sublist (tree.events fewer)) ∧
      tree.events (fun _ => false) = tree.event :: tree.places.flatMap (·.construct.events) ∧
      (tree.events fun _ => false).length = 1 + 2 * tree.sites.length + tree.handlers.length ∧
      tree.names = (tree.events fun _ => false).filterMap Event.name? := by
  refine ⟨fun prune => tree.events_eq_kept prune, fun _ _ h => tree.events_sublist h,
    tree.events_unpruned, ?_, tree.names_eq_events⟩
  rw [Tree.events_unpruned, List.length_cons, length_flatMap_events, Tree.nodes_places,
    List.length_map, Tree.handlers]
  omega

/-- The tree of a protected call of `f` with a handler that calls `g`. -/
def Tree.handledCall : Tree where
  sourceName := "test.py"
  body :=
    [.tryBlock (some 1) [.call (some 2) (.name (some 2) "f") []]
      [.mk (some 3) (some (.name (some 3) "E")) none [.call (some 4) (.name (some 4) "g") []]]
      [] []]

/-- Pruned at handlers too, the walk of this tree leaves out what the handler holds. -/
theorem Tree.events_pruned_handledCall :
    (∀ hook : Hook, (hook == .call) = true → (hook == .call || hook == .handler) = true) ∧
      (Tree.handledCall.events fun hook => hook == .call || hook == .handler).length = 6 ∧
      (Tree.handledCall.events (· == .call)).length = 10 ∧
      (Tree.handledCall.events fun hook => hook == .call || hook == .handler).Sublist
        (Tree.handledCall.events (· == .call)) := by
  have more : ∀ hook : Hook,
      (hook == .call) = true → (hook == .call || hook == .handler) = true := by
    intro hook call
    rw [call]
    rfl
  exact ⟨more, by decide, by decide, (Tree.events_pruned_listing Tree.handledCall).2.1 _ _ more⟩

end SourceAudit
