import Mathlib.Data.List.Basic
import SourceAudit.Scope

/-!
# What a scope leaves behind

A run is described by its **visits**: the steps that are carried out, in order, each with the owner
that it finds and with the scopes and catches that stand around it. What comes after a failure, up
to the nearest catch, is not visited.

In these terms a slot is lexical. A step that stands in no scope finds the value of the last `set`
before it that stands in no scope either (`Lexical`), and so does whoever looks at the slot in the
end; what happens in scopes cannot be told from the slot, however they are left. The visits of a
scope are those of its body with the value of the scope in the slot (`HoldsBodies`), so the same
holds in every scope, for the steps that stand in no further one. The trace, on the other hand,
keeps what every look saw, and failing is a matter of catches alone.

That the visits of a program describe its run (`describes`) is shown for one step, given that those
of its body describe the body, and then for programs by `program_induction`.
-/

namespace SourceAudit

namespace Scope

variable {α : Type}

/-- What can stand around a step. -/
inductive Frame where
  /-- A scope. -/
  | scope
  /-- A catch. -/
  | shield
  deriving DecidableEq, Repr

/-- A step that is carried out. -/
structure Visit (α : Type) where
  /-- What stands around the step, from the outside inwards. -/
  around : List Frame := []
  command : Command α
  /-- The owner that the step finds. -/
  before : Owner α

namespace Visit

/-- The same visit with more around it. -/
def inside (frames : List Frame) (visit : Visit α) : Visit α :=
  { visit with around := frames ++ visit.around }

/-- What comes of the step, and whether it fails. -/
def outcome (visit : Visit α) : Bool × Owner α := visit.command.run visit.before

/-- The value that the step sets in no scope. -/
def set? (visit : Visit α) : Option α :=
  match visit.command with
  | .set value => if .scope ∈ visit.around then none else some value
  | _ => none

/-- What the step sees if it looks at the slot. -/
def seen? (visit : Visit α) : Option α :=
  match visit.command with
  | .get => some visit.before.slot
  | _ => none

/-- A failure that nothing around it catches. -/
def Escapes (visit : Visit α) : Prop := visit.command = .fail ∧ .shield ∉ visit.around

end Visit

/-- What a look saw. -/
def Note.saw? : Note α → Option α
  | saw value => some value
  | _ => none

mutual

/-- The visits of one step. -/
def Command.visits : Command α → Owner α → List (Visit α)
  | .enter value body, owner =>
    { command := .enter value body, before := owner } ::
      (Scope.visits body { owner with slot := value }).map (·.inside [.scope])
  | .catch body, owner =>
    { command := .catch body, before := owner } ::
      (Scope.visits body owner).map (·.inside [.shield])
  | command, owner => [{ command, before := owner }]

/-- The visits of steps that are run one after the other, up to a failure. -/
def visits : List (Command α) → Owner α → List (Visit α)
  | [], _ => []
  | command :: commands, owner =>
    command.visits owner ++
      if (command.run owner).1 then [] else visits commands (command.run owner).2

end

/-- The value of the last `set` in no scope, or `start` if there is none. -/
def lastSet (visits : List (Visit α)) (start : α) : α :=
  (visits.filterMap Visit.set?).getLastD start

/-! ## Programs step by step -/

/-- The steps inside a step. -/
def Command.body : Command α → List (Command α)
  | enter _ body => body
  | .catch body => body
  | _ => []

/-- A law of programs: it holds for a step, then the rest, if it holds for the body of the step and
for the rest. -/
theorem program_induction {motive : List (Command α) → Prop} (nil : motive [])
    (cons : ∀ command rest, motive command.body → motive rest → motive (command :: rest)) :
    ∀ program, motive program
  | [] => nil
  | .get :: rest => cons .get rest nil (program_induction nil cons rest)
  | .set value :: rest => cons (.set value) rest nil (program_induction nil cons rest)
  | .fail :: rest => cons .fail rest nil (program_induction nil cons rest)
  | .enter value body :: rest =>
    cons (.enter value body) rest (program_induction nil cons body)
      (program_induction nil cons rest)
  | .catch body :: rest =>
    cons (.catch body) rest (program_induction nil cons body) (program_induction nil cons rest)

/-- A program goes on behind its first step unless the step fails. -/
theorem runAll_cons (command : Command α) (rest : List (Command α)) (owner : Owner α) :
    runAll (command :: rest) owner =
      if (command.run owner).1 then command.run owner
      else runAll rest (command.run owner).2 := by
  rw [runAll]
  obtain ⟨failed, after⟩ := command.run owner
  cases failed with
  | true => rfl
  | false => rfl

/-- A scope puts back the slot and keeps the trace, whether or not its body fails. -/
theorem run_enter (value : α) (body : List (Command α)) (owner : Owner α) :
    (Command.enter value body).run owner =
      let inside := runAll body { owner with slot := value }
      (inside.1, ⟨owner.slot,
        inside.2.trace ++ if inside.1 then [] else [.leaving inside.2.slot]⟩) := by
  rw [Command.run, Slot.enter]
  dsimp only [Owner.place]
  obtain ⟨failed, after⟩ := runAll body { owner with slot := value }
  cases failed with
  | true => simp
  | false => rfl

/-- A catch keeps what its body does to the slot and the trace, and takes its failure away. -/
theorem run_catch (body : List (Command α)) (owner : Owner α) :
    (Command.catch body).run owner =
      let inside := runAll body owner
      (false, inside.2.note (if inside.1 then .caught else .finished)) := by
  rw [Command.run]

/-! ## Visits with a frame around them -/

namespace Visit

/-- A scope lets failures through. -/
theorem escapes_inside_scope (visit : Visit α) :
    (visit.inside [.scope]).Escapes ↔ visit.Escapes := by
  simp [Escapes, inside]

/-- A catch lets no failure through. -/
theorem not_escapes_inside_shield (visit : Visit α) : ¬ (visit.inside [.shield]).Escapes := by
  simp [Escapes, inside]

/-- What is set in a scope is not set outside of it. -/
theorem set?_inside_scope (visit : Visit α) : (visit.inside [.scope]).set? = none := by
  unfold set?
  split
  next => exact if_pos List.mem_cons_self
  next => rfl

/-- What is set under a catch is set outside of it as well. -/
theorem set?_inside_shield (visit : Visit α) : (visit.inside [.shield]).set? = visit.set? := by
  simp [set?, inside]

theorem inside_inside (frames others : List Frame) (visit : Visit α) :
    (visit.inside others).inside frames = visit.inside (frames ++ others) := by
  simp [inside]

end Visit

/-! ## The slot in the course of visits -/

/-- The later of two parts decides if it sets anything, and otherwise the earlier does. -/
theorem lastSet_append (first second : List (Visit α)) (start : α) :
    lastSet (first ++ second) start = lastSet second (lastSet first start) := by
  simp only [lastSet, List.filterMap_append, List.getLastD_eq_getLast?, List.getLast?_append]
  cases (second.filterMap Visit.set?).getLast? with
  | none => rfl
  | some value => rfl

theorem lastSet_cons (visit : Visit α) (later : List (Visit α)) (start : α) :
    lastSet (visit :: later) start = lastSet later (visit.set?.getD start) := by
  rw [← List.singleton_append, lastSet_append]
  congr 1
  rw [lastSet]
  cases found : visit.set? with
  | none =>
    rw [List.filterMap_cons_none found]
    rfl
  | some value =>
    rw [List.filterMap_cons_some found]
    rfl

/-- A scope leaves the slot as it found it, whatever is set inside. -/
theorem lastSet_map_scope (start : α) (visits : List (Visit α)) :
    lastSet (visits.map (·.inside [.scope])) start = start := by
  rw [lastSet, List.filterMap_map, List.filterMap_eq_nil_iff.mpr]
  · rfl
  · intro visit _
    exact visit.set?_inside_scope

/-- A catch leaves in the slot what its body does. -/
theorem lastSet_map_shield (start : α) (visits : List (Visit α)) :
    lastSet (visits.map (·.inside [.shield])) start = lastSet visits start := by
  rw [lastSet, List.filterMap_map]
  simp only [Function.comp_def, Visit.set?_inside_shield]
  rfl

/-- Every visit in no scope finds what the visits before it have set in no scope. -/
def Lexical (start : α) : List (Visit α) → Prop
  | [] => True
  | visit :: later =>
    (.scope ∉ visit.around → visit.before.slot = start) ∧ Lexical (visit.set?.getD start) later

/-- Two parts are lexical together if the first is, and the second from where the first leaves the
slot. -/
theorem lexical_append (first second : List (Visit α)) (start : α) :
    Lexical start (first ++ second) ↔
      Lexical start first ∧ Lexical (lastSet first start) second := by
  induction first generalizing start with
  | nil => simp [Lexical, lastSet]
  | cons visit first ih =>
    rw [List.cons_append, Lexical, Lexical, ih, lastSet_cons, and_assoc]

/-- Of steps in a scope nothing is asked outside of it, so they are lexical from any start. What is
asked of them inside is a matter of the body. -/
theorem lexical_map_scope (start : α) (visits : List (Visit α)) :
    Lexical start (visits.map (·.inside [.scope])) := by
  induction visits generalizing start with
  | nil => trivial
  | cons visit visits ih => exact ⟨fun outside => absurd List.mem_cons_self outside, ih _⟩

/-- A catch does not hide the steps in it, so these are lexical as they are without it. -/
theorem Lexical.map_shield {start : α} {visits : List (Visit α)} (lexical : Lexical start visits) :
    Lexical start (visits.map (·.inside [.shield])) := by
  induction visits generalizing start with
  | nil => trivial
  | cons visit visits ih =>
    refine ⟨?_, ?_⟩
    · intro outside
      exact lexical.1 fun within => outside (List.mem_cons_of_mem _ within)
    · rw [Visit.set?_inside_shield]
      exact ih lexical.2

/-! ## Visits describe a run -/

/-- What the visits of a run that starts with `owner` tell about its result. -/
structure Describes (visits : List (Visit α)) (owner : Owner α) (result : Bool × Owner α) :
    Prop where
  fails : result.1 = true ↔ ∃ visit ∈ visits, visit.Escapes
  slot : result.2.slot = lastSet visits owner.slot
  grows : owner.trace <+: result.2.trace
  seen : result.2.trace.filterMap Note.saw? =
    owner.trace.filterMap Note.saw? ++ visits.filterMap Visit.seen?
  lexical : Lexical owner.slot visits

namespace Describes

theorem nil (owner : Owner α) : Describes [] owner (false, owner) where
  fails := by simp
  slot := rfl
  grows := List.prefix_refl _
  seen := (List.append_nil _).symm
  lexical := trivial

/-- Where a first part ends without failure, a second part goes on with what it leaves. -/
theorem append {first second : List (Visit α)} {owner middle : Owner α} {result : Bool × Owner α}
    (before : Describes first owner (false, middle)) (after : Describes second middle result) :
    Describes (first ++ second) owner result where
  fails := by
    have caught : ¬ ∃ visit ∈ first, visit.Escapes := mt before.fails.mpr Bool.false_ne_true
    rw [after.fails]
    simp only [List.mem_append, or_and_right, exists_or, caught, false_or]
  slot := by rw [after.slot, before.slot, lastSet_append]
  grows := before.grows.trans after.grows
  seen := by rw [after.seen, before.seen, List.filterMap_append, List.append_assoc]
  lexical := by
    rw [lexical_append, ← before.slot]
    exact ⟨before.lexical, after.lexical⟩

theorem get (owner : Owner α) :
    Describes [{ command := .get, before := owner }] owner (Command.get.run owner) where
  fails := by simp [Command.run, Visit.Escapes]
  slot := by simp [Command.run, lastSet, Visit.set?, Owner.note]
  grows := List.prefix_append _ _
  seen := by simp [Command.run, Owner.note, Note.saw?, Visit.seen?]
  lexical := ⟨fun _ => rfl, trivial⟩

theorem set (value : α) (owner : Owner α) :
    Describes [{ command := .set value, before := owner }] owner
      ((Command.set value).run owner) where
  fails := by simp [Command.run, Visit.Escapes]
  slot := by simp [Command.run, lastSet, Visit.set?]
  grows := List.prefix_refl _
  seen := by simp [Command.run, Visit.seen?]
  lexical := ⟨fun _ => rfl, trivial⟩

theorem fail (owner : Owner α) :
    Describes [{ command := .fail, before := owner }] owner (Command.fail.run owner) where
  fails := by simp [Command.run, Visit.Escapes]
  slot := by simp [Command.run, lastSet, Visit.set?]
  grows := List.prefix_refl _
  seen := by simp [Command.run, Visit.seen?]
  lexical := ⟨fun _ => rfl, trivial⟩

/-- A scope is described by the visits of its body, if the body is. Its value is in the slot for
these visits and gone behind them, and the failure of the body goes through. -/
theorem enter {value : α} {body : List (Command α)} {owner : Owner α}
    (inner : Describes (visits body { owner with slot := value }) { owner with slot := value }
      (runAll body { owner with slot := value })) :
    Describes ((Command.enter value body).visits owner) owner
      ((Command.enter value body).run owner) := by
  rw [run_enter, Command.visits]
  refine ⟨?_, ?_, ?_, ?_, ?_⟩
  -- A failure escapes from the scope if it escapes from the body.
  · rw [inner.fails]
    simp only [List.mem_cons, exists_eq_or_imp, List.mem_map, exists_exists_and_eq_and,
      Visit.escapes_inside_scope]
    refine (or_iff_right ?_).symm
    rintro ⟨isFail, -⟩
    cases isFail
  · rw [lastSet_cons, lastSet_map_scope]
    rfl
  · exact inner.grows.trans (List.prefix_append _ _)
  · have leaving : (if (runAll body { owner with slot := value }).1 then []
        else [Note.leaving (runAll body { owner with slot := value }).2.slot]).filterMap
          Note.saw? = [] := by split <;> rfl
    rw [List.filterMap_append, leaving, List.append_nil, inner.seen]
    simp only [List.filterMap_cons, List.filterMap_map]
    rfl
  · exact ⟨fun _ => rfl, lexical_map_scope _ _⟩

/-- A catch is described by the visits of its body, if the body is, and does not fail. -/
theorem shield {body : List (Command α)} {owner : Owner α}
    (inner : Describes (visits body owner) owner (runAll body owner)) :
    Describes ((Command.catch body).visits owner) owner ((Command.catch body).run owner) := by
  rw [run_catch, Command.visits]
  refine ⟨?_, ?_, ?_, ?_, ?_⟩
  -- No failure escapes from a catch.
  · simp only [List.mem_cons, exists_eq_or_imp, List.mem_map, exists_exists_and_eq_and,
      Visit.not_escapes_inside_shield]
    simp [Visit.Escapes]
  · rw [lastSet_cons, lastSet_map_shield]
    exact inner.slot
  · exact inner.grows.trans (List.prefix_append _ _)
  · have ending : [if (runAll body owner).1 then Note.caught else .finished].filterMap
        (Note.saw? : Note α → Option α) = [] := by split <;> rfl
    show ((runAll body owner).2.trace ++ [_]).filterMap Note.saw? = _
    rw [List.filterMap_append, ending, List.append_nil, inner.seen]
    simp only [List.filterMap_cons, List.filterMap_map]
    rfl
  · exact ⟨fun _ => rfl, inner.lexical.map_shield⟩

end Describes

/-- The visits of a step describe it if those of its body describe the body. -/
theorem Command.describes (command : Command α)
    (body : ∀ owner, Describes (Scope.visits command.body owner) owner
      (runAll command.body owner)) (owner : Owner α) :
    Describes (command.visits owner) owner (command.run owner) := by
  cases command with
  | get => exact .get owner
  | set value => exact .set value owner
  | fail => exact .fail owner
  | enter value steps => exact .enter (body _)
  | «catch» steps => exact .shield (body owner)

/-- The visits of a program describe its run. -/
theorem describes (program : List (Command α)) (owner : Owner α) :
    Describes (visits program owner) owner (runAll program owner) := by
  induction program using program_induction generalizing owner with
  | nil => exact .nil owner
  | cons command rest body ih =>
    have step := command.describes body owner
    rw [runAll_cons, visits]
    by_cases failed : (command.run owner).1 = true
    · rw [if_pos failed, if_pos failed, List.append_nil]
      exact step
    · rw [if_neg failed, if_neg failed]
      have ended : command.run owner = (false, (command.run owner).2) :=
        Prod.ext (Bool.eq_false_iff.mpr failed) rfl
      rw [ended] at step
      exact step.append (ih _)

/-! ## The visits of a scope -/

/-- The first step of a program finds the owner that the program starts with. -/
theorem before_of_head? (program : List (Command α)) (owner : Owner α) :
    ∀ first ∈ (visits program owner).head?, first.before = owner := by
  intro first head
  cases program with
  | nil => cases head
  | cons command rest =>
    rw [visits] at head
    cases command <;> cases head <;> rfl

/-- Wherever a scope is visited, the visits of its body follow, with its value in the slot. -/
def HoldsBodies (visits : List (Visit α)) : Prop :=
  ∀ visit ∈ visits, ∀ value body, visit.command = .enter value body →
    ∃ earlier later, visits = earlier ++ visit ::
      (Scope.visits body { visit.before with slot := value }).map
        (·.inside (visit.around ++ [.scope])) ++ later

namespace HoldsBodies

/-- Bodies are held in a whole if they are in its parts. -/
theorem append {first second : List (Visit α)} (before : HoldsBodies first)
    (after : HoldsBodies second) : HoldsBodies (first ++ second) := by
  intro visit mem value body isEnter
  rcases List.mem_append.mp mem with mem | mem
  · obtain ⟨earlier, later, rfl⟩ := before visit mem value body isEnter
    exact ⟨earlier, later ++ second, by simp only [List.append_assoc, List.cons_append]⟩
  · obtain ⟨earlier, later, rfl⟩ := after visit mem value body isEnter
    exact ⟨first ++ earlier, later, by simp only [List.append_assoc, List.cons_append]⟩

/-- More around all visits is more around the bodies as well, so they are held as before. -/
theorem map_inside {visits : List (Visit α)} (holds : HoldsBodies visits) (frames : List Frame) :
    HoldsBodies (visits.map (·.inside frames)) := by
  intro visit mem value body isEnter
  obtain ⟨inner, innerMem, rfl⟩ := List.mem_map.mp mem
  obtain ⟨earlier, later, apart⟩ := holds inner innerMem value body isEnter
  refine ⟨earlier.map (·.inside frames), later.map (·.inside frames), ?_⟩
  rw [apart]
  simp only [List.map_append, List.map_cons, List.map_map, Function.comp_def,
    Visit.inside_inside]
  simp only [Visit.inside, List.append_assoc]

end HoldsBodies

/-- A step holds the bodies of the scopes in it, if its own body does. Only a scope has to be looked
at itself. -/
theorem Command.holdsBodies (command : Command α)
    (body : ∀ owner, HoldsBodies (Scope.visits command.body owner)) (owner : Owner α) :
    HoldsBodies (command.visits owner) := by
  -- A step that is no scope holds no body itself.
  have alone {step : Command α} (notScope : ∀ value steps, step ≠ .enter value steps) :
      HoldsBodies [{ command := step, before := owner }] := by
    intro visit mem value steps isEnter
    rw [List.mem_singleton.mp mem] at isEnter
    exact absurd isEnter (notScope value steps)
  cases command with
  | get => exact alone (by simp)
  | set value => exact alone (by simp)
  | fail => exact alone (by simp)
  | enter value steps =>
    intro visit mem otherValue otherSteps isEnter
    rw [visits] at mem ⊢
    rcases List.mem_cons.mp mem with rfl | mem
    · cases isEnter
      exact ⟨[], [], by simp⟩
    · obtain ⟨earlier, later, apart⟩ :=
        (body _).map_inside [.scope] visit mem otherValue otherSteps isEnter
      exact ⟨_ :: earlier, later, congrArg _ apart⟩
  | «catch» steps =>
    have inner := (body owner).map_inside [.shield]
    exact (alone (by simp)).append inner

/-- Every program holds the bodies of its scopes, however deep they are. The induction is on the
program. -/
theorem holdsBodies_visits (program : List (Command α)) (owner : Owner α) :
    HoldsBodies (visits program owner) := by
  induction program using program_induction generalizing owner with
  | nil => exact fun _ mem => absurd mem List.not_mem_nil
  | cons command rest body ih =>
    rw [visits]
    refine (command.holdsBodies body owner).append ?_
    split
    · exact fun _ mem => absurd mem List.not_mem_nil
    · exact ih _

/-- **Scoped state is put back.** Of every scope that is visited in a run, however deep it lies and
whether or not its body fails: it leaves the slot as it found it, and the trace with all that the
body has added; its body is visited next, from its first step on with the value of the scope in the
slot. So every step in no scope, and the end of the run, finds the value of the last `set` that was
visited in no scope, or the value at the start. The trace has every look in order. And the run fails
exactly if a failure is visited that no catch stands around. -/
theorem runAll_scoped (program : List (Command α)) (owner : Owner α) :
    (∀ visit ∈ visits program owner, ∀ value body, visit.command = .enter value body →
      let entered : Owner α := { visit.before with slot := value }
      let inside := runAll body entered
      visit.outcome.1 = inside.1 ∧ visit.outcome.2.slot = visit.before.slot ∧
        (∃ added, inside.2.trace = visit.before.trace ++ added ∧
          visit.outcome.2.trace = visit.before.trace ++ added ++
            if inside.1 then [] else [.leaving inside.2.slot]) ∧
        (∃ earlier later, visits program owner = earlier ++ visit ::
          (visits body entered).map (·.inside (visit.around ++ [.scope])) ++ later) ∧
        ∀ first ∈ (visits body entered).head?, first.before.slot = value) ∧
      (∀ earlier visit later, visits program owner = earlier ++ visit :: later →
        .scope ∉ visit.around → visit.before.slot = lastSet earlier owner.slot) ∧
      (runAll program owner).2.slot = lastSet (visits program owner) owner.slot ∧
      (runAll program owner).2.trace.filterMap Note.saw? =
        owner.trace.filterMap Note.saw? ++ (visits program owner).filterMap Visit.seen? ∧
      ((runAll program owner).1 = true ↔
        ∃ visit ∈ visits program owner, visit.command = .fail ∧ .shield ∉ visit.around) := by
  have whole := describes program owner
  refine ⟨?_, ?_, whole.slot, whole.seen, whole.fails⟩
  · intro visit mem value body isEnter entered inside
    have left : visit.outcome = (inside.1, ⟨visit.before.slot,
        inside.2.trace ++ if inside.1 then [] else [.leaving inside.2.slot]⟩) := by
      rw [Visit.outcome, isEnter, run_enter]
    obtain ⟨added, grown⟩ := (describes body entered).grows
    refine ⟨by rw [left], by rw [left], ⟨added, grown.symm, ?_⟩,
      holdsBodies_visits program owner visit mem value body isEnter, ?_⟩
    · rw [left, grown]
    · intro first head
      rw [before_of_head? body entered first head]
  · intro earlier visit later apart outside
    have lexical := whole.lexical
    rw [apart, lexical_append] at lexical
    exact lexical.2.1 outside

/-- A failure passes two scopes and is caught. -/
def fallThrough : List (Command Nat) :=
  [.set 1, .catch [.enter 2 [.get, .set 3, .enter 4 [.fail], .set 5], .set 6], .get]

/-- The inner scope is left by the failure and puts back the `3` of the outer one, which puts back
the `1`; the last look sees it. -/
theorem runAll_scoped_fallThrough :
    let inner : Visit Nat :=
      { around := [.shield, .scope], command := .enter 4 [.fail], before := ⟨3, [.saw 2]⟩ }
    inner ∈ visits fallThrough { slot := 0 } ∧ inner.outcome.2.slot = 3 ∧
      (runAll fallThrough { slot := 0 }).2.slot = 1 ∧
      (runAll fallThrough { slot := 0 }).2.trace.filterMap Note.saw? = [2, 1] ∧
      (runAll fallThrough { slot := 0 }).1 = false := by
  intro inner
  have mem : inner ∈ visits fallThrough { slot := 0 } :=
    .tail _ (.tail _ (.tail _ (.tail _ (.tail _ (.head _)))))
  obtain ⟨scopes, -, slot, seen, -⟩ := runAll_scoped fallThrough { slot := 0 }
  exact ⟨mem, (scopes inner mem 4 [.fail] rfl).2.1, slot, seen, by decide⟩

end Scope

end SourceAudit
