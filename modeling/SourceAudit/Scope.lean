/-!
# Scoped state

A walk often has to know one thing about the place it is at, and to forget it on the way out. The
owner of that knowledge has a **slot** for it. Entering a scope puts a value into the slot; leaving
it puts the earlier value back, whatever the inside did and also when it failed. This is
`Scope.Slot.enter`, and every walk that keeps such knowledge goes through it.

The programs of this module are what can be done with a slot: look at it, set it, enter a scope,
fail, and catch a failure. Their owner has a **trace** of what it saw besides. A failure runs up to
the nearest catch or to the top, and puts back every slot it passes. Only the slot is put back: the
trace keeps what was seen.
-/

namespace SourceAudit

/-- Where an owner keeps one of its values. -/
structure Scope.Slot (ω α : Type) where
  /-- The value in the slot. -/
  get : ω → α
  /-- The owner with another value in the slot. -/
  set : α → ω → ω

namespace Scope.Slot

/-- Runs the body with `value` in the slot and puts the earlier value back, whatever the body
answers. -/
def enter (slot : Slot ω α) (value : α) (body : ω → β × ω) (owner : ω) : β × ω :=
  let (answer, inside) := body (slot.set value owner)
  (answer, slot.set (slot.get owner) inside)

/-- Enters a scope whose body has no answer. -/
def within (slot : Slot ω α) (value : α) (body : ω → ω) (owner : ω) : ω :=
  (slot.enter value (fun owner => ((), body owner)) owner).2

end Scope.Slot

/-- One step with a slot of values `α`. -/
inductive Scope.Command (α : Type) where
  /-- Looks at the slot. -/
  | get
  /-- Sets the slot. -/
  | set (value : α)
  /-- Fails. -/
  | fail
  /-- Runs the body with `value` in the slot. -/
  | enter (value : α) (body : List (Scope.Command α))
  /-- Runs the body up to its end or to a failure in it. -/
  | catch (body : List (Scope.Command α))

/-- What is noted in the trace. -/
inductive Scope.Note (α : Type) where
  /-- The slot held this value. -/
  | saw (value : α)
  /-- A scope ended without failure, and the slot held this value. -/
  | leaving (value : α)
  /-- A failure was caught. -/
  | caught
  /-- The body of a catch ended without failure. -/
  | finished
  deriving DecidableEq, Repr

/-- The owner of a slot. -/
structure Scope.Owner (α : Type) where
  slot : α
  trace : List (Scope.Note α) := []
  deriving DecidableEq, Repr

namespace Scope

namespace Owner

/-- The slot of an owner. -/
def place : Slot (Owner α) α := ⟨Owner.slot, fun value owner => { owner with slot := value }⟩

/-- Adds a note to the trace. -/
def note (owner : Owner α) (note : Note α) : Owner α :=
  { owner with trace := owner.trace ++ [note] }

end Owner

mutual

/-- Runs one step; the truth value says whether it failed. -/
def Command.run : Command α → Owner α → Bool × Owner α
  | .get, owner => (false, owner.note (.saw owner.slot))
  | .set value, owner => (false, { owner with slot := value })
  | .fail, owner => (true, owner)
  | .enter value body, owner =>
    Owner.place.enter value (fun owner =>
      let (failed, inside) := runAll body owner
      (failed, if failed then inside else inside.note (.leaving inside.slot))) owner
  | .catch body, owner =>
    let (failed, inside) := runAll body owner
    (false, inside.note (if failed then .caught else .finished))

/-- Runs steps one after the other, up to a failure. -/
def runAll : List (Command α) → Owner α → Bool × Owner α
  | [], owner => (false, owner)
  | command :: commands, owner =>
    match command.run owner with
    | (true, owner) => (true, owner)
    | (false, owner) => runAll commands owner

end

/-- Runs a program on a slot that starts at `initial`. -/
def run (initial : α) (program : List (Command α)) : Bool × Owner α :=
  runAll program { slot := initial }

end Scope

end SourceAudit
