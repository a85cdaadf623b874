import Mathlib.Data.List.Induction
import SourceAudit.Proofs.Registry

/-!
# Keys, and the entries that answer to them

A key is set at one entry, the first that answers to it (`Registry.place?`). Asked whether a key is
active, a registry looks at every entry that answers. Both readings come to the same as long as a
key has one answer, but nothing sees to that: a checker is registered whether or not its name or
code is taken already, and codes that differ in the case of letters are taken for one.

So a key that is switched off can be active still. `Registry.setActive_takes_effect_iff` says
exactly when a setting takes effect, and that it does after every run of operations in which the
registered checkers are **apart**, that is, in which no key addresses two of them. Which checkers
there are, and in which order, is a matter of registration alone (`Registry.after_checkers`).
-/

namespace SourceAudit

/-! ## Checkers that no key confuses -/

namespace Checker

/-- A checker answers to its name as it is written, and to its code in any case of letters. -/
theorem answersTo_iff (checker : Checker) (key : String) :
    checker.answersTo key = true ↔
      checker.name = key ∨ foldCase checker.code = foldCase key := by
  rw [answersTo, Bool.or_eq_true, beq_iff_eq, beq_iff_eq]

/-- No key addresses both checkers. -/
def Apart (checker other : Checker) : Prop :=
  ∀ key, checker.answersTo key = true → other.answersTo key = false

/-- Names and codes decide whether a key can be meant for both: it would be the name of both, or
the code of both, or the name of one and the code of the other. -/
theorem apart_iff (checker other : Checker) :
    checker.Apart other ↔
      checker.name ≠ other.name ∧ foldCase checker.code ≠ foldCase other.name ∧
        foldCase other.code ≠ foldCase checker.name ∧
        foldCase other.code ≠ foldCase checker.code := by
  constructor
  · intro apart
    have byName := apart checker.name ((checker.answersTo_iff _).mpr (.inl rfl))
    have byCode := apart checker.code ((checker.answersTo_iff _).mpr (.inr rfl))
    rw [← Bool.not_eq_true, answersTo_iff, not_or] at byName byCode
    refine ⟨Ne.symm byName.1, ?_, byName.2, byCode.2⟩
    intro same
    have shared := apart other.name ((checker.answersTo_iff _).mpr (.inr same))
    rw [← Bool.not_eq_true, answersTo_iff] at shared
    exact shared (.inl rfl)
  · rintro ⟨names, codeName, nameCode, codes⟩ key answers
    rw [← Bool.not_eq_true, answersTo_iff, not_or]
    rcases (checker.answersTo_iff key).mp answers with rfl | same
    · exact ⟨Ne.symm names, nameCode⟩
    · refine ⟨?_, same ▸ codes⟩
      rintro rfl
      exact codeName same

instance (checker other : Checker) : Decidable (checker.Apart other) :=
  decidable_of_iff _ (checker.apart_iff other).symm

end Checker

namespace Registry

/-- No key addresses two of the entries. -/
def Distinct (registry : Registry) : Prop :=
  (registry.entries.map Entry.checker).Pairwise Checker.Apart

/-- A key addresses nothing exactly if no checker answers to it. -/
theorem place?_eq_none {registry : Registry} {key : String} :
    registry.place? key = none ↔ registry.isRegistered key = false := by
  rw [place?, List.findIdx?_eq_none_iff, isRegistered, List.any_eq_false]
  simp only [Bool.not_eq_true]

/-- Where a key addresses a place, there is an entry. -/
theorem exists_entry_of_place? {registry : Registry} {key : String} {place : Nat}
    (addressed : registry.place? key = some place) :
    ∃ entry, registry.entries[place]? = some entry := by
  obtain ⟨bound, -, -⟩ := List.findIdx?_eq_some_iff_getElem.mp addressed
  exact ⟨_, List.getElem?_eq_getElem bound⟩

/-- The entry that a key addresses answers to it. -/
theorem answersTo_of_place? {registry : Registry} {key : String} {place : Nat} {entry : Entry}
    (addressed : registry.place? key = some place)
    (there : registry.entries[place]? = some entry) : entry.answersTo key = true := by
  obtain ⟨_, answers, -⟩ := List.findIdx?_eq_some_iff_getElem.mp addressed
  obtain ⟨_, rfl⟩ := List.getElem?_eq_some_iff.mp there
  exact answers

/-- In a registry of distinct entries, a key addresses whatever answers to it. -/
theorem Distinct.place?_eq {registry : Registry} (distinct : registry.Distinct) {key : String}
    {place : Nat} {entry : Entry} (there : registry.entries[place]? = some entry)
    (answers : entry.answersTo key = true) : registry.place? key = some place := by
  obtain ⟨bound, rfl⟩ := List.getElem?_eq_some_iff.mp there
  apply List.findIdx?_eq_some_iff_getElem.mpr
  refine ⟨bound, answers, ?_⟩
  intro earlier before alsoAnswers
  have apart := List.pairwise_iff_getElem.mp (List.pairwise_map.mp distinct) earlier place
    (Nat.lt_trans before bound) bound before key alsoAnswers
  rw [Entry.answersTo, apart] at answers
  cases answers

/-! ## One setting by key -/

/-- A setting by key is a setting from a document that asks for something, and says besides whether
the key addresses anything. -/
theorem setActive_eq (registry : Registry) (key : String) (active : Bool) :
    registry.setActive key active =
      ((registry.place? key).isSome, registry.applySetting (key, some active)) := by
  simp only [applySetting, setActive, setFirst?_eq, place?]
  cases registry.entries.findIdx? (·.answersTo key) with
  | none => rfl
  | some place => rfl

/-- A setting by key is answered by whether a checker answers to the key. -/
theorem setActive_found (registry : Registry) (key : String) (active : Bool) :
    (registry.setActive key active).1 = true ↔ registry.isRegistered key = true := by
  rw [setActive_eq, Option.isSome_iff_ne_none, Ne, place?_eq_none, Bool.not_eq_false]

/-- A setting by key decides over the entry that the key addresses and leaves every other as it
is. -/
theorem setActive_entries (registry : Registry) (key : String) (active : Bool) (place : Nat) :
    (registry.setActive key active).2.entries[place]? = registry.entries[place]?.map fun entry =>
      if registry.place? key = some place then { entry with active := active } else entry := by
  rw [setActive_eq, applySetting_entries]
  congr 1
  funext entry
  by_cases addressed : registry.place? key = some place
  · rw [asked?, if_pos addressed, if_pos addressed, Option.getD_some]
  · rw [asked?, if_neg addressed, if_neg addressed, Option.getD_none]

/-- A setting changes neither which checkers there are nor their order. -/
theorem setActive_checkers (registry : Registry) (key : String) (active : Bool) :
    (registry.setActive key active).2.entries.map Entry.checker =
      registry.entries.map Entry.checker := by
  rw [setActive_eq]
  exact registry.applySetting_checkers _

/-- A key that no checker answers to changes nothing. -/
theorem setActive_of_unregistered {registry : Registry} {key : String}
    (unregistered : registry.isRegistered key = false) (active : Bool) :
    (registry.setActive key active).2 = registry := by
  apply eq_iff_getElem?.mpr
  intro place
  rw [setActive_entries, place?_eq_none.mpr unregistered]
  simp only [reduceCtorEq, if_false, Option.map_id']

/-- A key is active if any entry that answers to it is, not only the one that it addresses. -/
theorem isActive_iff (registry : Registry) (key : String) :
    registry.isActive key = true ↔
      ∃ (place : Nat) (entry : Entry), registry.entries[place]? = some entry ∧
        entry.active = true ∧ entry.answersTo key = true := by
  simp only [isActive, List.any_eq_true, List.mem_iff_getElem?, Bool.and_eq_true]
  constructor
  · rintro ⟨entry, ⟨place, there⟩, both⟩
    exact ⟨place, entry, there, both⟩
  · rintro ⟨place, entry, there, both⟩
    exact ⟨entry, ⟨place, there⟩, both⟩

/-- Of the entries that answer to a key, none is active but the one that the key addresses. -/
def OthersRest (registry : Registry) (key : String) : Prop :=
  ∀ (place : Nat) (entry : Entry), registry.entries[place]? = some entry →
    entry.answersTo key = true → registry.place? key ≠ some place → entry.active = false

/-- In a registry of distinct entries no other entry answers, so none can keep a key active. -/
theorem Distinct.othersRest {registry : Registry} (distinct : registry.Distinct) (key : String) :
    registry.OthersRest key :=
  fun _ _ there answers elsewhere => absurd (distinct.place?_eq there answers) elsewhere

/-- Switching a key on takes effect. -/
theorem isActive_setActive_true {registry : Registry} {key : String}
    (registered : registry.isRegistered key = true) :
    (registry.setActive key true).2.isActive key = true := by
  cases addressed : registry.place? key with
  | none =>
    rw [place?_eq_none.mp addressed] at registered
    cases registered
  | some place =>
    obtain ⟨entry, there⟩ := exists_entry_of_place? addressed
    have answers := answersTo_of_place? addressed there
    apply (isActive_iff _ _).mpr
    refine ⟨place, { entry with active := true }, ?_, rfl, answers⟩
    rw [setActive_entries, there, Option.map_some, if_pos addressed]

/-- Switching a key off takes effect exactly if the other entries that answer to it rest. -/
theorem isActive_setActive_false (registry : Registry) (key : String) :
    (registry.setActive key false).2.isActive key = false ↔ registry.OthersRest key := by
  rw [← Bool.not_eq_true, isActive_iff]
  constructor
  · intro nobody place entry there answers elsewhere
    by_contra active
    apply nobody
    refine ⟨place, entry, ?_, Bool.not_eq_false _ ▸ active, answers⟩
    rw [setActive_entries, there, Option.map_some, if_neg elsewhere]
  · rintro rest ⟨place, entry, there, active, answers⟩
    rw [setActive_entries] at there
    obtain ⟨before, found, rfl⟩ := Option.map_eq_some_iff.mp there
    by_cases addressed : registry.place? key = some place
    · rw [if_pos addressed] at active
      cases active
    · rw [if_neg addressed] at active answers
      rw [rest place before found answers addressed] at active
      cases active

/-! ## Runs of operations -/

/-- What can be done to a registry. -/
inductive Operation where
  | register (checker : Checker)
  | setActive (key : String) (active : Bool)
  | activate (key : String)
  | deactivate (key : String)
  | activateAll
  | retainActive (keys : List String)
  | applyConfig (config : Config)

/-- The checker that an operation registers. -/
def Operation.checker? : Operation → Option Checker
  | register checker => some checker
  | _ => none

/-- Carries out one operation. -/
def perform (registry : Registry) : Operation → Registry
  | .register checker => registry.register checker
  | .setActive key active => (registry.setActive key active).2
  | .activate key => (registry.activate key).2
  | .deactivate key => (registry.deactivate key).2
  | .activateAll => registry.activateAll
  | .retainActive keys => registry.retainActive keys
  | .applyConfig config => registry.applyConfig config

/-- The registry that operations make out of the empty one. -/
def after (operations : List Operation) : Registry := operations.foldl perform {}

/-- However many settings are applied, the checkers and their order stay. -/
theorem applySettings_checkers (registry : Registry) (settings : List (String × Option Bool)) :
    (registry.applySettings settings).entries.map Entry.checker =
      registry.entries.map Entry.checker := by
  apply List.ext_getElem?
  intro place
  rw [List.getElem?_map, List.getElem?_map, applySettings_entries, Option.map_map]
  rfl

/-- Only a registration changes which checkers there are, and it adds one at the end. -/
theorem perform_checkers (registry : Registry) (operation : Operation) :
    (registry.perform operation).entries.map Entry.checker =
      registry.entries.map Entry.checker ++ operation.checker?.toList := by
  cases operation with
  | register checker => exact List.map_append
  | setActive key active => exact (setActive_checkers ..).trans (List.append_nil _).symm
  | activate key => exact (setActive_checkers ..).trans (List.append_nil _).symm
  | deactivate key => exact (setActive_checkers ..).trans (List.append_nil _).symm
  | activateAll => exact List.map_map.trans (List.append_nil _).symm
  | retainActive keys => exact List.map_map.trans (List.append_nil _).symm
  | applyConfig config => exact (applySettings_checkers ..).trans (List.append_nil _).symm

/-- The checkers of a registry are those that were registered, in that order. -/
theorem after_checkers (operations : List Operation) :
    (after operations).entries.map Entry.checker = operations.filterMap Operation.checker? := by
  induction operations using List.reverseRecOn with
  | nil => rfl
  | append_singleton operations operation ih =>
    rw [after, List.foldl_append, List.filterMap_append, ← ih]
    show ((after operations).perform operation).entries.map Entry.checker = _
    rw [perform_checkers]
    cases operation <;> rfl

/-- **When a setting by key takes effect.** After any run of operations, setting a key says whether
the key is registered; it leaves every entry that does not answer to the key as it is, and the
checkers and their order; and it leaves everything as it is when the key is not registered. When it
is registered, the key is active afterwards as asked if it is switched on, and if it is switched off
exactly when the other entries that answer to it rest. It is always so if no key addresses two of
the checkers that were registered. -/
theorem setActive_takes_effect_iff (operations : List Operation) (key : String) (active : Bool) :
    let registry := after operations
    let found := (registry.setActive key active).1
    let changed := (registry.setActive key active).2
    (found = true ↔ registry.isRegistered key = true) ∧
      (found = true →
        (changed.isActive key = active ↔ active = true ∨ registry.OthersRest key)) ∧
      (∀ (place : Nat) (entry : Entry), registry.entries[place]? = some entry →
        entry.answersTo key = false → changed.entries[place]? = some entry) ∧
      changed.entries.map Entry.checker = registry.entries.map Entry.checker ∧
      (found = false → changed = registry) ∧
      ((operations.filterMap Operation.checker?).Pairwise Checker.Apart →
        found = true → changed.isActive key = active) := by
  intro registry found changed
  have effect : found = true →
      (changed.isActive key = active ↔ active = true ∨ registry.OthersRest key) := by
    intro success
    cases active with
    | true =>
      have registered := (registry.setActive_found key true).mp success
      exact iff_of_true (isActive_setActive_true registered) (.inl rfl)
    | false =>
      rw [or_iff_right Bool.false_ne_true]
      exact registry.isActive_setActive_false key
  refine ⟨registry.setActive_found key active, effect, ?_, registry.setActive_checkers key active,
    ?_, ?_⟩
  · intro place entry there ignores
    have elsewhere : registry.place? key ≠ some place := by
      intro addressed
      rw [answersTo_of_place? addressed there] at ignores
      cases ignores
    rw [setActive_entries, there, Option.map_some, if_neg elsewhere]
  · intro failure
    apply setActive_of_unregistered
    rw [← Bool.not_eq_true, ← registry.setActive_found key active]
    exact Bool.eq_false_iff.mp failure
  · intro apart success
    have distinct : registry.Distinct := by
      rw [Distinct, after_checkers]
      exact apart
    exact (effect success).mpr (.inr (distinct.othersRest key))

/-- A checker that never finds anything. -/
def silentChecker (name code : String) : Checker := { name, code, findings := fun _ => [] }

/-- Two checkers that are apart, with the second alone retained: the first is switched on by its
code in small letters. -/
theorem setActive_takes_effect_silentCheckers :
    let operations : List Operation := [.register (silentChecker "first" "T001"),
      .register (silentChecker "second" "T002"), .retainActive ["second"]]
    (operations.filterMap Operation.checker?).Pairwise Checker.Apart ∧
      (after operations).isActive "t001" = false ∧
      ((after operations).setActive "t001" true).1 = true ∧
      ((after operations).setActive "t001" true).2.isActive "t001" = true := by
  intro operations
  obtain ⟨found, -, -, -, -, effect⟩ := setActive_takes_effect_iff operations "t001" true
  have apart : (operations.filterMap Operation.checker?).Pairwise Checker.Apart := by decide
  have success := found.mpr (by decide)
  exact ⟨apart, by decide, success, effect apart success⟩

/-- Two codes that differ in the case of letters: the key is switched off, and is active still. -/
theorem setActive_without_effect :
    let registry := after [.register (silentChecker "first" "T001"),
      .register (silentChecker "second" "t001")]
    (registry.setActive "T001" false).1 = true ∧
      (registry.setActive "T001" false).2.isActive "T001" = true := by
  decide

end Registry

end SourceAudit
