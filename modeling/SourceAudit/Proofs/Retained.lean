import SourceAudit.Proofs.Preset

/-!
# Retaining keys

There are two ways to say which checkers are to run. Retaining goes through the entries and asks
each one whether it answers to any of the keys. Activating goes through the keys and switches on the
first entry that answers to each.

The two come to the same wherever no key addresses two entries, from a registry that rests and with
the keys in any order (`Registry.retainActive_agrees_activations`). It is enough to know what one
wish does that is uttered under many keys (`Registry.Distinct.applySettings_wish`): an entry follows
it exactly if it answers to one of them.
-/

namespace SourceAudit

/-- What is asked of a checker in the end, where all keys ask for the same. -/
theorem Checker.getLastD_asked? (checker : Checker) (keys : List String) (wish unasked : Bool) :
    ((keys.map (·, some wish)).filterMap checker.asked?).getLastD unasked =
      if keys.any checker.answersTo then wish else unasked := by
  rw [List.filterMap_map]
  split
  next answers =>
    obtain ⟨key, mem, answers⟩ := List.any_eq_true.mp answers
    apply Registry.getLastD_eq_of_forall
    · exact List.mem_filterMap.mpr ⟨key, mem, asked?_eq_some.mpr ⟨answers, rfl⟩⟩
    · intro other otherMem
      obtain ⟨otherKey, -, asked⟩ := List.mem_filterMap.mp otherMem
      obtain ⟨-, same⟩ := asked?_eq_some.mp asked
      exact (Option.some.inj same).symm
  next ignores =>
    have nobody : keys.filterMap (checker.asked? ∘ (·, some wish)) = [] := by
      apply List.filterMap_eq_nil_iff.mpr
      intro key mem
      refine if_neg fun answers => ignores ?_
      exact List.any_eq_true.mpr ⟨key, mem, answers⟩
    rw [nobody, List.getLastD_nil]

namespace Registry

/-- The registry with every checker kept from running. -/
def rested (registry : Registry) : Registry :=
  ⟨registry.entries.map fun entry => { entry with active := false }⟩

/-- Carries out operations one after the other. -/
def performAll (registry : Registry) (operations : List Operation) : Registry :=
  operations.foldl perform registry

section

variable {registry : Registry} {keys : List String}

/-- No key addresses two entries exactly if names and codes tell them apart. -/
theorem distinct_iff (registry : Registry) :
    registry.Distinct ↔ (registry.entries.map Entry.checker).Pairwise fun one other =>
      one.name ≠ other.name ∧ foldCase one.code ≠ foldCase other.name ∧
        foldCase other.code ≠ foldCase one.name ∧ foldCase other.code ≠ foldCase one.code := by
  rw [Distinct]
  exact List.Pairwise.iff fun {one other} => one.apart_iff other

theorem rested_checkers (registry : Registry) :
    registry.rested.entries.map Entry.checker = registry.entries.map Entry.checker :=
  List.map_map

/-- Whether a key addresses two entries does not depend on which of them run. -/
theorem Distinct.rested (distinct : registry.Distinct) : registry.rested.Distinct := by
  rw [Distinct, rested_checkers]
  exact distinct

/-! ## Single activations -/

/-- In a registry of distinct entries, those that answer to one of the keys follow a wish and every
other entry stays as it is. -/
theorem Distinct.applySettings_wish (distinct : registry.Distinct) (keys : List String)
    (wish : Bool) :
    registry.applySettings (keys.map (·, some wish)) = ⟨registry.entries.map fun entry =>
      { entry with active := if keys.any entry.answersTo then wish else entry.active }⟩ := by
  rw [distinct.applySettings_eq]
  simp only [Checker.getLastD_asked?]
  rfl

/-- Activating keys one after the other is applying settings that all ask for the same. -/
theorem performAll_activate (registry : Registry) (keys : List String) :
    registry.performAll (keys.map .activate) =
      registry.applySettings (keys.map (·, some true)) := by
  rw [performAll, applySettings, List.foldl_map, List.foldl_map]
  rfl

/-- Deactivating keys one after the other is applying settings that all ask for the same. -/
theorem performAll_deactivate (registry : Registry) (keys : List String) :
    registry.performAll (keys.map .deactivate) =
      registry.applySettings (keys.map (·, some false)) := by
  rw [performAll, applySettings, List.foldl_map, List.foldl_map]
  rfl

/-- In a registry of distinct entries that rests, activating each key comes to retaining all of
them. -/
theorem Distinct.activate_rested (distinct : registry.Distinct) (keys : List String) :
    registry.rested.performAll (keys.map .activate) = registry.retainActive keys := by
  rw [performAll_activate, distinct.rested.applySettings_wish, retainActive, Registry.rested,
    List.map_map]
  congr 2
  funext entry
  simp only [Function.comp_apply, Bool.if_true_left, Bool.or_false, Bool.decide_eq_true]
  rfl

/-- Keys to which every entry answers bring the registry to rest. -/
theorem Distinct.deactivate_all (distinct : registry.Distinct)
    (covered : ∀ entry ∈ registry.entries, ∃ key ∈ keys, entry.answersTo key = true) :
    registry.performAll (keys.map .deactivate) = registry.rested := by
  rw [performAll_deactivate, distinct.applySettings_wish, Registry.rested]
  congr 1
  apply List.map_congr_left
  intro entry mem
  rw [if_pos (List.any_eq_true.mpr (covered entry mem))]

/-! ## Retaining -/

/-- Retaining depends on the checkers and not on whether they run. -/
theorem retainActive_eq (registry : Registry) (keys : List String) :
    registry.retainActive keys = ⟨(registry.entries.map Entry.checker).map fun checker =>
      ⟨checker, keys.any checker.answersTo⟩⟩ := by
  rw [retainActive, List.map_map]
  rfl

theorem retainActive_checkers (registry : Registry) (keys : List String) :
    (registry.retainActive keys).entries.map Entry.checker =
      registry.entries.map Entry.checker :=
  List.map_map

/-- Which entries run after retaining does not depend on which ran before, so registries with the
same checkers become the same. -/
theorem retainActive_of_checkers {other : Registry}
    (same : other.entries.map Entry.checker = registry.entries.map Entry.checker)
    (keys : List String) : other.retainActive keys = registry.retainActive keys := by
  rw [retainActive_eq, retainActive_eq, same]

/-- Retaining depends on which registered keys there are in the list, and on nothing else of it. -/
theorem retainActive_of_keys {others : List String}
    (same : ∀ key, registry.isRegistered key = true → (key ∈ others ↔ key ∈ keys)) :
    registry.retainActive others = registry.retainActive keys := by
  rw [retainActive, retainActive]
  congr 1
  apply List.map_congr_left
  intro entry mem
  have registered (key : String) (answers : entry.answersTo key = true) :
      registry.isRegistered key = true :=
    List.any_eq_true.mpr ⟨entry, mem, answers⟩
  congr 1
  rw [Bool.eq_iff_iff, List.any_eq_true, List.any_eq_true]
  constructor
  · rintro ⟨key, listed, answers⟩
    exact ⟨key, (same key (registered key answers)).mp listed, answers⟩
  · rintro ⟨key, listed, answers⟩
    exact ⟨key, (same key (registered key answers)).mpr listed, answers⟩

/-- After retaining, a key is active exactly if a checker that answers to it answers to one of the
retained keys as well. -/
theorem isActive_retainActive (registry : Registry) (keys : List String) (key : String) :
    (registry.retainActive keys).isActive key = true ↔
      ∃ entry ∈ registry.entries, entry.answersTo key = true ∧
        ∃ listed ∈ keys, entry.answersTo listed = true := by
  simp only [isActive, retainActive, List.any_map, List.any_eq_true, Function.comp_apply,
    Bool.and_eq_true]
  refine exists_congr fun entry => and_congr_right fun _ => ?_
  exact and_comm

end

/-- **Retaining keys is activating them one by one.** No key addresses two entries exactly if their
names differ, and their codes, and each name from the code of the other, codes being read in any
case of letters; and it is so in the registry of every preset. Wherever it is so, retaining keys
leaves what is left by bringing every entry to rest and then activating the keys, in any order and
however often. To bring every entry to rest, it is enough to deactivate keys among which each entry
has one. What ran before has no influence, nor have keys to which no entry answers; retaining again
changes nothing; and then a key is active exactly if an entry answers to it that also answers to a
key of the list. -/
theorem retainActive_agrees_activations :
    (∀ registry : Registry, registry.Distinct ↔
        (registry.entries.map Entry.checker).Pairwise fun one other =>
          one.name ≠ other.name ∧ foldCase one.code ≠ foldCase other.name ∧
            foldCase other.code ≠ foldCase one.name ∧ foldCase other.code ≠ foldCase one.code) ∧
      (∀ preset : Preset, preset.registry.Distinct) ∧
      ∀ registry : Registry, registry.Distinct → ∀ keys : List String,
        (∀ calls : List String, (∀ key, key ∈ calls ↔ key ∈ keys) →
          registry.rested.performAll (calls.map .activate) = registry.retainActive keys) ∧
        (∀ calls : List String,
          (∀ entry ∈ registry.entries, ∃ key ∈ calls, entry.answersTo key = true) →
            registry.performAll (calls.map .deactivate) = registry.rested) ∧
        (∀ other : Registry,
          other.entries.map Entry.checker = registry.entries.map Entry.checker →
            other.retainActive keys = registry.retainActive keys) ∧
        (∀ others : List String,
          (∀ key, registry.isRegistered key = true → (key ∈ others ↔ key ∈ keys)) →
            registry.retainActive others = registry.retainActive keys) ∧
        (registry.retainActive keys).retainActive keys = registry.retainActive keys ∧
        ∀ key, (registry.retainActive keys).isActive key = true ↔
          ∃ entry ∈ registry.entries, entry.answersTo key = true ∧
            ∃ listed ∈ keys, entry.answersTo listed = true := by
  refine ⟨distinct_iff, Preset.registry_distinct, ?_⟩
  intro registry distinct keys
  refine ⟨?_, ?_, ?_, ?_, ?_, registry.isActive_retainActive keys⟩
  · intro calls same
    rw [distinct.activate_rested]
    exact retainActive_of_keys fun key _ => same key
  · intro calls covered
    exact distinct.deactivate_all covered
  · intro other same
    exact retainActive_of_checkers same keys
  · intro others same
    exact retainActive_of_keys same
  · exact retainActive_of_checkers (registry.retainActive_checkers keys) keys

/-- Both checkers of the preset `all` are brought to rest, one by its name and one by its code. Then
the second is activated by its code, in either case of letters and twice, beside a key to which no
checker answers. -/
theorem retainActive_agrees_presetAll :
    let registry := Preset.all.registry
    let keys := ["pa002", "no-such-checker", "PA002"]
    let rested := registry.performAll (["no-output-in-try-body", "PA002"].map .deactivate)
    registry.Distinct ∧
      rested.performAll (["PA002", "no-such-checker", "pa002", "PA002"].map .activate) =
        registry.retainActive keys ∧
      (registry.retainActive keys).isActive "uppercase-constants" = true ∧
      (registry.retainActive keys).isActive "PA001" = false := by
  intro registry keys rested
  obtain ⟨-, distinct, agrees⟩ := retainActive_agrees_activations
  obtain ⟨activations, deactivations, -, -, -, active⟩ := agrees registry (distinct .all) keys
  have rests : rested = registry.rested := deactivations _ (by decide)
  refine ⟨distinct .all, ?_, (active _).mpr (by decide), ?_⟩
  · rw [rests]
    apply activations
    intro key
    simp only [keys, List.mem_cons, List.not_mem_nil, or_false]
    tauto
  · rw [← Bool.not_eq_true, active]
    decide

end Registry

end SourceAudit
