import SourceAudit.Proofs.Keys
import SourceAudit.Proofs.Text

/-!
# Which checkers run in a check

Four things have a say in it: the preset that is asked for, the preset of the settings, the settings
for single checkers, and a list of keys. They are applied one on top of the other to a registry,
each to what the one before has left. `CheckOptions.registry_eq` says what comes out, checker by
checker and in one step: the keys decide alone if there are any, and else the last setting that
addresses the checker, and else the preset.

It rests on the built-in checkers being apart. In a registry of distinct entries, what settings do
to an entry depends on the checker of that entry and on no other
(`Registry.Distinct.applySettings_eq`).
-/

namespace SourceAudit

/-! ## Settings over distinct entries -/

/-- What a setting asks of a checker. -/
def Checker.asked? (checker : Checker) (setting : String × Option Bool) : Option Bool :=
  if checker.answersTo setting.1 then setting.2 else none

/-- A setting asks something of a checker if the checker answers to its key and the setting does ask
for something. -/
theorem Checker.asked?_eq_some {checker : Checker} {setting : String × Option Bool}
    {active : Bool} :
    checker.asked? setting = some active ↔
      checker.answersTo setting.1 = true ∧ setting.2 = some active := by
  rw [asked?, ite_eq_iff]
  simp

namespace Registry

/-- In a registry of distinct entries, what is asked of a place is asked of the checker there, and
other entries do not come between. -/
theorem Distinct.asked?_eq {registry : Registry} (distinct : registry.Distinct) {place : Nat}
    {entry : Entry} (there : registry.entries[place]? = some entry) :
    registry.asked? place = entry.checker.asked? := by
  funext setting
  rw [asked?, Checker.asked?]
  by_cases answers : entry.checker.answersTo setting.1 = true
  · rw [if_pos answers, if_pos (distinct.place?_eq there answers)]
  · rw [if_neg answers, if_neg]
    intro addressed
    exact answers (answersTo_of_place? addressed there)

/-- In a registry of distinct entries, the last setting that addresses a checker decides over it. -/
theorem Distinct.applySettings_eq {registry : Registry} (distinct : registry.Distinct)
    (settings : List (String × Option Bool)) :
    registry.applySettings settings = ⟨registry.entries.map fun entry =>
      { entry with
        active := (settings.filterMap entry.checker.asked?).getLastD entry.active }⟩ := by
  apply eq_iff_getElem?.mpr
  intro place
  rw [applySettings_entries, List.getElem?_map]
  cases there : registry.entries[place]? with
  | none => rfl
  | some entry => rw [Option.map_some, Option.map_some, distinct.asked?_eq there]

end Registry

/-! ## Presets -/

/-- No key addresses both built-in checkers. -/
theorem builtinCheckers_apart : builtinCheckers.Pairwise Checker.Apart := by decide

/-- Checkers are registered one behind the other, each as its own default has it. -/
theorem foldl_register_entries (checkers : List Checker) (registry : Registry) :
    (checkers.foldl Registry.register registry).entries =
      registry.entries ++ checkers.map fun checker => ⟨checker, checker.enabledByDefault⟩ := by
  induction checkers generalizing registry with
  | nil => exact (List.append_nil _).symm
  | cons checker checkers ih =>
    rw [List.foldl_cons, ih, Registry.register, List.append_assoc]
    rfl

namespace Preset

/-- Whether a checker runs if nothing but the preset has a say. -/
def starts : Preset → Checker → Bool
  | recommended, checker => checker.enabledByDefault
  | all, _ => true

/-- The registry of a preset holds the built-in checkers in their order, and the preset says which
of them run. -/
theorem registry_eq (preset : Preset) :
    preset.registry = ⟨builtinCheckers.map fun checker => ⟨checker, preset.starts checker⟩⟩ := by
  have registered := foldl_register_entries builtinCheckers {}
  rw [List.nil_append] at registered
  cases preset with
  | recommended => exact congrArg Registry.mk registered
  | all =>
    simp only [registry, Registry.activateAll, registered, List.map_map]
    rfl

/-- No key addresses two entries of the registry of a preset, so all that is proved of distinct
registries holds of the registries of runs. -/
theorem registry_distinct (preset : Preset) : preset.registry.Distinct := by
  rw [registry_eq, Registry.Distinct, List.map_map]
  exact (List.map_id builtinCheckers).symm ▸ builtinCheckers_apart

/-- A preset is known by one name only. -/
theorem ofName?_eq_some {name : String} {preset : Preset} (known : ofName? name = some preset) :
    name = preset.name := by
  unfold ofName? at known
  split at known
  next isRecommended =>
    cases known
    exact isRecommended
  next =>
    split at known
    next isAll =>
      cases known
      exact isAll
    next => cases known

/-- There are two presets and no others. -/
theorem ofName?_eq_none (name : String) :
    ofName? name = none ↔ name ≠ "recommended" ∧ name ≠ "all" := by
  unfold ofName?
  split
  next isRecommended => simp [isRecommended]
  next other =>
    split
    next isAll => simp [isAll]
    next another => simp [other, another]

theorem starts_eq_true (preset : Preset) (checker : Checker) :
    preset.starts checker = true ↔ preset.name = "all" ∨ checker.enabledByDefault = true := by
  cases preset with
  | recommended => simp [starts, name]
  | all => simp [starts, name]

end Preset

/-- The preset that is asked for comes before the one of the settings, and that before the
recommended one. -/
theorem effectivePreset_eq (preset : Option String) (config : Config) :
    effectivePreset preset config = preset.getD (config.preset.getD "recommended") := by
  cases preset with
  | none => rfl
  | some name => rfl

/-- The registry for a run, checker by checker: the last setting that addresses a checker decides
over it, and else the preset. -/
theorem configuredRegistry_eq (preset : Option String) (config : Config) :
    configuredRegistry preset config =
      match Preset.ofName? (effectivePreset preset config) with
      | some chosen => .ok ⟨builtinCheckers.map fun checker =>
          ⟨checker, (config.checkers.filterMap checker.asked?).getLastD (chosen.starts checker)⟩⟩
      | none => .error ⟨effectivePreset preset config⟩ := by
  rw [configuredRegistry]
  cases Preset.ofName? (effectivePreset preset config) with
  | none => rfl
  | some chosen =>
    show Except.ok (chosen.registry.applySettings config.checkers) = _
    rw [chosen.registry_distinct.applySettings_eq, chosen.registry_eq, List.map_map]
    rfl

/-! ## The keys of a list -/

namespace CheckOptions

/-- The key stands in the list: it is what is left of a piece between commas without the blanks
around it, and something is left. -/
def Lists (list key : String) : Prop :=
  key ≠ "" ∧ ∃ piece ∈ list.toList.splitOn ',', Text.HasCore piece key.toList

/-- The keys that are read from a list are those that stand in it between commas, without blanks
around them and none of them empty. -/
theorem mem_keysOf_iff (list key : String) : key ∈ keysOf list ↔ Lists list key := by
  rw [keysOf, List.mem_filter, and_comm, Lists]
  apply and_congr
  · rw [Bool.not_eq_true', String.isEmpty_eq_false_iff]
  · simp only [Text.split, Text.splitList_eq_splitOn, List.map_map, List.mem_map,
      Function.comp_apply, Text.trim_eq_iff, String.toList_ofList]

/-! ## The registry of a check -/

/-- Whether a checker runs in a check. -/
def decides (options : CheckOptions) (config : Config) (preset : Preset) (checker : Checker) :
    Bool :=
  match options.keys? with
  | some keys => keys.any checker.answersTo
  | none => (config.checkers.filterMap checker.asked?).getLastD (preset.starts checker)

/-- The registry of a check, checker by checker. -/
theorem registry_eq (options : CheckOptions) (config : Config) :
    options.registry config =
      match Preset.ofName? (effectivePreset options.preset config) with
      | some preset => .ok ⟨builtinCheckers.map fun checker =>
          ⟨checker, options.decides config preset checker⟩⟩
      | none => .error ⟨effectivePreset options.preset config⟩ := by
  rw [registry, configuredRegistry_eq]
  unfold decides
  cases Preset.ofName? (effectivePreset options.preset config) with
  | none => rfl
  | some preset =>
    cases options.keys? with
    | none => rfl
    | some keys =>
      simp only [Registry.retainActive, List.map_map]
      rfl

/-- Whether a setting has a say at all: it asks for something, and a checker answers to its key. -/
def hasSay (setting : String × Option Bool) : Bool :=
  setting.2.isSome && builtinCheckers.any (·.answersTo setting.1)

/-- Of settings without a say none asks anything of a built-in checker, so they can be left out. -/
theorem filterMap_asked?_hasSay {checker : Checker} (builtin : checker ∈ builtinCheckers)
    (settings : List (String × Option Bool)) :
    (settings.filter hasSay).filterMap checker.asked? = settings.filterMap checker.asked? := by
  rw [List.filterMap_filter]
  apply List.filterMap_congr
  intro setting _
  by_cases heard : hasSay setting = true
  · rw [if_pos heard]
  · rw [if_neg heard]
    -- What is asked of a built-in checker has a say.
    cases asked : checker.asked? setting with
    | none => rfl
    | some active =>
      obtain ⟨answers, wish⟩ := Checker.asked?_eq_some.mp asked
      refine absurd ?_ heard
      rw [hasSay, wish, Option.isSome_some, Bool.true_and, List.any_eq_true]
      exact ⟨checker, builtin, answers⟩

/-- Settings without a say make no difference to the registry, or to whether there is one. -/
theorem registry_filter_hasSay (options : CheckOptions) (config : Config) :
    options.registry { config with checkers := config.checkers.filter hasSay } =
      options.registry config := by
  have same : ∀ preset, ∀ checker ∈ builtinCheckers,
      options.decides { config with checkers := config.checkers.filter hasSay } preset checker =
        options.decides config preset checker := by
    intro preset checker builtin
    unfold decides
    rw [filterMap_asked?_hasSay builtin]
  rw [registry_eq, registry_eq]
  show (match Preset.ofName? (effectivePreset options.preset config) with
    | some preset => _
    | none => _) = _
  cases Preset.ofName? (effectivePreset options.preset config) with
  | none => rfl
  | some preset =>
    simp only [Except.ok.injEq, Registry.mk.injEq]
    apply List.map_congr_left
    intro checker builtin
    rw [same preset checker builtin]

/-- Keys that are listed decide alone. -/
theorem decides_of_list {options : CheckOptions} {list : String}
    (listed : options.checkers = some list) (config : Config) (preset : Preset)
    (checker : Checker) :
    options.decides config preset checker = true ↔
      ∃ key, Lists list key ∧ (checker.name = key ∨ foldCase checker.code = foldCase key) := by
  simp only [decides, keys?, listed, Option.map_some, List.any_eq_true, mem_keysOf_iff,
    Checker.answersTo_iff]

/-- Where no keys are listed, settings that agree on a checker decide over it. -/
theorem decides_of_agree {options : CheckOptions} (unlisted : options.checkers = none)
    {config : Config} (preset : Preset) {checker : Checker} {active : Bool}
    (asked : ∃ key, (key, some active) ∈ config.checkers ∧ checker.answersTo key = true)
    (agree : ∀ key other, (key, some other) ∈ config.checkers → checker.answersTo key = true →
      other = active) :
    options.decides config preset checker = active := by
  simp only [decides, keys?, unlisted, Option.map_none]
  obtain ⟨key, mem, answers⟩ := asked
  apply Registry.getLastD_eq_of_forall
  · have wish : checker.asked? (key, some active) = some active :=
      Checker.asked?_eq_some.mpr ⟨answers, rfl⟩
    exact List.mem_filterMap.mpr ⟨(key, some active), mem, wish⟩
  · intro other otherMem
    obtain ⟨⟨otherKey, wish⟩, settingMem, otherAsked⟩ := List.mem_filterMap.mp otherMem
    obtain ⟨otherAnswers, rfl⟩ := Checker.asked?_eq_some.mp otherAsked
    exact agree otherKey other settingMem otherAnswers

/-- Where no keys are listed and no setting asks anything of a checker, the preset decides. -/
theorem decides_of_unasked {options : CheckOptions} (unlisted : options.checkers = none)
    {config : Config} (preset : Preset) {checker : Checker}
    (unasked : ∀ key active, (key, some active) ∈ config.checkers →
      checker.answersTo key = false) :
    options.decides config preset checker = preset.starts checker := by
  have nobody : config.checkers.filterMap checker.asked? = [] := by
    apply List.filterMap_eq_nil_iff.mpr
    rintro ⟨key, wish⟩ mem
    cases asked : checker.asked? (key, wish) with
    | none => rfl
    | some active =>
      obtain ⟨answers, rfl⟩ := Checker.asked?_eq_some.mp asked
      rw [unasked key active mem] at answers
      cases answers
  simp only [decides, keys?, unlisted, Option.map_none, nobody, List.getLastD_nil]

/-- **Which checkers run in a check.** There is no registry exactly if the name in effect (the
preset asked for, or else the one of the settings, or else `recommended`) is no preset, and then the
error carries that name. Otherwise the registry holds the built-in checkers in their order. If keys
are listed, a checker runs exactly if one of them is its name, or its code in any case of letters.
If none are listed, the settings that address a checker decide over it where they agree, and where
there are none the preset does. Settings that ask for nothing or address no checker might as well
not be there. -/
theorem registry_effective (options : CheckOptions) (config : Config) :
    let name := options.preset.getD (config.preset.getD "recommended")
    (∀ error, options.registry config = .error error ↔
        (name ≠ "recommended" ∧ name ≠ "all") ∧ error = ⟨name⟩) ∧
      (name = "recommended" ∨ name = "all" →
        ∃ registry, options.registry config = .ok registry ∧
          registry.entries.map Entry.checker = builtinCheckers ∧
          ∀ entry ∈ registry.entries,
            (∀ list, options.checkers = some list →
              (entry.active = true ↔ ∃ key, Lists list key ∧
                (entry.checker.name = key ∨ foldCase entry.checker.code = foldCase key))) ∧
            (options.checkers = none → ∀ active,
              (∃ key, (key, some active) ∈ config.checkers ∧ entry.answersTo key = true) →
              (∀ key other, (key, some other) ∈ config.checkers →
                entry.answersTo key = true → other = active) →
              entry.active = active) ∧
            (options.checkers = none →
              (∀ key active, (key, some active) ∈ config.checkers →
                entry.answersTo key = false) →
              (entry.active = true ↔
                name = "all" ∨ entry.checker.enabledByDefault = true))) ∧
      options.registry config = options.registry
        { config with checkers := config.checkers.filter fun setting =>
            setting.2.isSome && builtinCheckers.any (·.answersTo setting.1) } := by
  intro name
  have inEffect : effectivePreset options.preset config = name := effectivePreset_eq ..
  refine ⟨?_, ?_, (options.registry_filter_hasSay config).symm⟩
  · intro error
    rw [registry_eq, inEffect, ← Preset.ofName?_eq_none]
    cases Preset.ofName? name with
    | none => simp [eq_comm]
    | some preset => simp
  · intro known
    cases chosen : Preset.ofName? name with
    | none =>
      obtain ⟨notRecommended, notAll⟩ := (Preset.ofName?_eq_none name).mp chosen
      exact (known.elim notRecommended notAll).elim
    | some preset =>
      refine ⟨_, by rw [registry_eq, inEffect, chosen], by simp [Function.comp_def], ?_⟩
      intro entry mem
      obtain ⟨checker, -, rfl⟩ := List.mem_map.mp mem
      refine ⟨?_, ?_, ?_⟩
      · intro list listed
        exact decides_of_list listed config preset checker
      · intro unlisted active asked agree
        exact decides_of_agree unlisted preset asked agree
      · intro unlisted unasked
        show options.decides config preset checker = true ↔ _
        rw [decides_of_unasked unlisted preset unasked, Preset.starts_eq_true,
          Preset.ofName?_eq_some chosen]

/-- Settings that switch one checker off by two keys, name the other without asking for anything,
and address a third that does not exist. -/
def settingsWithRemainders : Config :=
  ⟨some "recommended", [("pa001", some false), ("no-such-checker", some true),
    ("no-output-in-try-body", some false), ("uppercase-constants", none)]⟩

/-- The preset `all` is asked for: the settings keep the first checker from running, and the preset
lets the second one run. -/
theorem registry_effective_settingsWithRemainders :
    let options : CheckOptions := { preset := some "all" }
    ∃ registry, options.registry settingsWithRemainders = .ok registry ∧
      registry.entries.map Entry.checker = builtinCheckers ∧
      registry.entries.map (fun entry => (entry.checker.code, entry.active)) =
        [("PA001", false), ("PA002", true)] := by
  intro options
  obtain ⟨-, effective, -⟩ := registry_effective options settingsWithRemainders
  obtain ⟨registry, built, checkers, each⟩ := effective (.inr rfl)
  refine ⟨registry, built, checkers, ?_⟩
  have tryOutput : ∀ entry ∈ registry.entries, entry.checker = .tryOutput →
      entry.active = false := by
    intro entry mem isTryOutput
    have agree : ∀ setting ∈ settingsWithRemainders.checkers, ∀ other, setting.2 = some other →
        Checker.tryOutput.answersTo setting.1 = true → other = false := by decide
    refine (each entry mem).2.1 rfl false ⟨"pa001", by decide, ?_⟩ ?_
    · rw [Entry.answersTo, isTryOutput]
      decide
    · intro key other otherMem answers
      rw [Entry.answersTo, isTryOutput] at answers
      exact agree (key, some other) otherMem other rfl answers
  have constantCase : ∀ entry ∈ registry.entries, entry.checker = .constantCase →
      entry.active = true := by
    intro entry mem isConstantCase
    have unasked : ∀ setting ∈ settingsWithRemainders.checkers, setting.2.isSome = true →
        Checker.constantCase.answersTo setting.1 = false := by decide
    refine ((each entry mem).2.2 rfl ?_).mpr (.inl rfl)
    intro key active settingMem
    rw [Entry.answersTo, isConstantCase]
    exact unasked (key, some active) settingMem rfl
  obtain ⟨entries⟩ := registry
  obtain ⟨first, _, rfl, isFirst, others⟩ := List.map_eq_cons_iff.mp checkers
  obtain ⟨second, _, rfl, isSecond, nothing⟩ := List.map_eq_cons_iff.mp others
  obtain rfl := List.map_eq_nil_iff.mp nothing
  have off := tryOutput first List.mem_cons_self isFirst
  have on := constantCase second (List.mem_cons_of_mem _ List.mem_cons_self) isSecond
  simp only [List.map_cons, List.map_nil, isFirst, isSecond, off, on]
  rfl

end CheckOptions

end SourceAudit
