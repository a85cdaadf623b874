import Mathlib.Data.List.Basic
import SourceAudit.CommandLine.Check

/-!
# Settings and the order in which they are taken

The settings of a document are a table. Nothing says in which order its entries are taken, and two
runs over one document may take them in two orders. That this makes no difference would be plain if
every checker had one key. But a key is a name or a code, and codes are read in any case of letters,
so several entries of one table can address the same checker.

What settings do is said place by place (`Registry.applySettings_entries`): the last setting that
addresses an entry decides over it, and an entry that no setting addresses stays as it is. So the
order can matter only where two settings address one entry and ask different things of it. Where two
do, it does matter: either of them can be the last. `Registry.Agree` says that no two do.

A document in which two settings disagree has no meaning of its own, then: which checkers run, and
so which issues are found, is left to the order of the table.
-/

namespace SourceAudit

/-- Settings that differ in the order of the table at most. -/
def Config.Reordered (config other : Config) : Prop :=
  other.preset = config.preset ∧ other.checkers.Perm config.checkers

namespace Registry

/-- The place of the entry that a key addresses: the first one that answers to it. -/
def place? (registry : Registry) (key : String) : Option Nat :=
  registry.entries.findIdx? (·.answersTo key)

/-- What a setting asks of the entry at a place. -/
def asked? (registry : Registry) (place : Nat) (setting : String × Option Bool) : Option Bool :=
  if registry.place? setting.1 = some place then setting.2 else none

/-- No two settings ask different things of one entry. -/
def Agree (registry : Registry) (settings : List (String × Option Bool)) : Prop :=
  ∀ place, ∀ first ∈ settings, ∀ second ∈ settings, ∀ one other,
    registry.asked? place first = some one → registry.asked? place second = some other →
      one = other

/-! ## One setting -/

/-- To set the first entry that answers is to look for its place and to set what is there. -/
theorem setFirst?_eq (key : String) (active : Bool) (entries : List Entry) :
    setFirst? key active entries =
      (entries.findIdx? (·.answersTo key)).map fun place =>
        entries.modify place fun entry => { entry with active := active } := by
  induction entries with
  | nil => rfl
  | cons entry entries ih =>
    rw [setFirst?, List.findIdx?_cons]
    split
    next answers => rfl
    next =>
      rw [ih, Option.map_map, Option.map_map]
      rfl

/-- Which entry a key addresses depends on the checkers and not on whether they run. -/
theorem place?_eq (registry : Registry) (key : String) :
    registry.place? key =
      (registry.entries.map Entry.checker).findIdx? (Checker.answersTo · key) := by
  rw [List.findIdx?_map]
  rfl

/-- A setting decides over the entry that it addresses and leaves every other as it is. -/
theorem applySetting_entries (registry : Registry) (setting : String × Option Bool) (place : Nat) :
    (registry.applySetting setting).entries[place]? = registry.entries[place]?.map fun entry =>
      { entry with active := (registry.asked? place setting).getD entry.active } := by
  obtain ⟨key, wish⟩ := setting
  -- A setting that asks for nothing, or of nobody, changes nothing.
  have unchanged (h : registry.asked? place (key, wish) = none) :
      registry.entries[place]? = registry.entries[place]?.map fun entry =>
        { entry with active := (registry.asked? place (key, wish)).getD entry.active } := by
    simp only [h, Option.getD_none, Option.map_id']
  cases wish with
  | none => exact unchanged (ite_self none)
  | some active =>
    simp only [applySetting, setActive, setFirst?_eq]
    cases found : registry.entries.findIdx? (·.answersTo key) with
    | none => exact unchanged (if_neg (by simp [place?, found]))
    | some first =>
      simp only [Option.map_some, List.getElem?_modify]
      by_cases here : first = place
      · simp [asked?, place?, found, here]
      · simp [asked?, place?, found, here]

/-- A setting changes neither which checkers there are nor their order, so it leaves every key where
it was. -/
theorem applySetting_checkers (registry : Registry) (setting : String × Option Bool) :
    (registry.applySetting setting).entries.map Entry.checker =
      registry.entries.map Entry.checker := by
  apply List.ext_getElem?
  intro place
  rw [List.getElem?_map, List.getElem?_map, applySetting_entries, Option.map_map]
  rfl

/-- What is asked of a place does not depend on what was asked before. -/
theorem asked?_applySetting (registry : Registry) (setting : String × Option Bool) :
    (registry.applySetting setting).asked? = registry.asked? := by
  funext place other
  simp only [asked?, place?_eq, applySetting_checkers]

/-! ## All settings -/

/-- **The last setting that addresses an entry decides over it**, and an entry that no setting
addresses stays as it is. -/
theorem applySettings_entries (registry : Registry) (settings : List (String × Option Bool))
    (place : Nat) :
    (registry.applySettings settings).entries[place]? = registry.entries[place]?.map fun entry =>
      { entry with
        active := (settings.filterMap (registry.asked? place)).getLastD entry.active } := by
  induction settings generalizing registry with
  | nil => exact Option.map_id'.symm
  | cons setting settings ih =>
    show ((registry.applySetting setting).applySettings settings).entries[place]? = _
    rw [ih, applySetting_entries, asked?_applySetting, Option.map_map]
    congr 1
    funext entry
    cases asked : registry.asked? place setting with
    | none => simp only [List.filterMap_cons, asked, Option.getD_none, Function.comp_apply]
    | some active =>
      simp only [List.filterMap_cons, asked, Option.getD_some, Function.comp_apply,
        List.getLastD_cons]

theorem eq_iff_getElem? {registry other : Registry} :
    registry = other ↔ ∀ place : Nat, registry.entries[place]? = other.entries[place]? := by
  obtain ⟨entries⟩ := registry
  obtain ⟨others⟩ := other
  rw [mk.injEq]
  exact List.ext_getElem?_iff

/-- Where all wishes are the same, the last is that one. -/
theorem getLastD_eq_of_forall {wishes : List Bool} {active : Bool} (mem : active ∈ wishes)
    (same : ∀ other ∈ wishes, other = active) (unasked : Bool) :
    wishes.getLastD unasked = active := by
  rw [List.getLastD_eq_getLast?, List.getLast?_eq_some_getLast (List.ne_nil_of_mem mem)]
  exact same _ (List.getLast_mem _)

/-- Where settings agree, what is asked of a place last is what anyone asks of it. -/
theorem Agree.getLastD_eq {registry : Registry} {settings : List (String × Option Bool)}
    (agree : registry.Agree settings) {place : Nat} {setting : String × Option Bool}
    (mem : setting ∈ settings) {active : Bool}
    (asked : registry.asked? place setting = some active) (unasked : Bool) :
    (settings.filterMap (registry.asked? place)).getLastD unasked = active := by
  apply getLastD_eq_of_forall (List.mem_filterMap.mpr ⟨setting, mem, asked⟩)
  intro other otherMem
  obtain ⟨latest, latestMem, latestAsked⟩ := List.mem_filterMap.mp otherMem
  exact agree place latest latestMem setting mem _ _ latestAsked asked

/-- Settings that agree can be applied in any order: at every place they all ask for the same, if
they ask for anything. -/
theorem Agree.applySettings_perm {registry : Registry}
    {settings others : List (String × Option Bool)}
    (agree : registry.Agree settings) (perm : others.Perm settings) :
    registry.applySettings others = registry.applySettings settings := by
  have agrees : registry.Agree others := by
    intro place first firstMem second secondMem
    exact agree place first (perm.mem_iff.mp firstMem) second (perm.mem_iff.mp secondMem)
  apply eq_iff_getElem?.mpr
  intro place
  rw [applySettings_entries, applySettings_entries]
  congr 1
  funext entry
  congr 1
  cases nobody : settings.filterMap (registry.asked? place) with
  | nil =>
    have : (others.filterMap (registry.asked? place)).Perm [] := nobody ▸ perm.filterMap _
    rw [this.eq_nil]
  | cons active rest =>
    have mem : active ∈ settings.filterMap (registry.asked? place) := nobody ▸ List.mem_cons_self
    obtain ⟨setting, settingMem, asked⟩ := List.mem_filterMap.mp mem
    rw [← nobody, agree.getLastD_eq settingMem asked,
      agrees.getLastD_eq (perm.mem_iff.mpr settingMem) asked]

/-- Any setting can be the last, and then what it asks for is done. -/
theorem exists_order_of_mem {registry : Registry} {settings : List (String × Option Bool)}
    {setting : String × Option Bool} (mem : setting ∈ settings) {place : Nat} {active : Bool}
    (asked : registry.asked? place setting = some active) :
    ∃ others, others.Perm settings ∧
      ∀ entry ∈ (registry.applySettings others).entries[place]?, entry.active = active := by
  refine ⟨settings.erase setting ++ [setting], ?_, ?_⟩
  · exact (List.perm_append_singleton ..).trans (List.perm_cons_erase mem).symm
  · intro entry found
    rw [applySettings_entries, List.filterMap_append] at found
    obtain ⟨before, -, rfl⟩ := Option.map_eq_some_iff.mp found
    simp [asked]

/-- The order of a table makes no difference to a registry exactly if its settings agree there. -/
theorem applyConfig_reordered_iff (registry : Registry) (config : Config) :
    (∀ other, config.Reordered other → registry.applyConfig other = registry.applyConfig config) ↔
      registry.Agree config.checkers := by
  constructor
  · intro same place first firstMem second secondMem one other askedFirst askedSecond
    obtain ⟨orderOne, permOne, endsOne⟩ := exists_order_of_mem firstMem askedFirst
    obtain ⟨orderOther, permOther, endsOther⟩ := exists_order_of_mem secondMem askedSecond
    have equal : registry.applySettings orderOne = registry.applySettings orderOther :=
      (same ⟨config.preset, orderOne⟩ ⟨rfl, permOne⟩).trans
        (same ⟨config.preset, orderOther⟩ ⟨rfl, permOther⟩).symm
    -- The entry is there, because something is asked of it.
    have addressed : registry.place? first.1 = some place := by
      by_contra missing
      rw [asked?, if_neg missing] at askedFirst
      cases askedFirst
    have there : place < registry.entries.length :=
      (List.findIdx?_eq_some_iff_getElem.mp addressed).1
    have found : ∃ entry, (registry.applySettings orderOne).entries[place]? = some entry := by
      rw [applySettings_entries, List.getElem?_eq_getElem there]
      exact ⟨_, rfl⟩
    obtain ⟨entry, found⟩ := found
    rw [← endsOne entry found, endsOther entry (equal ▸ found)]
  · intro agree other reordered
    exact agree.applySettings_perm reordered.2

end Registry

/-! ## Registries of a run -/

/-- The order of the settings for checkers has no bearing on the preset. -/
theorem effectivePreset_reordered {config other : Config} (reordered : config.Reordered other)
    (preset : Option String) : effectivePreset preset other = effectivePreset preset config := by
  rw [effectivePreset, reordered.1]
  rfl

/-- The registry of a run is without regard to the order of the table exactly if its preset is
unknown, or the settings agree in the registry of the preset. -/
theorem configuredRegistry_reordered_iff (preset : Option String) (config : Config) :
    (∀ other, config.Reordered other →
        configuredRegistry preset other = configuredRegistry preset config) ↔
      ∀ chosen, Preset.ofName? (effectivePreset preset config) = some chosen →
        chosen.registry.Agree config.checkers := by
  cases known : Preset.ofName? (effectivePreset preset config) with
  | none =>
    constructor
    · intro _ chosen impossible
      cases impossible
    · intro _ other reordered
      simp only [configuredRegistry, effectivePreset_reordered reordered, known]
  | some chosen =>
    have built : ∀ other, config.Reordered other →
        configuredRegistry preset other = .ok (chosen.registry.applyConfig other) := by
      intro other reordered
      simp only [configuredRegistry, effectivePreset_reordered reordered, known]
    have itself : config.Reordered config := ⟨rfl, .refl _⟩
    simp only [Option.some.injEq, forall_eq']
    rw [← Registry.applyConfig_reordered_iff]
    refine forall₂_congr fun other reordered => ?_
    rw [built other reordered, built config itself, Except.ok.injEq]

/-- The report of a check with these settings. -/
def Surroundings.checkWith (around : Surroundings) (provider : Provider) (path : Path)
    (options : CheckOptions) (config : Config) : Except CheckFailure Report := do
  let registry ← Surroundings.registry options config
  let files ← around.files path options.exclude
  around.analyse provider registry files

/-- A check is made with the settings that are found, and with nothing else of their document. -/
theorem Surroundings.check_eq (around : Surroundings) (provider : Provider) (path : Path)
    (options : CheckOptions) (explicit : Option Path) :
    around.check provider path options explicit =
      around.settings (around.source path explicit) >>= around.checkWith provider path options :=
  rfl

/-- **The order of the table is without influence exactly where its settings agree.** Then it is so
for the registry of a run and for all that the run reports; and where two settings ask different
things of one checker, there are two orders that end with different registries. -/
theorem Config.order_irrelevant_iff_agree (config : Config) :
    (∀ registry : Registry,
      (∀ other, config.Reordered other →
          registry.applyConfig other = registry.applyConfig config) ↔
        registry.Agree config.checkers) ∧
      (∀ preset : Option String,
        (∀ other, config.Reordered other →
            configuredRegistry preset other = configuredRegistry preset config) ↔
          ∀ chosen, Preset.ofName? (effectivePreset preset config) = some chosen →
            chosen.registry.Agree config.checkers) ∧
      ∀ (around : Surroundings) (provider : Provider) (path : Path) (options : CheckOptions),
        (∀ chosen, Preset.ofName? (effectivePreset options.preset config) = some chosen →
            chosen.registry.Agree config.checkers) →
          ∀ other, config.Reordered other →
            around.checkWith provider path options other =
              around.checkWith provider path options config := by
  refine ⟨fun registry => registry.applyConfig_reordered_iff config,
    fun preset => configuredRegistry_reordered_iff preset config, ?_⟩
  intro around provider path options agree other reordered
  have same := (configuredRegistry_reordered_iff options.preset config).mpr agree other reordered
  unfold Surroundings.checkWith Surroundings.registry CheckOptions.registry
  rw [same]

/-- Settings that address one checker by two keys, and the other checker by one. -/
def settingsByTwoKeys : Config :=
  ⟨none, [("PA001", some false), ("pa001", some false), ("uppercase-constants", some true)]⟩

/-- The two keys address the same checker and ask the same of it, and the third addresses the other
checker. -/
theorem agree_settingsByTwoKeys (chosen : Preset) :
    chosen.registry.Agree settingsByTwoKeys.checkers := by
  have code : chosen.registry.place? "PA001" = some 0 := by cases chosen <;> decide
  have small : chosen.registry.place? "pa001" = some 0 := by cases chosen <;> decide
  have name : chosen.registry.place? "uppercase-constants" = some 1 := by cases chosen <;> decide
  have each : ∀ place, ∀ setting ∈ settingsByTwoKeys.checkers, ∀ active,
      chosen.registry.asked? place setting = some active → active = decide (place = 1) := by
    intro place setting mem active
    simp only [settingsByTwoKeys, List.mem_cons, List.not_mem_nil, or_false] at mem
    rcases mem with rfl | rfl | rfl
    all_goals simp +contextual [Registry.asked?, code, small, name, eq_comm]
  intro place first firstMem second secondMem one other askedFirst askedSecond
  rw [each place first firstMem one askedFirst, each place second secondMem other askedSecond]

/-- These settings can be taken in any order. -/
theorem Config.order_irrelevant_settingsByTwoKeys :
    settingsByTwoKeys.Reordered ⟨none, settingsByTwoKeys.checkers.reverse⟩ ∧
      configuredRegistry none ⟨none, settingsByTwoKeys.checkers.reverse⟩ =
        configuredRegistry none settingsByTwoKeys ∧
      let around : Surroundings := { disk := ⟨[(["a.py"], .file (.text "x = 1\n"))]⟩, here := [] }
      let provider : Provider := fun _ name => .ok ⟨name, []⟩
      around.checkWith provider .current {} ⟨none, settingsByTwoKeys.checkers.reverse⟩ =
        around.checkWith provider .current {} settingsByTwoKeys := by
  obtain ⟨-, forRegistry, forRun⟩ := Config.order_irrelevant_iff_agree settingsByTwoKeys
  have reordered : settingsByTwoKeys.Reordered ⟨none, settingsByTwoKeys.checkers.reverse⟩ :=
    ⟨rfl, List.reverse_perm _⟩
  have agree := fun chosen (_ : Preset.ofName? (effectivePreset none settingsByTwoKeys) =
    some chosen) => agree_settingsByTwoKeys chosen
  exact ⟨reordered, (forRegistry none).mpr agree _ reordered,
    forRun _ _ _ {} agree _ reordered⟩

/-! ## A table whose order matters -/

/-- Settings that let a checker run by its code and keep it from running by its name. -/
def settingsAtOdds : Config :=
  ⟨none, [("PA001", some true), ("no-output-in-try-body", some false)]⟩

/-- A protected block that prints. -/
def printingTree : Tree :=
  ⟨"test.py", [.tryBlock (some 1) [.call (some 2) (.name (some 2) "print") []] [] [] []]⟩

/-- In one order of this table the block is reported, and in the other it is not. -/
theorem Config.order_matters_settingsAtOdds :
    ∃ other first second, settingsAtOdds.Reordered other ∧
      configuredRegistry none settingsAtOdds = .ok first ∧
      configuredRegistry none other = .ok second ∧
      (first.check printingTree {}).issues.length = 0 ∧
      (second.check printingTree {}).issues.length = 1 :=
  ⟨⟨none, settingsAtOdds.checkers.reverse⟩, _, _, ⟨rfl, List.reverse_perm _⟩, rfl, rfl, by decide,
    by decide⟩

end SourceAudit
