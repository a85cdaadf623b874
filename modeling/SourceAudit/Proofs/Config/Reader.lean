import Mathlib.Data.List.Forall2
import SourceAudit.Config.Reader

/-!
# What a value says as settings

Which settings a value holds is said here by what stands in it, field by field and without a reader
(`Config.Says`): by name in a table and by place in an array, with a default for what is absent. The
reader gives exactly these settings and refuses every other value (`Config.ofValue?_eq_some_iff`).
-/

namespace SourceAudit

namespace Config

/-- A value is a text: it is written as one, or it is a date or time in a section. -/
inductive IsText : Place → Toml.Value → String → Prop
  | string {place : Place} {text : String} : IsText place (.string text) text
  | dateTime {value : Toml.DateTime} : IsText .section (.dateTime value) value.text

/-- In a section there is nothing behind the last field. -/
def Ends (place : Place) (surplus : List Toml.Value) : Prop := place = .section → surplus = []

/-- What a value says of one checker. It has one field, which may be absent, and no other. -/
inductive Activates (place : Place) : Toml.Value → Option Bool → Prop
  | emptyTable : Activates place (.table []) none
  | table {enabled : Bool} {rest : Toml.Table} (only : ∀ entry ∈ rest, entry.1 = "enabled") :
    Activates place (.table (("enabled", .boolean enabled) :: rest)) (some enabled)
  | emptyArray : Activates place (.array []) none
  | array {enabled : Bool} {surplus : List Toml.Value} (ends : Ends place surplus) :
    Activates place (.array (.boolean enabled :: surplus)) (some enabled)

/-- What a field says of the preset. -/
inductive SaysPreset (place : Place) : Option Toml.Value → Option String → Prop
  | absent : SaysPreset place none none
  | given {value : Toml.Value} {text : String} (isText : IsText place value text) :
    SaysPreset place (some value) (some text)

/-- What a field says of the checkers: something of each that is named, in the order of the
document. -/
inductive SaysCheckers (place : Place) : Option Toml.Value → List (String × Option Bool) → Prop
  | absent : SaysCheckers place none []
  | given {entries : Toml.Table} {checkers : List (String × Option Bool)}
    (each : List.Forall₂
      (fun entry checker => checker.1 = entry.1 ∧ Activates place entry.2 checker.2)
      entries checkers) :
    SaysCheckers place (some (.table entries)) checkers

/-- A value holds these settings. -/
inductive Says (place : Place) : Toml.Value → Config → Prop
  | table {entries : Toml.Table} {config : Config}
    (preset : SaysPreset place (entries.lookup "preset") config.preset)
    (checkers : SaysCheckers place (entries.lookup "checkers") config.checkers) :
    Says place (.table entries) config
  | array {items : List Toml.Value} {config : Config} (ends : Ends place (items.drop 2))
    (preset : SaysPreset place items[0]? config.preset)
    (checkers : SaysCheckers place items[1]? config.checkers) : Says place (.array items) config

/-- An outcome is the settings that a section holds, and an error exactly if it holds none. -/
structure Decodes (value : Toml.Value) (outcome : Except ConfigError Config) : Prop where
  loads : ∀ config, outcome = .ok config ↔ Says .section value config
  refuses : outcome = .error .malformed ↔ ∀ config, ¬Says .section value config

/-! ## The reader -/

section

variable {place : Place} {value : Toml.Value} {field : Option Toml.Value}

/-- The reader of a text gives the text that the value is, and takes a date or time for one in a
section only. -/
theorem text?_eq_some_iff {text : String} :
    text? place value = some text ↔ IsText place value text := by
  constructor
  · intro read
    unfold text? at read
    split at read
    next =>
      cases read
      exact .string
    next =>
      split at read
      next inSection =>
        cases read
        rw [inSection]
        exact .dateTime
      next => cases read
    next => cases read
  · rintro (_ | _)
    · rfl
    · rfl

theorem truth?_eq_some_iff {truth : Bool} : truth? value = some truth ↔ value = .boolean truth := by
  cases value <;> simp [truth?]

theorem allowsSurplus_iff {surplus : List Toml.Value} :
    allowsSurplus place surplus = true ↔ Ends place surplus := by
  cases place <;> simp [allowsSurplus, Ends]

/-- The reader of what is said of a checker gives just that. A table may hold one name and no other,
and an array has its field in the first place. -/
theorem activation?_eq_some_iff {activation : Option Bool} :
    activation? place value = some activation ↔ Activates place value activation := by
  constructor
  · intro read
    unfold activation? at read
    split at read
    next entries =>
      split at read
      next only =>
        simp only [List.all_eq_true, beq_iff_eq] at only
        cases entries with
        | nil =>
          cases read
          exact .emptyTable
        | cons entry rest =>
          obtain ⟨key, value⟩ := entry
          rw [List.forall_mem_cons] at only
          obtain ⟨truth, isTruth, rfl⟩ := Option.map_eq_some_iff.mp read
          obtain rfl : key = "enabled" := only.1
          rw [truth?_eq_some_iff.mp isTruth]
          exact .table only.2
      next => cases read
    next =>
      cases read
      exact .emptyArray
    next =>
      split at read
      next ends =>
        obtain ⟨truth, isTruth, rfl⟩ := Option.map_eq_some_iff.mp read
        rw [truth?_eq_some_iff.mp isTruth]
        exact .array (allowsSurplus_iff.mp ends)
      next => cases read
    next => cases read
  · intro holds
    cases holds with
    | emptyTable | emptyArray => rfl
    | @table enabled rest only =>
      have all : (("enabled", Toml.Value.boolean enabled) :: rest).all (·.1 == "enabled") = true :=
        by simpa using only
      rw [activation?, if_pos all]
      rfl
    | array ends =>
      rw [activation?, if_pos (allowsSurplus_iff.mpr ends)]
      rfl

/-- A list is read if each of its members is, and what is read are the results in order. -/
theorem mapM_eq_some {α β : Type} {read : α → Option β} {inputs : List α} {results : List β} :
    inputs.mapM read = some results ↔
      List.Forall₂ (fun input result => read input = some result) inputs results := by
  induction inputs generalizing results with
  | nil =>
    rw [List.mapM_nil, List.forall₂_nil_left_iff]
    exact ⟨fun h => (Option.some.inj h).symm, fun h => h ▸ rfl⟩
  | cons input inputs ih =>
    simp only [List.mapM_cons, List.forall₂_cons_left_iff, ← ih, Option.bind_eq_bind,
      Option.bind_eq_some_iff, Option.pure_def, Option.some.injEq]
    constructor
    · rintro ⟨first, isFirst, rest, areRest, rfl⟩
      exact ⟨first, rest, isFirst, areRest, rfl⟩
    · rintro ⟨first, rest, isFirst, areRest, rfl⟩
      exact ⟨first, isFirst, rest, areRest, rfl⟩

/-- The reader of the checkers gives what is said of each, in the order of the document; one that
says nothing readable fails the whole. -/
theorem checkers?_eq_some_iff {checkers : List (String × Option Bool)} :
    fieldOr [] (checkers? place) field = some checkers ↔ SaysCheckers place field checkers := by
  constructor
  · intro read
    cases field with
    | none =>
      cases read
      exact .absent
    | some value =>
      have read : checkers? place value = some checkers := read
      unfold checkers? at read
      split at read
      next entries =>
        refine .given ((mapM_eq_some.mp read).imp fun entry checker h => ?_)
        obtain ⟨activation, said, rfl⟩ := Option.map_eq_some_iff.mp h
        exact ⟨rfl, activation?_eq_some_iff.mp said⟩
      next => cases read
  · intro holds
    cases holds with
    | absent => rfl
    | given each =>
      refine mapM_eq_some.mpr (each.imp fun entry checker said => ?_)
      obtain ⟨same, said⟩ := said
      refine Option.map_eq_some_iff.mpr ⟨checker.2, activation?_eq_some_iff.mpr said, ?_⟩
      rw [← same]

/-- The reader of the preset gives its text, or nothing where the field is absent. It does not pass
over a field that is no text. -/
theorem preset?_eq_some_iff {preset : Option String} :
    fieldOr none (fun value => (text? place value).map some) field = some preset ↔
      SaysPreset place field preset := by
  constructor
  · intro read
    cases field with
    | none =>
      cases read
      exact .absent
    | some value =>
      obtain ⟨text, isText, rfl⟩ := Option.map_eq_some_iff.mp read
      exact .given (text?_eq_some_iff.mp isText)
  · intro holds
    cases holds with
    | absent => rfl
    | given isText => exact Option.map_eq_some_iff.mpr ⟨_, text?_eq_some_iff.mpr isText, rfl⟩

/-- The two fields are read apart from each other, and settings are read only if both can be. -/
theorem ofFields?_eq_some_iff {preset checkers : Option Toml.Value} {config : Config} :
    ofFields? place preset checkers = some config ↔
      SaysPreset place preset config.preset ∧ SaysCheckers place checkers config.checkers := by
  rw [← preset?_eq_some_iff, ← checkers?_eq_some_iff, ofFields?]
  simp only [Option.bind_eq_bind, Option.bind_eq_some_iff, Option.pure_def, Option.some.injEq]
  constructor
  · rintro ⟨_, isPreset, _, areCheckers, rfl⟩
    exact ⟨isPreset, areCheckers⟩
  · rintro ⟨isPreset, areCheckers⟩
    exact ⟨_, isPreset, _, areCheckers, rfl⟩

/-- **The reader gives the settings that a value holds, and refuses a value that holds none.** -/
theorem ofValue?_eq_some_iff {config : Config} :
    ofValue? place value = some config ↔ Says place value config := by
  constructor
  · intro read
    unfold ofValue? at read
    split at read
    next =>
      obtain ⟨preset, checkers⟩ := ofFields?_eq_some_iff.mp read
      exact .table preset checkers
    next =>
      split at read
      next ends =>
        obtain ⟨preset, checkers⟩ := ofFields?_eq_some_iff.mp read
        exact .array (allowsSurplus_iff.mp ends) preset checkers
      next => cases read
    next => cases read
  · intro holds
    cases holds with
    | table preset checkers => exact ofFields?_eq_some_iff.mpr ⟨preset, checkers⟩
    | array ends preset checkers =>
      rw [ofValue?, if_pos (allowsSurplus_iff.mpr ends)]
      exact ofFields?_eq_some_iff.mpr ⟨preset, checkers⟩

/-- What the reader makes of a section is decoded from it: the settings that it holds, or the one
error if it holds none. -/
theorem decodes_orMalformed (value : Toml.Value) :
    Decodes value (orMalformed (ofValue? .section value)) := by
  constructor
  · intro config
    rw [← ofValue?_eq_some_iff]
    cases ofValue? .section value <;> simp [orMalformed]
  · simp only [← ofValue?_eq_some_iff]
    cases ofValue? .section value <;> simp [orMalformed]

end

end Config

end SourceAudit
