import Mathlib.Data.List.Forall2

/-!
# Outcomes of steps that may be refused

A step that may be refused gives an `Except`. These are the facts by which a successful run of such
steps is taken apart: one step after another, and one step for each member of a list.
-/

namespace SourceAudit

variable {ε α β : Type}

/-- Two steps succeed if the first does and the second does with what the first gave. -/
theorem bind_eq_ok {step : Except ε α} {next : α → Except ε β} {result : β} :
    step >>= next = .ok result ↔ ∃ value, step = .ok value ∧ next value = .ok result := by
  cases step with
  | error refusal => exact ⟨fun h => (by cases h), fun ⟨_, h, _⟩ => (by cases h)⟩
  | ok value => exact ⟨fun h => ⟨value, rfl, h⟩, fun ⟨_, h, next⟩ => (by cases h; exact next)⟩

/-- Steps over a list succeed if the step of each member does. -/
theorem mapM_eq_ok {step : α → Except ε β} {inputs : List α} {results : List β} :
    inputs.mapM step = .ok results ↔
      List.Forall₂ (fun input result => step input = .ok result) inputs results := by
  induction inputs generalizing results with
  | nil =>
    rw [List.mapM_nil, List.forall₂_nil_left_iff]
    exact ⟨fun h => (by cases h; rfl), fun h => (by rw [h]; rfl)⟩
  | cons input inputs ih =>
    rw [List.mapM_cons, bind_eq_ok, List.forall₂_cons_left_iff]
    constructor
    · rintro ⟨first, hfirst, h⟩
      obtain ⟨rest, hrest, h⟩ := bind_eq_ok.mp h
      cases h
      exact ⟨first, rest, hfirst, ih.mp hrest, rfl⟩
    · rintro ⟨first, rest, hfirst, hrest, rfl⟩
      exact ⟨first, hfirst, bind_eq_ok.mpr ⟨rest, ih.mpr hrest, rfl⟩⟩

/-- Every result of steps over a list is the result of one of them. -/
theorem exists_of_mem_mapM {step : α → Except ε β} {inputs : List α} {results : List β}
    (h : inputs.mapM step = .ok results) {result : β} (mem : result ∈ results) :
    ∃ input ∈ inputs, step input = .ok result := by
  have steps := mapM_eq_ok.mp h
  clear h
  induction steps with
  | nil => cases mem
  | @cons input first inputs results hfirst _ ih =>
    rcases List.mem_cons.mp mem with rfl | mem
    · exact ⟨input, List.mem_cons_self, hfirst⟩
    · obtain ⟨input, hinput, heq⟩ := ih mem
      exact ⟨input, List.mem_cons_of_mem _ hinput, heq⟩

/-- Two steps fail if the first does, or the second does with what the first gave. -/
theorem bind_eq_error {step : Except ε α} {next : α → Except ε β} {refusal : ε} :
    step >>= next = .error refusal ↔
      step = .error refusal ∨ ∃ value, step = .ok value ∧ next value = .error refusal := by
  cases step with
  | error other =>
    constructor
    · rintro ⟨⟩
      exact .inl rfl
    · rintro (⟨⟨⟩⟩ | ⟨_, ⟨⟩, _⟩)
      rfl
  | ok value =>
    constructor
    · exact fun h => .inr ⟨value, rfl, h⟩
    · rintro (⟨⟨⟩⟩ | ⟨_, ⟨⟩, h⟩)
      exact h

/-- A list of steps goes through exactly if each step does by itself. -/
theorem exists_mapM_eq_ok {step : α → Except ε β} {inputs : List α} :
    (∃ results, inputs.mapM step = .ok results) ↔
      ∀ input ∈ inputs, ∃ result, step input = .ok result := by
  induction inputs with
  | nil => exact iff_of_true ⟨[], rfl⟩ fun _ mem => absurd mem List.not_mem_nil
  | cons input inputs ih =>
    rw [List.mapM_cons, List.forall_mem_cons, ← ih]
    constructor
    · rintro ⟨results, h⟩
      obtain ⟨first, hfirst, h⟩ := bind_eq_ok.mp h
      obtain ⟨rest, hrest, -⟩ := bind_eq_ok.mp h
      exact ⟨⟨first, hfirst⟩, rest, hrest⟩
    · rintro ⟨⟨first, hfirst⟩, rest, hrest⟩
      exact ⟨_, bind_eq_ok.mpr ⟨first, hfirst, bind_eq_ok.mpr ⟨rest, hrest, rfl⟩⟩⟩

/-- A member of the list is refused for this reason, and the step of every member before it
succeeds. -/
def FirstRefused (step : α → Except ε β) (inputs : List α) (refusal : ε) : Prop :=
  ∃ before input after, inputs = before ++ input :: after ∧
    (∀ earlier ∈ before, ∃ result, step earlier = .ok result) ∧ step input = .error refusal

/-- The first refusal is that of the first step, or comes after a first step that goes through. -/
theorem firstRefused_cons {step : α → Except ε β} {input : α} {inputs : List α} {refusal : ε} :
    FirstRefused step (input :: inputs) refusal ↔ step input = .error refusal ∨
      ∃ result, step input = .ok result ∧ FirstRefused step inputs refusal := by
  constructor
  · rintro ⟨before, other, after, apart, succeed, refused⟩
    cases before with
    | nil =>
      cases apart
      exact .inl refused
    | cons first before =>
      cases apart
      obtain ⟨⟨result, succeeded⟩, succeed⟩ := List.forall_mem_cons.mp succeed
      exact .inr ⟨result, succeeded, before, other, after, rfl, succeed, refused⟩
  · rintro (refused | ⟨result, succeeded, before, other, after, rfl, succeed, refused⟩)
    · exact ⟨[], input, inputs, rfl, fun _ mem => absurd mem List.not_mem_nil, refused⟩
    · refine ⟨input :: before, other, after, rfl, ?_, refused⟩
      exact List.forall_mem_cons.mpr ⟨⟨result, succeeded⟩, succeed⟩

/-- Steps over a list fail by the first that does. -/
theorem mapM_eq_error {step : α → Except ε β} {inputs : List α} {refusal : ε} :
    inputs.mapM step = .error refusal ↔ FirstRefused step inputs refusal := by
  induction inputs with
  | nil =>
    refine ⟨fun h => (by cases h), ?_⟩
    rintro ⟨before, input, after, apart, -⟩
    cases before <;> cases apart
  | cons input inputs ih =>
    have rest (first : β) : (inputs.mapM step >>= fun results => pure (first :: results)) =
        Except.error refusal ↔ FirstRefused step inputs refusal := by
      rw [bind_eq_error, ih]
      exact or_iff_left fun ⟨_, _, h⟩ => by cases h
    rw [List.mapM_cons, bind_eq_error, firstRefused_cons]
    simp only [rest]

end SourceAudit
