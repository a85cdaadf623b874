import Mathlib.Data.List.Infix
import SourceAudit.Text.Basic

/-!
# Finding and deleting a text inside another

A text stands in another one if that comes apart around it, which is the library's `<:+:`. Deleting
it is said by where it stands: `Text.Deletes` takes away the first occurrence, goes on behind it,
and ends where there is none. The walk of `Text.eraseChars` does that in one pass, character by
character, and the two come to the same (`Text.deletes_iff`).
-/

namespace SourceAudit

namespace Text

variable {needle text rest before after : List Char}

/-- The search for a text finds it exactly if it stands somewhere. -/
theorem containsChars_iff : containsChars needle text = true ↔ needle <:+: text := by
  induction text with
  | nil => simp [containsChars]
  | cons c text ih =>
    rw [containsChars, Bool.or_eq_true, List.isPrefixOf_iff_prefix, ih, List.infix_cons_iff]

/-- No occurrence of `needle` starts before the one between `before` and `after`. -/
def IsFirst (needle before after : List Char) : Prop :=
  ∀ earlier later, before ++ needle ++ after = earlier ++ needle ++ later →
    before.length ≤ earlier.length

/-- The occurrences of `needle` that do not overlap are deleted, from left to right. -/
inductive Deletes (needle : List Char) : List Char → List Char → Prop
  /-- There is none. -/
  | none {text : List Char} (absent : ¬needle <:+: text) : Deletes needle text text
  /-- The first one is deleted, and then those behind it. -/
  | first {before after rest : List Char} (first : IsFirst needle before after)
      (next : Deletes needle after rest) :
      Deletes needle (before ++ needle ++ after) (before ++ rest)

/-! ## The walk -/

/-- Characters that are still to be skipped are passed over one by one. -/
theorem eraseChars_skip (needle text : List Char) :
    eraseChars needle before.length (before ++ text) = eraseChars needle 0 text := by
  induction before with
  | nil => rfl
  | cons c before ih => exact ih

/-- An occurrence that the walk has come to is passed over. -/
theorem eraseChars_needle (filled : needle ≠ []) :
    eraseChars needle 0 (needle ++ text) = eraseChars needle 0 text := by
  cases needle with
  | nil => exact absurd rfl filled
  | cons c needle =>
    have here : (c :: needle).isPrefixOf (c :: (needle ++ text)) = true :=
      List.isPrefixOf_iff_prefix.mpr (List.prefix_append (c :: needle) text)
    rw [List.cons_append, eraseChars, if_pos here]
    exact eraseChars_skip _ _

/-- What stands before the first occurrence stays. -/
theorem eraseChars_before (first : IsFirst needle before after) :
    eraseChars needle 0 (before ++ needle ++ after) =
      before ++ eraseChars needle 0 (needle ++ after) := by
  induction before with
  | nil => rfl
  | cons c before ih =>
    have notHere : ¬needle.isPrefixOf (c :: (before ++ needle ++ after)) = true := by
      rw [List.isPrefixOf_iff_prefix]
      rintro ⟨later, here⟩
      exact absurd (first [] later here.symm) (Nat.not_succ_le_zero _)
    have firstLater : IsFirst needle before after := by
      intro earlier later same
      have shifted := first (c :: earlier) later (congrArg (c :: ·) same)
      exact Nat.le_of_succ_le_succ shifted
    rw [List.cons_append, List.cons_append, eraseChars, if_neg notHere, ih firstLater,
      List.cons_append]

/-- Where the needle does not stand, the walk changes nothing. -/
theorem eraseChars_of_absent (absent : ¬needle <:+: text) : eraseChars needle 0 text = text := by
  induction text with
  | nil => rfl
  | cons c text ih =>
    rw [List.infix_cons_iff, not_or, ← List.isPrefixOf_iff_prefix] at absent
    rw [eraseChars, if_neg absent.1, ih absent.2]

/-! ## The first occurrence -/

/-- If the needle stands somewhere, there is a first place where it does. -/
theorem exists_first (there : needle <:+: text) :
    ∃ before after, text = before ++ needle ++ after ∧ IsFirst needle before after := by
  induction text with
  | nil =>
    obtain rfl := List.infix_nil.mp there
    exact ⟨[], [], rfl, fun _ _ _ => Nat.zero_le _⟩
  | cons c text ih =>
    by_cases here : needle <+: c :: text
    · obtain ⟨after, same⟩ := here
      exact ⟨[], after, same.symm, fun _ _ _ => Nat.zero_le _⟩
    · have later : needle <:+: text := (List.infix_cons_iff.mp there).resolve_left here
      obtain ⟨before, after, rfl, first⟩ := ih later
      refine ⟨c :: before, after, rfl, ?_⟩
      intro earlier later same
      cases earlier with
      | nil => exact absurd ⟨later, same.symm⟩ here
      | cons d earlier =>
        have shifted := first earlier later (List.cons.inj same).2
        exact Nat.succ_le_succ shifted

/-- The walk deletes what the specification deletes. The induction is on the length of the text,
because the walk goes on behind an occurrence. -/
theorem deletes_eraseChars (filled : needle ≠ []) (text : List Char) :
    Deletes needle text (eraseChars needle 0 text) := by
  induction length : text.length using Nat.strong_induction_on generalizing text with
  | _ n ih =>
    by_cases there : needle <:+: text
    · obtain ⟨before, after, rfl, first⟩ := exists_first there
      rw [eraseChars_before first, eraseChars_needle filled]
      refine .first first (ih after.length ?_ after rfl)
      have pos : 0 < needle.length := List.length_pos_of_ne_nil filled
      simp only [List.length_append] at length
      omega
    · rw [eraseChars_of_absent there]
      exact .none there

/-- **The walk deletes the occurrences that do not overlap, from left to right**, and there is only
one way to do so. -/
theorem deletes_iff (filled : needle ≠ []) :
    Deletes needle text rest ↔ rest = eraseChars needle 0 text := by
  constructor
  · intro deletes
    induction deletes with
    | none absent => exact (eraseChars_of_absent absent).symm
    | first first _ ih => rw [eraseChars_before first, eraseChars_needle filled, ← ih]
  · rintro rfl
    exact deletes_eraseChars filled text

/-- There is only one way to delete a text that is not empty, and it is the one of the walk. -/
theorem deletes_toList_iff {needle s : String} (filled : needle ≠ "") :
    Deletes needle.toList s.toList rest ↔ rest = (erase needle s).toList := by
  rw [deletes_iff (mt String.toList_eq_nil_iff.mp filled), erase, String.toList_ofList]

end Text

end SourceAudit
