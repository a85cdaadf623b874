import Mathlib.Data.List.TakeWhile
import SourceAudit.Text.Basic
import SourceAudit.Text.Blank

/-!
# What splitting and trimming leave

Splitting is said by the library's `List.splitOn`, and joining the pieces undoes it. Trimming is
said by where the text comes apart: blanks, then a core that begins and ends with something else,
then blanks (`Text.HasCore`). A text has one core, and trimming gives it. In the same way, the first
line of a text is said by where it ends (`Text.IsFirstLine`).
-/

namespace SourceAudit

namespace Text

/-- Splitting at a separator is the function of the library, which keeps empty pieces as well. -/
theorem splitList_eq_splitOn [DecidableEq α] (separator : α) (xs : List α) :
    splitList separator xs = xs.splitOn separator := by
  induction xs with
  | nil => rw [splitList, List.splitOn_nil]
  | cons x xs ih =>
    rw [splitList, List.splitOn_cons_eq_if_modifyHead, ih]
    by_cases same : x = separator
    · rw [if_pos same, if_pos (beq_iff_eq.mpr same)]
    · rw [if_neg same, if_neg (mt beq_iff_eq.mp same)]
      cases pieces : xs.splitOn separator with
      | nil => exact absurd pieces (List.splitOn_ne_nil _ _)
      | cons piece pieces => rfl

/-- No piece has the separator in it. -/
theorem notMem_of_mem_splitList [DecidableEq α] {separator : α} {xs piece : List α}
    (mem : piece ∈ splitList separator xs) : separator ∉ piece := by
  induction xs generalizing piece with
  | nil =>
    rw [splitList, List.mem_singleton] at mem
    rw [mem]
    exact List.not_mem_nil
  | cons x xs ih =>
    rw [splitList] at mem
    split_ifs at mem with same
    · rcases List.mem_cons.mp mem with rfl | mem
      · exact List.not_mem_nil
      · exact ih mem
    · cases pieces : splitList separator xs with
      | nil =>
        rw [splitList_eq_splitOn] at pieces
        exact absurd pieces (List.splitOn_ne_nil _ _)
      | cons first others =>
        rw [pieces] at mem ih
        rcases List.mem_cons.mp mem with rfl | mem
        · rw [List.mem_cons, not_or]
          exact ⟨Ne.symm same, ih List.mem_cons_self⟩
        · exact ih (List.mem_cons_of_mem _ mem)

section

variable {separator : Char} {s piece : String} {pieces : List String}

theorem split_eq (separator : Char) (s : String) :
    split separator s = (s.toList.splitOn separator).map String.ofList := by
  rw [split, splitList_eq_splitOn]

/-- A separator splits a text into the pieces before it and the pieces behind it. -/
theorem split_append (front back : String) :
    split separator (front ++ String.singleton separator ++ back) =
      split separator front ++ split separator back := by
  rw [split_eq, split_eq, split_eq, String.toList_append, String.toList_append,
    String.toList_singleton, List.append_assoc, List.singleton_append,
    List.splitOn_append_cons_self, List.map_append]

theorem split_eq_singleton (absent : separator ∉ s.toList) : split separator s = [s] := by
  rw [split_eq, List.splitOn_eq_singleton absent, List.map_singleton, String.ofList_toList]

theorem split_ne_nil (separator : Char) (s : String) : split separator s ≠ [] := by
  rw [split_eq, Ne, List.map_eq_nil_iff]
  exact List.splitOn_ne_nil _ _

/-- Joining the pieces with the separator gives back the text, so splitting loses nothing. -/
theorem intercalate_split (separator : Char) (s : String) :
    (String.singleton separator).intercalate (split separator s) = s := by
  apply String.toList_injective
  rw [String.toList_intercalate, String.toList_singleton, split_eq, List.map_map,
    String.toList_comp_ofList, List.map_id, List.intercalate_splitOn]

/-- Pieces without the separator come apart again where they were joined, unless there are none at
all. -/
theorem split_intercalate (filled : pieces ≠ [])
    (absent : ∀ piece ∈ pieces, separator ∉ piece.toList) :
    split separator ((String.singleton separator).intercalate pieces) = pieces := by
  rw [split_eq, String.toList_intercalate, String.toList_singleton, List.splitOn_intercalate]
  · rw [List.map_map, String.ofList_comp_toList, List.map_id]
  · intro cs mem
    obtain ⟨piece, inPieces, rfl⟩ := List.mem_map.mp mem
    exact absent piece inPieces
  · exact fun none => filled (List.map_eq_nil_iff.mp none)

theorem notMem_of_mem_split (mem : piece ∈ split separator s) : separator ∉ piece.toList := by
  obtain ⟨cs, inside, rfl⟩ := List.mem_map.mp mem
  rw [String.toList_ofList]
  exact notMem_of_mem_splitList inside

end

/-! ## Trimming -/

/-- The characters are the core with blanks around it, and the core has none at its ends. -/
def HasCore (cs core : List Char) : Prop :=
  ∃ left right, cs = left ++ core ++ right ∧
    (∀ c ∈ left, isBlank c = true) ∧ (∀ c ∈ right, isBlank c = true) ∧
    (∀ c ∈ core.head?, isBlank c = false) ∧ ∀ c ∈ core.getLast?, isBlank c = false

theorem dropWhile_eq_self {p : α → Bool} {xs : List α} (stays : ∀ x ∈ xs.head?, p x = false) :
    xs.dropWhile p = xs := by
  cases xs with
  | nil => rfl
  | cons x xs => exact List.dropWhile_cons_of_neg (Bool.eq_false_iff.mp (stays x rfl))

/-- Blanks at the end go, and nothing else does. -/
theorem trimRightChars_append {core right : List Char} (blank : ∀ c ∈ right, isBlank c = true)
    (stays : ∀ c ∈ core.getLast?, isBlank c = false) : trimRightChars (core ++ right) = core := by
  have kept : core.reverse.dropWhile isBlank = core.reverse := by
    apply dropWhile_eq_self
    intro c last
    rw [List.head?_reverse] at last
    exact stays c last
  rw [trimRightChars, List.reverse_append,
    List.dropWhile_append_of_pos fun c mem => blank c (List.mem_reverse.mp mem), kept,
    List.reverse_reverse]

/-- The end of a text comes apart into what trimming keeps and blanks. -/
theorem exists_trimRightChars (cs : List Char) :
    ∃ right, cs = trimRightChars cs ++ right ∧ (∀ c ∈ right, isBlank c = true) ∧
      ∀ c ∈ (trimRightChars cs).getLast?, isBlank c = false := by
  refine ⟨(cs.reverse.takeWhile isBlank).reverse, ?_, ?_, ?_⟩
  · rw [trimRightChars, ← List.reverse_append, List.takeWhile_append_dropWhile,
      List.reverse_reverse]
  · intro c mem
    exact (List.mem_takeWhile_imp (List.mem_reverse.mp mem))
  · intro c last
    rw [trimRightChars, List.getLast?_reverse] at last
    have head := List.head?_dropWhile_not isBlank cs.reverse
    rw [last] at head
    exact head

/-- **Trimming gives the core of a text.** -/
theorem trim_eq_iff (s key : String) : trim s = key ↔ HasCore s.toList key.toList := by
  rw [trim, ← String.toList_inj, String.toList_ofList]
  constructor
  · intro trimmed
    obtain ⟨right, apart, blank, last⟩ := exists_trimRightChars (s.toList.dropWhile isBlank)
    rw [trimmed] at apart last
    refine ⟨s.toList.takeWhile isBlank, right, ?_, ?_, blank, ?_, last⟩
    · rw [List.append_assoc, ← apart, List.takeWhile_append_dropWhile]
    · intro c mem
      exact List.mem_takeWhile_imp mem
    · intro c first
      have head := List.head?_dropWhile_not isBlank s.toList
      rw [apart, List.head?_append, first] at head
      exact head
  · rintro ⟨left, right, apart, leftBlank, rightBlank, first, last⟩
    rw [apart, List.append_assoc, List.dropWhile_append_of_pos leftBlank]
    cases core : key.toList with
    | nil =>
      rw [List.nil_append, List.dropWhile_eq_nil_iff.mpr rightBlank]
      rfl
    | cons c cs =>
      rw [core] at first last
      have stays : ∀ x ∈ (c :: cs ++ right).head?, isBlank x = false := first
      rw [dropWhile_eq_self stays]
      exact trimRightChars_append rightBlank last

/-! ## The first line -/

/-- Whether characters begin with a line end: a line feed, or a carriage return and a line feed. -/
def startsLineEnd : List Char → Bool
  | '\n' :: _ => true
  | '\r' :: '\n' :: _ => true
  | _ => false

/-- The line goes up to the first place where a line end begins, or else to the end. -/
def IsFirstLine (cs line : List Char) : Prop :=
  ∃ rest, cs = line ++ rest ∧ (rest = [] ∨ startsLineEnd rest = true) ∧
    ∀ front back, line = front ++ back → back ≠ [] → startsLineEnd (back ++ rest) = false

/-- What is taken for the first line goes up to the first line end, be it a line feed alone or with
a carriage return in front, and no further. -/
theorem isFirstLine_firstLineChars (cs : List Char) : IsFirstLine cs (firstLineChars cs) := by
  have nothing {front back : List Char} (empty : [] = front ++ back) (filled : back ≠ []) : False :=
    filled (List.append_eq_nil_iff.mp empty.symm).2
  fun_induction firstLineChars cs with
  | case1 => exact ⟨[], rfl, .inl rfl, fun _ _ empty filled => (nothing empty filled).elim⟩
  | case2 rest =>
    exact ⟨'\n' :: rest, rfl, .inr rfl, fun _ _ empty filled => (nothing empty filled).elim⟩
  | case3 rest =>
    exact ⟨'\r' :: '\n' :: rest, rfl, .inr rfl,
      fun _ _ empty filled => (nothing empty filled).elim⟩
  | case4 c rest notFeed notReturn ih =>
    obtain ⟨behind, apart, ends, first⟩ := ih
    refine ⟨behind, congrArg _ apart, ends, ?_⟩
    intro front back line filled
    cases front with
    | nil =>
      rw [← List.nil_append back, ← line, List.cons_append, ← apart]
      unfold startsLineEnd
      split
      next same => exact (notFeed (List.cons.inj same).1).elim
      next same => exact (notReturn _ (List.cons.inj same).1 (List.cons.inj same).2).elim
      next => rfl
    | cons d front => exact first front back (List.cons.inj line).2 filled

/-- A text has one first line. -/
theorem IsFirstLine.unique {cs line other : List Char} (first : IsFirstLine cs line)
    (second : IsFirstLine cs other) : line = other := by
  obtain ⟨rest, apart, ends, before⟩ := first
  obtain ⟨otherRest, otherApart, otherEnds, otherBefore⟩ := second
  -- The longer one would go on where the shorter one meets a line end.
  have meets {back rest : List Char}
      (ends : back ++ rest = [] ∨ startsLineEnd (back ++ rest) = true)
      (goesOn : back ≠ [] → startsLineEnd (back ++ rest) = false) : back = [] := by
    by_contra filled
    rcases ends with empty | ends
    · exact filled (List.append_eq_nil_iff.mp empty).1
    · rw [goesOn filled] at ends
      cases ends
  rcases List.append_eq_append_iff.mp (apart.symm.trans otherApart) with
    ⟨back, rfl, rfl⟩ | ⟨back, rfl, rfl⟩
  · rw [meets ends (otherBefore line back rfl), List.append_nil]
  · rw [meets otherEnds (before other back rfl), List.append_nil]

/-- **A text has one first line.** -/
theorem firstLineChars_eq_iff {cs line : List Char} :
    firstLineChars cs = line ↔ IsFirstLine cs line := by
  constructor
  · rintro rfl
    exact isFirstLine_firstLineChars cs
  · exact (isFirstLine_firstLineChars cs).unique

/-- There is no line feed in a first line. -/
theorem IsFirstLine.notMem {cs line : List Char} (first : IsFirstLine cs line) : '\n' ∉ line := by
  intro mem
  obtain ⟨front, back, rfl⟩ := List.append_of_mem mem
  obtain ⟨rest, -, -, before⟩ := first
  cases before front ('\n' :: back) rfl (List.cons_ne_nil _ _)

end Text

end SourceAudit
