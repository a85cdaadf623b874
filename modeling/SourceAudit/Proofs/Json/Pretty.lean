import Mathlib.Data.List.TakeWhile
import SourceAudit.Json.Parser
import SourceAudit.Json.Printer

/-!
# The pretty text of a value is read back

The reader takes from the front of a text what one value is written with, and leaves the rest alone
(`Json.ReadsBack`). That is said of every text that may stand behind the value, so that the values
inside a value are a matter of the same statement: behind an item comes a comma or a line break, and
neither can be taken for more of a number.

Two things bound the statement. A number that is not natural is kept as its token, and a token may
be any text; so the statement is about values whose numbers are all natural (`Json.Plain`). And the
reader counts its steps down to nothing: the length of the text is enough, because every step down
passes over a character.
-/

namespace SourceAudit

namespace Json

/-- Every number in a value is natural. -/
inductive Plain : Json → Prop
  | null : Plain .null
  | bool (value : Bool) : Plain (.bool value)
  | nat (value : Nat) : Plain (.nat value)
  | str (value : String) : Plain (.str value)
  | arr {items : List Json} (h : ∀ item ∈ items, Plain item) : Plain (.arr items)
  | obj {members : List (String × Json)} (h : ∀ member ∈ members, Plain member.2) :
    Plain (.obj members)

/-- No number goes on in what follows. -/
def EndsNumber (rest : List Char) : Prop := ∀ c ∈ rest.head?, Parser.isNumeric c = false

/-- A value is read back from the front of a text that starts with its pretty form. -/
def ReadsBack (value : Json) : Prop :=
  ∀ depth fuel rest, EndsNumber rest → (pretty depth value).length < fuel →
    Parser.value? fuel (pretty depth value ++ rest) = some (value, rest)

namespace Parser

variable {rest text blanks : List Char} {c : Char} {fuel depth : Nat}

/-! ## Strings -/

theorem hexValue?_hexDigit : ∀ n < 16, hexValue? (hexDigit n) = some n := by decide

/-- A unit that is no half of a pair stands for a character of its own. -/
theorem join?_unit {value : Nat} (small : value < 0xD800) (tail : List Piece) :
    join? (.unit value :: tail) = (join? tail).map (Char.ofNat value :: ·) := by
  have leading : isLeading value = false := by
    simp only [isLeading, Bool.and_eq_false_iff, decide_eq_false_iff_not]
    omega
  have trailing : isTrailing value = false := by
    simp only [isTrailing, Bool.and_eq_false_iff, decide_eq_false_iff_not]
    omega
  cases tail with
  | nil => simp [join?, leading, trailing]
  | cons piece tail => cases piece <;> simp [join?, leading, trailing]

/-- A number below 256 is read back from four digits, of which the first two are 0. -/
theorem hexValue4?_hexDigit {n : Nat} (small : n < 256) :
    hexValue4? '0' '0' (hexDigit (n / 16)) (hexDigit (n % 16)) = some n := by
  have high := hexValue?_hexDigit (n / 16) (by omega)
  have low := hexValue?_hexDigit (n % 16) (by omega)
  have zero : hexValue? '0' = some 0 := rfl
  have value : n / 16 * 16 + n % 16 = n := by omega
  simp [hexValue4?, zero, high, low, value]

/-- A character that has a letter is written with that. -/
theorem pieces?_named {c letter : Char} (rest : List Char) (notUnit : letter ≠ 'u')
    (names : namedEscape? letter = some c) :
    pieces? ('\\' :: letter :: rest) =
      (pieces? rest).map fun (tail, rest) => (.char c :: tail, rest) := by
  rw [pieces?]
  · simp only [names, Option.map_eq_bind]
    rfl
  · rintro _ _ _ _ _ rfl
    exact absurd rfl notUnit

/-- A character is written with a letter of its own, with the digits of its number, or as it is. -/
theorem escape_cases (c : Char) :
    (∃ letter, letter ≠ 'u' ∧ namedEscape? letter = some c ∧ escape c = ['\\', letter]) ∨
      (c.toNat < 32 ∧ escape c =
        ['\\', 'u', '0', '0', hexDigit (c.toNat / 16), hexDigit (c.toNat % 16)]) ∨
      c ≠ '"' ∧ c ≠ '\\' ∧ ¬c.toNat < 32 ∧ escape c = [c] := by
  by_cases lettered : c ∈ ['"', '\\', '\n', '\r', '\t', '\x08', '\x0c']
  · simp only [List.mem_cons, List.not_mem_nil, or_false] at lettered
    rcases lettered with rfl | rfl | rfl | rfl | rfl | rfl | rfl
    · exact .inl ⟨'"', by decide, rfl, rfl⟩
    · exact .inl ⟨'\\', by decide, rfl, rfl⟩
    · exact .inl ⟨'n', by decide, rfl, rfl⟩
    · exact .inl ⟨'r', by decide, rfl, rfl⟩
    · exact .inl ⟨'t', by decide, rfl, rfl⟩
    · exact .inl ⟨'b', by decide, rfl, rfl⟩
    · exact .inl ⟨'f', by decide, rfl, rfl⟩
  · simp only [List.mem_cons, List.not_mem_nil, or_false, not_or] at lettered
    obtain ⟨quote, backslash, feed, carriage, tab, backspace, form⟩ := lettered
    rw [escape, if_neg quote, if_neg backslash, if_neg feed, if_neg carriage, if_neg tab,
      if_neg backspace, if_neg form]
    by_cases control : c.toNat < 32
    · exact .inr (.inl ⟨control, if_pos control⟩)
    · exact .inr (.inr ⟨quote, backslash, control, if_neg control⟩)

/-- What a character is written with is one piece of a string, which stands for that character. -/
theorem exists_piece (c : Char) :
    ∃ piece,
      (∀ rest, pieces? (escape c ++ rest) =
        (pieces? rest).map fun (tail, rest) => (piece :: tail, rest)) ∧
      ∀ tail, join? (piece :: tail) = (join? tail).map (c :: ·) := by
  rcases escape_cases c with ⟨letter, notUnit, names, written⟩ | ⟨control, written⟩ |
    ⟨quote, backslash, control, written⟩
  · refine ⟨.char c, ?_, fun _ => rfl⟩
    intro rest
    rw [written]
    exact pieces?_named rest notUnit names
  · refine ⟨.unit c.toNat, ?_, ?_⟩
    · intro rest
      rw [written]
      show (hexValue4? _ _ _ _ >>= _) = _
      rw [hexValue4?_hexDigit (by omega)]
      simp only [Option.map_eq_bind]
      rfl
    · intro tail
      rw [join?_unit (by omega), Char.ofNat_toNat]
  · refine ⟨.char c, ?_, fun _ => rfl⟩
    intro rest
    rw [written, List.singleton_append, pieces?, if_neg control]
    · simp only [Option.map_eq_bind]
      rfl
    · exact quote
    · rintro _ _ _ _ _ rfl
      exact absurd rfl backslash
    · rintro _ _ rfl
      exact absurd rfl backslash

/-- A text that is escaped character by character is read as one piece for each, and the pieces join
to the text again. The quote behind it ends the string. -/
theorem exists_pieces (cs rest : List Char) :
    ∃ pieces, pieces? (cs.flatMap escape ++ '"' :: rest) = some (pieces, rest) ∧
      join? pieces = some cs := by
  induction cs with
  | nil => exact ⟨[], rfl, rfl⟩
  | cons c cs ih =>
    obtain ⟨piece, reads, stands⟩ := exists_piece c
    obtain ⟨pieces, hpieces, hjoin⟩ := ih
    refine ⟨piece :: pieces, ?_, ?_⟩
    · rw [List.flatMap_cons, List.append_assoc, reads, hpieces]
      rfl
    · rw [stands, hjoin]
      rfl

/-- A text is read back from its quoted form. -/
theorem string?_quoted (s : String) (rest : List Char) :
    string? (s.toList.flatMap escape ++ '"' :: rest) = some (s, rest) := by
  obtain ⟨pieces, hpieces, hjoin⟩ := exists_pieces s.toList rest
  simp [string?, hpieces, hjoin]

/-! ## Numbers -/

/-- A number other than zero is written without a zero in front. -/
theorem head?_toDigits {n : Nat} (pos : 0 < n) : (Nat.toDigits 10 n).head? ≠ some '0' := by
  induction n using Nat.strong_induction_on with
  | _ n ih =>
    by_cases small : n < 10
    · have digit : ∀ n < 10, 0 < n → Nat.digitChar n ≠ '0' := by decide
      rw [Nat.toDigits_of_lt_base small]
      intro zero
      exact digit n small pos (Option.some.inj zero)
    · rw [Nat.toDigits_of_base_le (by decide) (by omega), List.head?_append]
      have first := ih (n / 10) (by omega) (by omega)
      cases digits : (Nat.toDigits 10 (n / 10)).head? with
      | none => exact absurd (List.head?_eq_none_iff.mp digits) Nat.toDigits_ne_nil
      | some c => rwa [digits] at first

/-- The digits of a number are written without a zero in front, so they are a token for a whole
number. -/
theorem isWhole_toDigits (n : Nat) : isWhole (Nat.toDigits 10 n) = true := by
  have digits : (Nat.toDigits 10 n).all Char.isDigit = true :=
    List.all_eq_true.mpr fun c mem => Nat.isDigit_of_mem_toDigits (by decide) (by decide) mem
  have filled : (Nat.toDigits 10 n).isEmpty = false :=
    List.isEmpty_eq_false_iff.mpr Nat.toDigits_ne_nil
  by_cases pos : 0 < n
  · simp [isWhole, digits, filled, head?_toDigits pos]
  · obtain rfl : n = 0 := by omega
    rfl

/-- The digits of a natural number are read as that number. -/
theorem numeral?_toDigits (n : Nat) : numeral? (Nat.toDigits 10 n) = some (.natural n) := by
  unfold numeral?
  rw [if_pos (isWhole_toDigits n), Nat.ofDigitChars_ten_toDigits]

theorem isNumeric_of_mem_toDigits {n : Nat} (mem : c ∈ Nat.toDigits 10 n) :
    isNumeric c = true := by
  have digit := Nat.isDigit_of_mem_toDigits (by decide) (by decide) mem
  simp [isNumeric, digit]

/-- A numeral is taken off the front as a whole and nothing with it, if no number goes on behind. -/
theorem takeWhile_numeral (n : Nat) (ends : EndsNumber rest) :
    (Nat.toDigits 10 n ++ rest).takeWhile isNumeric = Nat.toDigits 10 n ∧
      (Nat.toDigits 10 n ++ rest).dropWhile isNumeric = rest := by
  have all : ∀ c ∈ Nat.toDigits 10 n, isNumeric c = true := fun c => isNumeric_of_mem_toDigits
  rw [List.takeWhile_append_of_pos all, List.dropWhile_append_of_pos all]
  cases rest with
  | nil => simp
  | cons c rest =>
    have stop : isNumeric c = false := ends c rfl
    simp [stop]

/-- A character that a natural number can start with is none that another value starts with. -/
theorem value?_of_isDigit (digit : c.isDigit = true) :
    value? (fuel + 1) (c :: text) = (numeral? ((c :: text).takeWhile isNumeric)).map fun number =>
      (.num number, (c :: text).dropWhile isNumeric) := by
  have skip : skipBlanks (c :: text) = c :: text := by
    apply List.dropWhile_cons_of_neg
    rintro blank
    simp only [isBlank, Bool.or_eq_true, decide_eq_true_eq] at blank
    rcases blank with ((rfl | rfl) | rfl) | rfl <;> revert digit <;> decide
  rw [value?, skip]
  split
  case h_7 =>
    simp only [Option.map_eq_bind]
    rfl
  all_goals
    next starts =>
      obtain ⟨rfl, -⟩ := List.cons.inj starts
      exact absurd digit (by decide)

/-- A natural number is read back, whatever stands behind it that does not go on with digits. -/
theorem readsBack_nat (n : Nat) : ReadsBack (.nat n) := by
  intro depth fuel rest ends long
  obtain ⟨taken, left⟩ := takeWhile_numeral n ends
  obtain ⟨fuel, rfl⟩ : ∃ less, fuel = less + 1 := ⟨fuel - 1, by omega⟩
  show value? (fuel + 1) (Nat.toDigits 10 n ++ rest) = _
  cases digits : Nat.toDigits 10 n with
  | nil => exact absurd digits Nat.toDigits_ne_nil
  | cons c cs =>
    have first : c ∈ Nat.toDigits 10 n := digits ▸ List.mem_cons_self
    rw [List.cons_append,
      value?_of_isDigit (Nat.isDigit_of_mem_toDigits (by decide) (by decide) first),
      ← List.cons_append, ← digits, taken, left, numeral?_toDigits]
    rfl

/-! ## Blanks -/

theorem skipBlanks_append (blank : ∀ c ∈ blanks, isBlank c = true) (text : List Char) :
    skipBlanks (blanks ++ text) = skipBlanks text :=
  List.dropWhile_append_of_pos blank

theorem skipBlanks_cons (solid : isBlank c = false) : skipBlanks (c :: text) = c :: text :=
  List.dropWhile_cons_of_neg (Bool.eq_false_iff.mp solid)

/-- A line break with its indentation is all blanks, so the reader passes over it. -/
theorem isBlank_of_mem_lineBreak (mem : c ∈ lineBreak depth) : isBlank c = true := by
  rcases List.mem_cons.mp mem with rfl | mem
  · rfl
  · rw [List.eq_of_mem_replicate mem]
    rfl

theorem skipBlanks_lineBreak (depth : Nat) (text : List Char) :
    skipBlanks (lineBreak depth ++ text) = skipBlanks text :=
  skipBlanks_append (fun _ => isBlank_of_mem_lineBreak) text

theorem value?_blanks (blank : ∀ c ∈ blanks, isBlank c = true) :
    value? fuel (blanks ++ text) = value? fuel text := by
  cases fuel with
  | zero => rw [value?, value?]
  | succ fuel => rw [value?, value?, skipBlanks_append blank]

theorem items?_lineBreak : items? fuel (lineBreak depth ++ text) = items? fuel text := by
  cases fuel with
  | zero => rw [items?, items?]
  | succ fuel => rw [items?, items?, skipBlanks_lineBreak]

theorem member?_lineBreak : member? fuel (lineBreak depth ++ text) = member? fuel text := by
  cases fuel with
  | zero => rw [member?, member?]
  | succ fuel => rw [member?, member?, skipBlanks_lineBreak]

theorem members?_lineBreak : members? fuel (lineBreak depth ++ text) = members? fuel text := by
  cases fuel with
  | zero => rw [members?, members?]
  | succ fuel => rw [members?, members?, skipBlanks_lineBreak]

/-! ## What the first character of a text announces -/

theorem value?_quote :
    value? (fuel + 1) ('"' :: text) = (string? text).map fun s => (.str s.1, s.2) := rfl

/-- An array that is not empty starts with its first item, behind the line break. -/
theorem value?_bracket (solid : isBlank c = false) (notEnd : c ≠ ']') :
    value? (fuel + 1) ('[' :: (lineBreak depth ++ c :: text)) =
      (value? fuel (c :: text)).bind fun item =>
        (items? fuel item.2).map fun items => (.arr (item.1 :: items.1), items.2) := by
  have opened : skipBlanks ('[' :: (lineBreak depth ++ c :: text)) =
      '[' :: (lineBreak depth ++ c :: text) := skipBlanks_cons rfl
  rw [value?, opened]
  simp only [skipBlanks_lineBreak, skipBlanks_cons solid]
  split
  next ends => exact absurd (List.cons.inj ends).1 notEnd
  next =>
    simp only [Option.map_eq_bind]
    rfl

/-- An object that is not empty starts with its first member, behind the line break. -/
theorem value?_brace :
    value? (fuel + 1) ('{' :: (lineBreak depth ++ '"' :: text)) =
      (member? fuel ('"' :: text)).bind fun member =>
        (members? fuel member.2).map fun members => (.obj (member.1 :: members.1), members.2) := by
  have opened : skipBlanks ('{' :: (lineBreak depth ++ '"' :: text)) =
      '{' :: (lineBreak depth ++ '"' :: text) := skipBlanks_cons rfl
  have solid : isBlank '"' = false := rfl
  rw [value?, opened]
  simp only [skipBlanks_lineBreak, skipBlanks_cons solid, Option.map_eq_bind]
  rfl

theorem items?_close : items? (fuel + 1) (']' :: text) = some ([], text) := rfl

/-- Behind a comma comes the next item, and then the rest of the array. -/
theorem items?_comma :
    items? (fuel + 1) (',' :: text) =
      (value? fuel text).bind fun item =>
        (items? fuel item.2).map fun items => (item.1 :: items.1, items.2) := by
  show (value? fuel text >>= _) = _
  simp only [Option.map_eq_bind]
  rfl

theorem members?_close : members? (fuel + 1) ('}' :: text) = some ([], text) := rfl

/-- Behind a comma comes the next member, and then the rest of the object. -/
theorem members?_comma :
    members? (fuel + 1) (',' :: text) =
      (member? fuel text).bind fun member =>
        (members? fuel member.2).map fun members => (member.1 :: members.1, members.2) := by
  show (member? fuel text >>= _) = _
  simp only [Option.map_eq_bind]
  rfl

/-- A member is its key in quotes, then a colon and a blank, then its value. -/
theorem member?_quoted (key : String) :
    member? (fuel + 1) (quote key ++ ':' :: ' ' :: text) =
      (value? fuel text).map fun value => ((key, value.1), value.2) := by
  have blank : ∀ c ∈ [' '], isBlank c = true := List.forall_mem_singleton.mpr rfl
  show (string? (key.toList.flatMap escape ++ ['"'] ++ ':' :: ' ' :: text) >>= _) = _
  rw [List.append_assoc, List.singleton_append, string?_quoted]
  show (value? fuel ([' '] ++ text) >>= _) = _
  rw [value?_blanks blank]
  simp only [Option.map_eq_bind]
  rfl

/-- A value starts with something, and not with the end of an array. -/
theorem exists_head {value : Json} (plain : Plain value) (depth : Nat) :
    ∃ c tail, pretty depth value = c :: tail ∧ isBlank c = false ∧ c ≠ ']' := by
  cases plain with
  | null => exact ⟨_, _, rfl, rfl, by decide⟩
  | bool value => cases value <;> exact ⟨_, _, rfl, rfl, by decide⟩
  | nat n =>
    cases digits : Nat.toDigits 10 n with
    | nil => exact absurd digits Nat.toDigits_ne_nil
    | cons c cs =>
      have numeric : isNumeric c = true :=
        isNumeric_of_mem_toDigits (digits ▸ List.mem_cons_self)
      refine ⟨c, cs, digits, ?_, ?_⟩
      · rw [Bool.eq_false_iff]
        intro blank
        simp only [isBlank, Bool.or_eq_true, decide_eq_true_eq] at blank
        rcases blank with ((rfl | rfl) | rfl) | rfl <;> exact absurd numeric (by decide)
      · rintro rfl
        exact absurd numeric (by decide)
  | str value => exact ⟨_, _, rfl, rfl, by decide⟩
  | @arr items h => cases items <;> exact ⟨_, _, rfl, rfl, by decide⟩
  | @obj members h => cases members <;> exact ⟨_, _, rfl, rfl, by decide⟩

/-! ## What stands inside brackets -/

theorem endsNumber_cons (solid : isNumeric c = false) : EndsNumber (c :: text) := by
  rintro _ ⟨⟩
  exact solid

/-- No number goes on into the rest of an array: it starts with a comma or a line break. -/
theorem endsNumber_prettyItems (items : List Json) (outer : Nat) :
    EndsNumber (prettyItems depth items ++ (lineBreak outer ++ text)) := by
  cases items with
  | nil => exact endsNumber_cons rfl
  | cons item items => exact endsNumber_cons rfl

/-- No number goes on into the rest of an object: it starts with a comma or a line break. -/
theorem endsNumber_prettyMembers (members : List (String × Json)) (outer : Nat) :
    EndsNumber (prettyMembers depth members ++ (lineBreak outer ++ text)) := by
  cases members with
  | nil => exact endsNumber_cons rfl
  | cons member members => exact endsNumber_cons rfl

/-- Items that are read back one by one are read back behind one another. -/
theorem items?_prettyItems {items : List Json} (each : ∀ item ∈ items, ReadsBack item)
    (outer : Nat) (rest : List Char) (long : (prettyItems depth items).length < fuel) :
    items? fuel (prettyItems depth items ++ (lineBreak outer ++ ']' :: rest)) =
      some (items, rest) := by
  obtain ⟨fuel, rfl⟩ : ∃ less, fuel = less + 1 := ⟨fuel - 1, by omega⟩
  induction items generalizing fuel with
  | nil => rw [prettyItems, List.nil_append, items?_lineBreak, items?_close]
  | cons item items ih =>
    rw [List.forall_mem_cons] at each
    simp only [prettyItems, List.length_cons, List.length_append] at long
    have first := each.1 depth fuel (prettyItems depth items ++ (lineBreak outer ++ ']' :: rest))
      (endsNumber_prettyItems items outer) (by omega)
    obtain ⟨fuel, rfl⟩ : ∃ less, fuel = less + 1 := ⟨fuel - 1, by omega⟩
    rw [prettyItems, List.cons_append, List.append_assoc, List.append_assoc, items?_comma,
      value?_blanks fun _ => isBlank_of_mem_lineBreak, first, Option.bind_some,
      ih each.2 fuel (by omega), Option.map_some]

/-- A member is read back if its value is. Writing the key leaves enough steps for the value. -/
theorem member?_pretty {key : String} {value : Json} (reads : ReadsBack value)
    (ends : EndsNumber rest)
    (long : (quote key ++ ':' :: ' ' :: pretty depth value).length < fuel) :
    member? fuel (quote key ++ ':' :: ' ' :: (pretty depth value ++ rest)) =
      some ((key, value), rest) := by
  simp only [List.length_append, List.length_cons] at long
  obtain ⟨fuel, rfl⟩ : ∃ less, fuel = less + 1 := ⟨fuel - 1, by omega⟩
  rw [member?_quoted, reads depth fuel rest ends (by omega), Option.map_some]

/-- Members whose values are read back one by one are read back behind one another. -/
theorem members?_prettyMembers {members : List (String × Json)}
    (each : ∀ member ∈ members, ReadsBack member.2) (outer : Nat) (rest : List Char)
    (long : (prettyMembers depth members).length < fuel) :
    members? fuel (prettyMembers depth members ++ (lineBreak outer ++ '}' :: rest)) =
      some (members, rest) := by
  obtain ⟨fuel, rfl⟩ : ∃ less, fuel = less + 1 := ⟨fuel - 1, by omega⟩
  induction members generalizing fuel with
  | nil => rw [prettyMembers, List.nil_append, members?_lineBreak, members?_close]
  | cons member members ih =>
    obtain ⟨key, value⟩ := member
    rw [List.forall_mem_cons] at each
    simp only [prettyMembers, List.length_cons, List.length_append] at long
    have first : member? fuel (quote key ++ ':' :: ' ' :: (pretty depth value ++
        (prettyMembers depth members ++ (lineBreak outer ++ '}' :: rest)))) = _ :=
      member?_pretty each.1 (endsNumber_prettyMembers members outer)
        (by simp only [List.length_append, List.length_cons]; omega)
    obtain ⟨fuel, rfl⟩ : ∃ less, fuel = less + 1 := ⟨fuel - 1, by omega⟩
    rw [prettyMembers, List.cons_append, members?_comma]
    simp only [List.append_assoc, List.cons_append]
    rw [member?_lineBreak, first, Option.bind_some, ih each.2 fuel (by omega), Option.map_some]

/-! ## Values -/

/-- An array is read back if its items are: the first behind the bracket, and every other behind a
comma. Each of these characters pays for a step of the reader. -/
theorem readsBack_arr {items : List Json} (plain : ∀ item ∈ items, Plain item)
    (each : ∀ item ∈ items, ReadsBack item) : ReadsBack (.arr items) := by
  intro depth fuel rest ends long
  obtain ⟨fuel, rfl⟩ : ∃ less, fuel = less + 1 := ⟨fuel - 1, by omega⟩
  cases items with
  | nil => rfl
  | cons item items =>
    rw [List.forall_mem_cons] at each
    simp only [pretty, List.length_cons, List.length_append] at long
    obtain ⟨c, tail, starts, solid, notEnd⟩ :=
      exists_head (plain item List.mem_cons_self) (depth + 1)
    have first := each.1 (depth + 1) fuel
      (prettyItems (depth + 1) items ++ (lineBreak depth ++ ']' :: rest))
      (endsNumber_prettyItems items depth) (by omega)
    have others : items? fuel (prettyItems (depth + 1) items ++ (lineBreak depth ++ ']' :: rest)) =
        some (items, rest) := items?_prettyItems each.2 depth rest (by omega)
    rw [pretty, List.cons_append]
    simp only [List.append_assoc, List.singleton_append]
    rw [starts, List.cons_append] at first ⊢
    rw [value?_bracket solid notEnd, first, Option.bind_some, others, Option.map_some]

/-- An object is read back if the values of its members are, and its keys may be any texts. -/
theorem readsBack_obj {members : List (String × Json)}
    (each : ∀ member ∈ members, ReadsBack member.2) : ReadsBack (.obj members) := by
  intro depth fuel rest ends long
  obtain ⟨fuel, rfl⟩ : ∃ less, fuel = less + 1 := ⟨fuel - 1, by omega⟩
  cases members with
  | nil => rfl
  | cons member members =>
    obtain ⟨key, value⟩ := member
    rw [List.forall_mem_cons] at each
    simp only [pretty, List.length_cons, List.length_append] at long
    have first : member? fuel (quote key ++ ':' :: ' ' :: (pretty (depth + 1) value ++
        (prettyMembers (depth + 1) members ++ (lineBreak depth ++ '}' :: rest)))) = _ :=
      member?_pretty each.1 (endsNumber_prettyMembers members depth)
        (by simp only [List.length_append, List.length_cons]; omega)
    have others : members? fuel
        (prettyMembers (depth + 1) members ++ (lineBreak depth ++ '}' :: rest)) =
        some (members, rest) := members?_prettyMembers each.2 depth rest (by omega)
    rw [pretty, List.cons_append]
    simp only [List.append_assoc, List.cons_append, List.nil_append]
    rw [quote, List.cons_append] at first ⊢
    rw [value?_brace, first, Option.bind_some, others, Option.map_some]

end Parser

/-- A value with natural numbers only is read back, whatever stands behind it. -/
theorem Plain.readsBack {value : Json} (plain : Plain value) : ReadsBack value := by
  induction plain with
  | null =>
    intro depth fuel rest ends long
    obtain ⟨fuel, rfl⟩ : ∃ less, fuel = less + 1 := ⟨fuel - 1, by omega⟩
    rfl
  | bool value =>
    intro depth fuel rest ends long
    obtain ⟨fuel, rfl⟩ : ∃ less, fuel = less + 1 := ⟨fuel - 1, by omega⟩
    cases value <;> rfl
  | nat n => exact Parser.readsBack_nat n
  | str s =>
    intro depth fuel rest ends long
    obtain ⟨fuel, rfl⟩ : ∃ less, fuel = less + 1 := ⟨fuel - 1, by omega⟩
    rw [pretty, quote, List.cons_append, List.append_assoc, List.singleton_append,
      Parser.value?_quote, Parser.string?_quoted, Option.map_some]
  | arr h ih => exact Parser.readsBack_arr h ih
  | obj h ih => exact Parser.readsBack_obj ih

/-- **The pretty text of a value is read back**, with a line end behind it. -/
theorem parse?_toPrettyText {value : Json} (plain : Plain value) :
    parse? (value.toPrettyText ++ "\n") = some value := by
  have text : (value.toPrettyText ++ "\n").toList = pretty 0 value ++ ['\n'] := by
    rw [toPrettyText, String.toList_append, String.toList_ofList]
    rfl
  have ends : EndsNumber ['\n'] := Parser.endsNumber_cons rfl
  have reads : Parser.value? (2 * (pretty 0 value ++ ['\n']).length + 2)
      (pretty 0 value ++ ['\n']) = some (value, ['\n']) := by
    apply plain.readsBack 0 _ _ ends
    rw [List.length_append]
    omega
  unfold parse?
  dsimp only
  rw [text, reads]
  rfl

end Json

end SourceAudit
