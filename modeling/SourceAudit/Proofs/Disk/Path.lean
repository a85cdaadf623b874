import Mathlib.Data.List.Infix
import SourceAudit.Disk.Path
import SourceAudit.Proofs.Text

/-!
# The components of a path

A path is a text, and what it says is the list of its components: the names between the slashes,
less those that lead nowhere, behind a slash or a dot in front that counts as a component of its
own. Going down to a name adds it at the end (`Path.components_child`), however the path is written.
Going up takes components off the end one by one (`Path.components_ancestors`), so the paths above a
path are the initial segments of it, the longest first; only the slash in front stays.

The extension of a name is what stands behind its last dot (`extension?_eq_some_iff`).
-/

namespace SourceAudit

namespace Path

/-- The component in front of the names: the root of the disk, or a leading dot. -/
def start (path : Path) : List String :=
  if path.isAbsolute then ["/"] else if path.pieces.head? = some "." then ["."] else []

/-- The pieces that lead somewhere. -/
def namesOf (pieces : List String) : List String := pieces.filter fun piece => !isIdle piece

/-- The components of a path. -/
def components (path : Path) : List String := path.start ++ namesOf path.pieces

/-- A text that can be the name of something in a folder: it leads somewhere, and is one piece. -/
def IsName (name : String) : Prop := isIdle name = false ∧ '/' ∉ name.toList

instance (name : String) : Decidable (IsName name) := inferInstanceAs (Decidable (_ ∧ _))

variable {path : Path} {name opening : String} {names pieces : List String}

/-! ## Pieces -/

/-- A slash separates the pieces before it from those behind it. -/
theorem pieces_append (front back : String) :
    Path.pieces ⟨front ++ "/" ++ back⟩ = Path.pieces ⟨front⟩ ++ Path.pieces ⟨back⟩ :=
  Text.split_append front back

/-- A slash at the end adds an empty piece. -/
theorem pieces_trailing (front : String) :
    Path.pieces ⟨front ++ "/"⟩ = Path.pieces ⟨front⟩ ++ [""] := by
  have behind := pieces_append front ""
  rwa [String.append_empty] at behind

theorem pieces_name (named : IsName name) : Path.pieces ⟨name⟩ = [name] :=
  Text.split_eq_singleton named.2

theorem pieces_ne_nil (path : Path) : path.pieces ≠ [] := Text.split_ne_nil _ _

/-- There is always a first piece, so more pieces do not change it. -/
theorem head?_pieces_append (path : Path) (more : List String) :
    (path.pieces ++ more).head? = path.pieces.head? := by
  cases pieces : path.pieces with
  | nil => exact absurd pieces (pieces_ne_nil path)
  | cons piece pieces => rfl

theorem namesOf_append (pieces more : List String) :
    namesOf (pieces ++ more) = namesOf pieces ++ namesOf more := List.filter_append _ _

theorem namesOf_of_idle (idle : ∀ piece ∈ pieces, isIdle piece = true) : namesOf pieces = [] := by
  rw [namesOf, List.filter_eq_nil_iff]
  intro piece mem
  rw [idle piece mem]
  exact Bool.false_ne_true

theorem namesOf_cons (leads : isIdle name = false) (pieces : List String) :
    namesOf (name :: pieces) = name :: namesOf pieces :=
  List.filter_cons_of_pos (by rw [leads]; rfl)

theorem namesOf_singleton (leads : isIdle name = false) : namesOf [name] = [name] :=
  namesOf_cons leads []

/-- The empty piece behind a trailing slash is no name. -/
theorem namesOf_trailing (front : String) :
    namesOf (Path.pieces ⟨front ++ "/"⟩) = namesOf (Path.pieces ⟨front⟩) := by
  have idle : namesOf [""] = [] := by decide
  rw [pieces_trailing, namesOf_append, idle, List.append_nil]

theorem IsName.ne_empty (named : IsName name) : name ≠ "" := by
  rintro rfl
  exact absurd named.1 (by decide)

theorem IsName.ne_dot (named : IsName name) : name ≠ "." := by
  rintro rfl
  exact absurd named.1 (by decide)

/-! ## Downwards -/

/-- What stands in front of the names is told by the first character and the first piece. -/
theorem start_congr {other : Path} (chars : path.text.toList.head? = other.text.toList.head?)
    (first : path.pieces.head? = other.pieces.head?) : path.start = other.start := by
  unfold start isAbsolute
  rw [chars, first]

/-- What stands behind a slash adds its names, and nothing in front. -/
theorem components_slash (front back : String) :
    components ⟨front ++ "/" ++ back⟩ =
      components ⟨front ++ "/"⟩ ++ namesOf (Path.pieces ⟨back⟩) := by
  have start : start ⟨front ++ "/" ++ back⟩ = start ⟨front ++ "/"⟩ := by
    apply start_congr
    · simp [String.toList_append, List.head?_append]
    · rw [pieces_append, pieces_trailing, head?_pieces_append, head?_pieces_append]
  rw [components, components, start, pieces_append, namesOf_append, namesOf_trailing,
    List.append_assoc]

/-- A slash at the end adds nothing, unless it is all there is. -/
theorem components_trailing {front : String} (filled : front ≠ "") :
    components ⟨front ++ "/"⟩ = components ⟨front⟩ := by
  have start : start ⟨front ++ "/"⟩ = start ⟨front⟩ := by
    apply start_congr
    · cases chars : front.toList with
      | nil => exact absurd (String.toList_eq_nil_iff.mp chars) filled
      | cons c cs => simp [String.toList_append, chars]
    · rw [pieces_trailing, head?_pieces_append]
  rw [components, components, start, namesOf_trailing]

/-- A name by itself is a path with one component. -/
theorem components_name (named : IsName name) : components ⟨name⟩ = [name] := by
  have relative : isAbsolute ⟨name⟩ = false := by
    rw [isAbsolute, decide_eq_false_iff_not]
    intro slash
    exact named.2 (List.mem_of_mem_head? slash)
  rw [components, pieces_name named, namesOf_singleton named.1]
  simp [start, relative, pieces_name named, named.ne_dot]

/-- **Going down to a name adds it to the components.** -/
theorem components_child (path : Path) (named : IsName name) :
    (path.child name).components = path.components ++ [name] := by
  obtain ⟨text⟩ := path
  have single : namesOf (Path.pieces ⟨name⟩) = [name] := by
    rw [pieces_name named, namesOf_singleton named.1]
  by_cases empty : text = ""
  · subst empty
    show components ⟨"" ++ name⟩ = components ⟨""⟩ ++ [name]
    rw [String.empty_append, components_name named]
    rfl
  · by_cases slash : text.toList.getLast? = some '/'
    · have child : (Path.mk text).child name = ⟨text ++ name⟩ := by
        simp [Path.child, slash]
      obtain ⟨front, rfl⟩ : ∃ front, text = front ++ "/" := by
        refine ⟨String.ofList text.toList.dropLast, String.toList_injective ?_⟩
        rw [String.toList_append, String.toList_ofList]
        exact (List.dropLast_append_getLast? '/' slash).symm
      rw [child, components_slash, single]
    · have child : (Path.mk text).child name = ⟨text ++ "/" ++ name⟩ := by
        simp [Path.child, empty, slash]
      rw [child, components_slash, components_trailing empty, single]

/-- Going down through several names adds them all, in order. -/
theorem components_descend (path : Path) (named : ∀ name ∈ names, IsName name) :
    (path.descend names).components = path.components ++ names := by
  induction names generalizing path with
  | nil => exact (List.append_nil _).symm
  | cons name names ih =>
    rw [List.forall_mem_cons] at named
    show ((path.child name).descend names).components = _
    rw [ih (path.child name) named.2, components_child path named.1, List.append_assoc,
      List.singleton_append]

/-! ## Upwards -/

/-- The component that an opening is, if it is one. -/
def mark (opening : String) : List String := if opening = "" then [] else [opening]

/-- An opening and the pieces behind it, as a path comes apart into them. A dot is followed by a
slash, and a path without an opening starts with a name. -/
inductive Opens : String → List String → Prop
  | root {pieces : List String} : Opens "/" pieces
  | dot {pieces : List String} (first : ∀ piece ∈ pieces.head?, piece = "") : Opens "." pieces
  | name {pieces : List String} (first : ∀ piece ∈ pieces.head?, isIdle piece = false) :
    Opens "" pieces

/-- Pieces may be left off at the end without the opening becoming another. -/
theorem Opens.front {more : List String} (opens : Opens opening (pieces ++ more)) :
    Opens opening pieces := by
  cases opens with
  | root => exact .root
  | dot first =>
    refine .dot fun piece head => first piece ?_
    exact List.mem_head?_append_of_mem_head? head
  | name first =>
    refine .name fun piece head => first piece ?_
    exact List.mem_head?_append_of_mem_head? head

/-- Pieces without slashes come apart again where they were joined. -/
theorem namesOf_joined (apart : ∀ piece ∈ pieces, '/' ∉ piece.toList) :
    namesOf (Path.pieces ⟨"/".intercalate pieces⟩) = namesOf pieces := by
  by_cases empty : pieces = []
  · subst empty
    rfl
  · have joined : Path.pieces ⟨"/".intercalate pieces⟩ = pieces :=
      Text.split_intercalate empty apart
    rw [joined]

/-- The path with an opening and pieces has these as components. -/
theorem components_joined (opens : Opens opening pieces)
    (apart : ∀ piece ∈ pieces, '/' ∉ piece.toList)
    (ends : ∀ piece ∈ pieces.getLast?, isIdle piece = false) :
    components ⟨opening ++ "/".intercalate pieces⟩ = mark opening ++ namesOf pieces := by
  cases opens with
  | root =>
    have whole := components_slash "" ("/".intercalate pieces)
    rw [String.empty_append, namesOf_joined apart] at whole
    exact whole
  | dot first =>
    cases pieces with
    | nil => rfl
    | cons piece others =>
      obtain rfl : piece = "" := first piece rfl
      have filled : others ≠ [] := by
        rintro rfl
        exact absurd (ends "" rfl) (by decide)
      have whole := components_slash "." ("/".intercalate others)
      rw [namesOf_joined (List.forall_mem_cons.mp apart).2] at whole
      rw [String.intercalate_cons_of_ne_nil filled, String.empty_append, ← String.append_assoc]
      exact whole
  | name first =>
    cases pieces with
    | nil => rfl
    | cons piece others =>
      rw [List.forall_mem_cons] at apart
      have named : IsName piece := ⟨first piece rfl, apart.1⟩
      rw [String.empty_append]
      by_cases empty : others = []
      · subst empty
        rw [String.intercalate_singleton, components_name named, namesOf_singleton named.1]
        rfl
      · rw [String.intercalate_cons_of_ne_nil empty, components_slash,
          components_trailing named.ne_empty, components_name named,
          namesOf_joined apart.2, namesOf_cons named.1]
        rfl

/-- A path that is put together from its pieces in reverse has them as components. Pieces that lead
nowhere are left off at the end, so no slash trails. -/
theorem components_assemble (opens : Opens opening pieces.reverse)
    (apart : ∀ piece ∈ pieces, '/' ∉ piece.toList) :
    components (assemble opening pieces) = mark opening ++ namesOf pieces.reverse := by
  have whole : pieces.reverse =
      (pieces.dropWhile isIdle).reverse ++ (pieces.takeWhile isIdle).reverse := by
    rw [← List.reverse_append, List.takeWhile_append_dropWhile]
  have idle : namesOf (pieces.takeWhile isIdle).reverse = [] := by
    apply namesOf_of_idle
    intro piece mem
    exact List.mem_takeWhile_imp (List.mem_reverse.mp mem)
  rw [whole] at opens
  rw [assemble, components_joined opens.front, whole, namesOf_append, idle, List.append_nil]
  · intro piece mem
    exact apart piece ((List.dropWhile_sublist _).mem (List.mem_reverse.mp mem))
  · intro piece last
    rw [List.getLast?_reverse] at last
    have stops := List.head?_dropWhile_not isIdle pieces
    rw [last] at stops
    exact stops

/-- A list is the longest of its initial segments. -/
theorem inits_eq_dropLast_append (xs : List α) : xs.inits = xs.inits.dropLast ++ [xs] := by
  induction xs using List.reverseRecOn with
  | nil => rfl
  | append_singleton xs x _ => simp [List.inits_append]

/-- Above an opening and pieces are the paths with fewer names, one less at a time. -/
theorem components_aboveFrom (opens : Opens opening pieces.reverse)
    (apart : ∀ piece ∈ pieces, '/' ∉ piece.toList) :
    (aboveFrom opening pieces).map components =
      ((namesOf pieces.reverse).inits.dropLast.map (mark opening ++ ·)).reverse ++
        if opening = "." then [[]] else [] := by
  induction pieces with
  | nil =>
    rw [aboveFrom]
    split_ifs
    · rfl
    · rfl
  | cons piece pieces ih =>
    rw [List.reverse_cons] at opens
    rw [List.forall_mem_cons] at apart
    have above := ih opens.front apart.2
    rw [aboveFrom, List.reverse_cons, namesOf_append]
    by_cases idle : isIdle piece
    · have nothing : namesOf [piece] = [] := namesOf_of_idle (List.forall_mem_singleton.mpr idle)
      rw [if_pos idle, above, nothing, List.append_nil]
    · have shorter : (namesOf pieces.reverse ++ [piece]).inits.dropLast =
          (namesOf pieces.reverse).inits.dropLast ++ [namesOf pieces.reverse] := by
        rw [← inits_eq_dropLast_append]
        simp [List.inits_append]
      rw [if_neg idle, List.map_cons, components_assemble opens.front apart.2, above,
        namesOf_singleton (Bool.eq_false_iff.mpr idle), shorter, List.map_append,
        List.reverse_append]
      rfl

/-- A path that is neither absolute nor starts with a dot alone starts with a name. -/
theorem not_isIdle_head_pieces (filled : path.text ≠ "")
    (slash : ∀ rest, path.text.toList ≠ '/' :: rest) (dot : path.text.toList ≠ ['.'])
    (dotSlash : ∀ rest, path.text.toList ≠ '.' :: '/' :: rest) :
    ∀ piece ∈ path.pieces.head?, isIdle piece = false := by
  have joined : "/".intercalate path.pieces = path.text := Text.intercalate_split '/' path.text
  intro piece head
  cases pieces : path.pieces with
  | nil => exact absurd pieces (pieces_ne_nil path)
  | cons first others =>
    rw [pieces] at head joined
    cases head
    rw [isIdle, Bool.or_eq_false_iff, decide_eq_false_iff_not, decide_eq_false_iff_not]
    cases others with
    | nil =>
      rw [String.intercalate_singleton] at joined
      subst joined
      exact ⟨filled, fun same => dot (by rw [same]; rfl)⟩
    | cons next others =>
      rw [String.intercalate_cons_of_ne_nil (List.cons_ne_nil _ _)] at joined
      constructor
      · rintro rfl
        exact slash ("/".intercalate (next :: others)).toList (by rw [← joined]; simp)
      · rintro rfl
        exact dotSlash ("/".intercalate (next :: others)).toList (by rw [← joined]; simp)

/-- A path comes apart into an opening and pieces. -/
theorem opens_opening (filled : path.text ≠ "") :
    Opens path.opening.1 path.opening.2 ∧
      (∀ piece ∈ path.opening.2, '/' ∉ piece.toList) ∧
      path.components = mark path.opening.1 ++ namesOf path.opening.2 := by
  obtain ⟨text⟩ := path
  have behind (rest : List Char) :
      (Text.splitList '/' rest).map String.ofList = Path.pieces ⟨String.ofList rest⟩ := by
    rw [Path.pieces, Text.split, String.toList_ofList]
  have apart (path : Path) : ∀ piece ∈ path.pieces, '/' ∉ piece.toList :=
    fun piece => Text.notMem_of_mem_split
  unfold opening
  split
  next rest chars =>
    obtain rfl : text = "" ++ "/" ++ String.ofList rest :=
      String.toList_injective (by rw [chars]; simp)
    rw [behind]
    exact ⟨.root, apart _, components_slash _ _⟩
  next chars =>
    obtain rfl : text = "." := String.toList_injective chars
    refine ⟨.dot ?_, ?_, by decide⟩
    · intro piece head
      cases head
    · intro piece mem
      cases mem
  next rest chars =>
    obtain rfl : text = "." ++ "/" ++ String.ofList rest :=
      String.toList_injective (by rw [chars]; simp)
    rw [behind]
    refine ⟨.dot fun piece head => (Option.mem_some.mp head).symm, ?_, components_slash _ _⟩
    rw [List.forall_mem_cons]
    exact ⟨List.not_mem_nil, apart _⟩
  next cs slash dot dotSlash =>
    have first := not_isIdle_head_pieces filled slash dot dotSlash
    have start : start ⟨text⟩ = [] := by
      rw [Path.start, if_neg, if_neg]
      · intro dot
        exact absurd (first "." dot) (by decide)
      · intro absolute
        obtain ⟨rest, chars⟩ := List.head?_eq_some_iff.mp (of_decide_eq_true absolute)
        exact slash rest chars
    rw [behind, String.ofList_toList]
    refine ⟨.name first, apart _, ?_⟩
    rw [components, start]
    rfl

/-- A path is absolute exactly if a slash opens it. -/
theorem isAbsolute_eq (path : Path) : path.isAbsolute = decide (path.opening.1 = "/") := by
  unfold isAbsolute opening
  split
  next chars => simp [chars]
  next chars => simp [chars]
  next chars => simp [chars]
  next slash _ _ =>
    have relative : path.text.toList.head? ≠ some '/' := by
      intro absolute
      obtain ⟨rest, chars⟩ := List.head?_eq_some_iff.mp absolute
      exact slash rest chars
    simp [relative]

/-- **The paths above a path are its initial segments**, the longest first; the root of the disk is
above everything that starts there, and nothing is above it. -/
theorem components_ancestors (path : Path) :
    path.ancestors.map components =
      (if path.isAbsolute then path.components.inits.tail else path.components.inits).reverse := by
  by_cases empty : path.text = ""
  · obtain rfl : path = ⟨""⟩ := by rw [← empty]
    decide
  · obtain ⟨opens, apart, whole⟩ := opens_opening empty
    have above := @components_aboveFrom path.opening.1 path.opening.2.reverse
      (by rwa [List.reverse_reverse]) (fun piece mem => apart piece (List.mem_reverse.mp mem))
    rw [List.reverse_reverse] at above
    set names := namesOf path.opening.2
    have shorter : path.ancestors.map components =
        (names.inits.map (mark path.opening.1 ++ ·)).reverse ++
          if path.opening.1 = "." then [[]] else [] := by
      rw [ancestors, List.map_cons, Path.above, above, whole, inits_eq_dropLast_append names,
        List.map_append, List.reverse_append, List.dropLast_concat]
      rfl
    rw [shorter, isAbsolute_eq, whole]
    generalize path.opening.1 = opening at opens
    cases opens with
    | root => simp [mark]
    | dot => simp [mark]
    | name => simp [mark]

/-- Each path above is shorter than those before it. -/
theorem pairwise_ancestors (path : Path) :
    path.ancestors.Pairwise fun lower upper =>
      upper.components.length < lower.components.length := by
  have growing (names : List String) : names.inits.Pairwise fun xs ys => xs.length < ys.length := by
    induction names with
    | nil => exact List.pairwise_singleton _ _
    | cons name names ih =>
      rw [List.inits_cons, List.pairwise_cons, List.pairwise_map]
      constructor
      · intro segment mem
        obtain ⟨shorter, -, rfl⟩ := List.mem_map.mp mem
        exact Nat.succ_pos _
      · exact ih.imp Nat.succ_lt_succ
  rw [← List.pairwise_map (f := components) (R := fun xs ys => ys.length < xs.length),
    components_ancestors, List.pairwise_reverse]
  split_ifs
  · exact (growing path.components).tail
  · exact growing path.components

end Path

/-! ## Extensions -/

/-- **The extension stands behind the last dot**, and something stands before that. -/
theorem extension?_eq_some_iff {name extension : String} :
    extension? name = some extension ↔
      ∃ stem, stem ≠ "" ∧ '.' ∉ extension.toList ∧ name = stem ++ "." ++ extension := by
  have last (stem : String) (apart : '.' ∉ extension.toList) :
      Text.split '.' (stem ++ "." ++ extension) = Text.split '.' stem ++ [extension] := by
    rw [← Text.split_eq_singleton apart]
    exact Text.split_append stem extension
  constructor
  · intro found
    unfold extension? at found
    split at found
    next final before reversed =>
      split_ifs at found with short
      cases found
      rw [Bool.or_eq_true, decide_eq_true_eq, decide_eq_true_eq, not_or] at short
      have pieces : Text.split '.' name = before.reverse ++ [extension] :=
        List.reverse_eq_cons_iff.mp reversed
      have apart : ∀ piece ∈ before.reverse ++ [extension], '.' ∉ piece.toList := by
        rw [← pieces]
        exact fun piece => Text.notMem_of_mem_split
      rw [List.forall_mem_append, List.forall_mem_singleton] at apart
      have filled : before.reverse ≠ [] := mt List.reverse_eq_nil_iff.mp short.1
      refine ⟨".".intercalate before.reverse, ?_, apart.2, ?_⟩
      · intro empty
        have whole : Text.split '.' (".".intercalate before.reverse) = before.reverse :=
          Text.split_intercalate filled apart.1
        rw [empty] at whole
        exact short.2 (List.reverse_eq_iff.mp whole.symm)
      · have joined : ".".intercalate (Text.split '.' name) = name :=
          Text.intercalate_split '.' name
        rw [pieces, String.intercalate_append_of_ne_nil filled (List.cons_ne_nil _ _),
          String.intercalate_singleton] at joined
        exact joined.symm
    next => cases found
  · rintro ⟨stem, filled, apart, rfl⟩
    have before : Text.split '.' stem ≠ [""] := by
      intro empty
      have joined : ".".intercalate (Text.split '.' stem) = stem := Text.intercalate_split '.' stem
      rw [empty] at joined
      exact filled joined.symm
    rw [extension?, last stem apart, List.reverse_append]
    simp [before, Text.split_ne_nil]

end SourceAudit
