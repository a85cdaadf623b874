import Mathlib.Data.List.Sort
import Mathlib.Data.String.Basic
import SourceAudit.Proofs.Disk.Path
import SourceAudit.Proofs.Text.Occurrence
import SourceAudit.Selection

/-!
# What is selected from a folder

Which files of a folder are analysed is said by two facts about the ways down to them, with no word
about how they are found: which ways there are, and that they increase (`Selection.IsSelection`).
There is one such list for a set of files and a set of exclusions (`IsSelection.unique`), so neither
the order of the walk, nor the order of the exclusions, nor the way down to the folder can matter.
What has to be shown of the selection is only that it is the list (`Selection.isSelection_ofWalk`).

A disk is well formed if it has one thing at a place and its names are names. Then a walk comes to
each thing once, and the components of the path of a file are those of the folder and the way down.
-/

namespace SourceAudit

/-! ## The order of names -/

/-- The comparison of texts is the order of lists of characters, in which a text comes before its
continuations. -/
theorem Text.isBefore_iff {as bs : List Char} : isBefore as bs = true ↔ as < bs := by
  induction as generalizing bs with
  | nil =>
    cases bs with
    | nil => simp [isBefore]
    | cons b bs => simp [isBefore]
  | cons a as ih =>
    cases bs with
    | nil => simp [isBefore]
    | cons b bs =>
      rw [isBefore, Bool.or_eq_true, decide_eq_true_eq, Bool.and_eq_true, beq_iff_eq, ih,
        List.cons_lt_cons_iff]
      rfl

namespace Selection

variable {exclusions patterns : List String} {pattern : String} {way : List String}

/-- The comparison of ways is the order of lists of names, so a folder is compared name by name and
not as one text. -/
theorem inOrder_iff {way other : List String} :
    inOrder way other = true ↔ way < other ∨ way = other := by
  induction way generalizing other with
  | nil =>
    cases other with
    | nil => simp [inOrder]
    | cons name other => simp [inOrder]
  | cons name way ih =>
    cases other with
    | nil => simp [inOrder]
    | cons next other =>
      rw [inOrder, Bool.or_eq_true, Text.isBefore_iff, Bool.and_eq_true, beq_iff_eq, ih,
        List.cons_lt_cons_iff, ← String.lt_iff_toList_lt, List.cons.injEq]
      tauto

theorem inOrder_trans (first second third : List String) (before : inOrder first second = true)
    (after : inOrder second third = true) : inOrder first third = true := by
  rw [inOrder_iff] at before after ⊢
  rcases before with before | rfl
  · rcases after with after | rfl
    · exact .inl (before.trans after)
    · exact .inl before
  · exact after

/-- Of two ways one always comes first, so sorting leaves nothing open. -/
theorem inOrder_total (way other : List String) :
    (inOrder way other || inOrder other way) = true := by
  rw [Bool.or_eq_true, inOrder_iff, inOrder_iff]
  rcases lt_trichotomy way other with before | same | after
  · exact .inl (.inl before)
  · exact .inl (.inr same)
  · exact .inr (.inl after)

/-! ## What is selected -/

/-- A way that ends in a name with the extension `py`, before which something stands. -/
def LeadsToSource (way : List String) : Prop :=
  ∃ folders stem, stem ≠ "" ∧ way = folders ++ [stem ++ ".py"]

/-- An exclusion holds for a way: with the wildcards deleted, it is not empty and stands somewhere
in the way. -/
def Excluded (pattern : String) (way : List String) : Prop :=
  ∃ once needle, Text.Deletes "**/".toList pattern.toList once ∧
    Text.Deletes "/**".toList once needle ∧ needle ≠ [] ∧
    needle <:+: ("/".intercalate way).toList

/-- A file is among what a walk comes to. -/
def ComesToFile (entries : List (List String × Item)) (way : List String) : Prop :=
  ∃ content, (way, .file content) ∈ entries

/-- The ways to the files that are selected: to the sources for which no exclusion holds, each way
greater than those before it. -/
structure IsSelection (exclusions : List String) (entries : List (List String × Item))
    (ways : List (List String)) : Prop where
  mem_iff : ∀ way, way ∈ ways ↔
    ComesToFile entries way ∧ LeadsToSource way ∧ ∀ pattern ∈ exclusions, ¬Excluded pattern way
  increasing : ways.Pairwise (· < ·)

/-- An exclusion holds where its needle, the pattern without the wildcards, stands in the way
written with slashes. -/
theorem excluded_iff : Excluded pattern way ↔
    (needle pattern).toList ≠ [] ∧ (needle pattern).toList <:+: ("/".intercalate way).toList := by
  constructor
  · rintro ⟨once, text, first, second, holds⟩
    rw [Text.deletes_toList_iff (by decide)] at first
    rw [first, Text.deletes_toList_iff (by decide)] at second
    rwa [second] at holds
  · intro holds
    exact ⟨_, _, (Text.deletes_toList_iff (by decide)).mpr rfl,
      (Text.deletes_toList_iff (by decide)).mpr rfl, holds⟩

/-- The test for an exclusion is the one that the specification asks for. -/
theorem excludes_iff : excludes pattern way = true ↔ Excluded pattern way := by
  rw [excluded_iff, excludes, Bool.and_eq_true, Bool.not_eq_true', Bool.eq_false_iff, Ne,
    String.isEmpty_iff, Ne, String.toList_eq_nil_iff, Text.contains, Text.containsChars_iff]

/-- A source is a file, and not a folder, at the end of a way with the right extension. -/
theorem isSource_iff {item : Item} :
    isSource way item = true ↔ (∃ content, item = .file content) ∧ LeadsToSource way := by
  have file : item.isFile = true ↔ ∃ content, item = .file content := by
    cases item with
    | file content => simp [Item.isFile]
    | folder => simp [Item.isFile]
  have named : way.getLast?.bind extension? = some "py" ↔ LeadsToSource way := by
    rw [Option.bind_eq_some_iff]
    constructor
    · rintro ⟨name, last, extension⟩
      obtain ⟨stem, filled, -, rfl⟩ := extension?_eq_some_iff.mp extension
      obtain ⟨folders, rfl⟩ := List.getLast?_eq_some_iff.mp last
      exact ⟨folders, stem, filled, by rw [String.append_assoc]; rfl⟩
    · rintro ⟨folders, stem, filled, rfl⟩
      refine ⟨stem ++ ".py", List.getLast?_concat, extension?_eq_some_iff.mpr ?_⟩
      exact ⟨stem, filled, by decide, by rw [String.append_assoc]; rfl⟩
  rw [isSource, Bool.and_eq_true, beq_iff_eq, file, named]

/-! ## The selection -/

variable {entries order : List (List String × Item)}

/-- **There is one selection**, whatever the order of what the walk comes to and of the
exclusions. -/
theorem IsSelection.unique {ways others : List (List String)}
    (selection : IsSelection exclusions entries ways)
    (other : IsSelection patterns order others)
    (files : ∀ way, ComesToFile entries way ↔ ComesToFile order way)
    (same : ∀ pattern, pattern ∈ exclusions ↔ pattern ∈ patterns) : ways = others := by
  apply selection.increasing.eq_of_mem_iff other.increasing
  intro way
  rw [selection.mem_iff, other.mem_iff, files]
  simp only [same]

/-- More exclusions leave fewer files, in the same order. -/
theorem IsSelection.sublist {ways fewer : List (List String)}
    (selection : IsSelection exclusions entries ways)
    (stricter : IsSelection patterns entries fewer) (more : exclusions ⊆ patterns) :
    fewer.Sublist ways := by
  apply List.sublist_of_subperm_of_pairwise _ stricter.increasing selection.increasing
  apply List.subperm_of_subset stricter.increasing.nodup
  intro way mem
  obtain ⟨file, source, kept⟩ := (stricter.mem_iff way).mp mem
  exact (selection.mem_iff way).mpr ⟨file, source, fun pattern mem => kept pattern (more mem)⟩

/-- What is selected from a walk are the sources among the files that it comes to, less the excluded
ones. -/
theorem mem_ofWalk : way ∈ ofWalk exclusions entries ↔
    ComesToFile entries way ∧ LeadsToSource way ∧
      ∀ pattern ∈ exclusions, ¬Excluded pattern way := by
  have kept : exclusions.any (excludes · way) = false ↔
      ∀ pattern ∈ exclusions, ¬Excluded pattern way := by
    rw [List.any_eq_false]
    simp only [excludes_iff]
  rw [ofWalk, List.mem_mergeSort, List.mem_map]
  constructor
  · rintro ⟨⟨way, item⟩, mem, rfl⟩
    rw [List.mem_filter, Bool.and_eq_true, isSource_iff, Bool.not_eq_true', kept] at mem
    obtain ⟨inside, ⟨⟨content, rfl⟩, source⟩, clear⟩ := mem
    exact ⟨⟨content, inside⟩, source, clear⟩
  · rintro ⟨⟨content, inside⟩, source, clear⟩
    refine ⟨(way, .file content), ?_, rfl⟩
    rw [List.mem_filter, Bool.and_eq_true, isSource_iff, Bool.not_eq_true', kept]
    exact ⟨inside, ⟨⟨content, rfl⟩, source⟩, clear⟩

/-- **What is selected from a walk that comes to each thing once is the selection.** -/
theorem isSelection_ofWalk (exclusions : List String) (once : (entries.map Prod.fst).Nodup) :
    IsSelection exclusions entries (ofWalk exclusions entries) := by
  refine ⟨fun way => mem_ofWalk, ?_⟩
  have sorted : (ofWalk exclusions entries).Pairwise fun way next => inOrder way next = true :=
    List.pairwise_mergeSort inOrder_trans inOrder_total _
  have distinct : (ofWalk exclusions entries).Pairwise (· ≠ ·) := by
    refine (List.mergeSort_perm _ _).nodup_iff.mpr ?_
    exact once.sublist (List.filter_sublist.map Prod.fst)
  refine sorted.imp₂ ?_ distinct
  intro way other before ne
  exact (inOrder_iff.mp before).resolve_right ne

end Selection

/-! ## Walks -/

/-- One thing stands at a place, and what leads there are names. -/
structure Disk.WellFormed (disk : Disk) : Prop where
  distinct : (disk.items.map Prod.fst).Nodup
  named : ∀ entry ∈ disk.items, ∀ name ∈ entry.1, Path.IsName name

/-- A walk that takes place: its path leads to its folder and is not `-`, and no list above is at
fault. Only then does a walk come to what is below its folder. -/
structure Walk.TakesPlace (walk : Walk) : Prop where
  leads : walk.disk.locate? walk.here walk.path = some walk.place
  folder : walk.disk.item? walk.place = some .folder
  notDash : Selection.isDash walk.path = false
  faultless : walk.fault? = none

namespace Disk

variable {disk : Disk} {place : Place} {names : List String} {item : Item}

/-- What stands below a place stands at the place with names behind it. -/
theorem under_eq_some {entry : Place × Item} {found : List String × Item}
    (under : (match place.isPrefixOf? entry.1 with
      | some [] => none
      | some names => some (names, entry.2)
      | none => none) = some found) : entry = (place ++ found.1, found.2) := by
  split at under
  next => cases under
  next names _ same =>
    cases under
    rw [List.isPrefixOf?_eq_some_iff_append_eq.mp same]
  next => cases under

/-- Below a place, one thing stands at the end of a way. -/
theorem WellFormed.nodup_below (wellFormed : disk.WellFormed) (place : Place) :
    ((disk.below place).map Prod.fst).Nodup := by
  apply List.pairwise_map.mpr
  refine List.Pairwise.filterMap _ ?_ (List.pairwise_map.mp wellFormed.distinct)
  intro entry other ne found under next underNext same
  apply ne
  rw [under_eq_some under, under_eq_some underNext, same]

/-- Below a place on a well-formed disk there are only names on the way. -/
theorem WellFormed.isName_of_mem_below (wellFormed : disk.WellFormed)
    (mem : (names, item) ∈ disk.below place) : ∀ name ∈ names, Path.IsName name := by
  obtain ⟨entry, inItems, under⟩ := List.mem_filterMap.mp mem
  intro name inside
  apply wellFormed.named entry inItems
  rw [under_eq_some under]
  exact List.mem_append_right place inside

end Disk

namespace Walk

variable {walk : Walk} {way : List String}

/-- A walk comes to each thing once. -/
theorem nodup_entries (wellFormed : walk.disk.WellFormed) : (walk.entries.map Prod.fst).Nodup :=
  (wellFormed.nodup_below walk.place).sublist (List.filter_sublist.map Prod.fst)

/-- A walk through a well-formed disk goes along names, so the ways can be told from the paths. -/
theorem isName_of_comesToFile (wellFormed : walk.disk.WellFormed)
    (file : Selection.ComesToFile walk.entries way) : ∀ name ∈ way, Path.IsName name := by
  obtain ⟨content, mem⟩ := file
  exact wellFormed.isName_of_mem_below (List.mem_of_mem_filter mem)

/-- What is selected for the path of a walk that takes place. -/
theorem TakesPlace.ofPath_eq (takesPlace : walk.TakesPlace) (exclusions : List String) :
    Selection.ofPath walk.disk walk.here walk.personal walk.path exclusions =
      .ok ((Selection.ofWalk exclusions walk.entries).map walk.path.descend) := by
  have notFile : walk.disk.isFile walk.place = false := by
    rw [Disk.isFile, takesPlace.folder]
    rfl
  simp only [Selection.ofPath, takesPlace.leads, notFile, takesPlace.notDash, Bool.false_eq_true,
    if_false, Selection.ofFolder, takesPlace.faultless]

end Walk

namespace Selection

/-- **What is selected from a folder depends on what is below it.** The files are those of the
selection, under the path of the folder, and their components increase. The order of the walk and
the order of the exclusions do not matter, more exclusions leave fewer files, and from a folder at
another path with the same files below it the same is selected. -/
theorem ofPath_isSelection {walk : Walk} (takesPlace : walk.TakesPlace)
    (wellFormed : walk.disk.WellFormed) (exclusions : List String) :
    ∃ ways, IsSelection exclusions walk.entries ways ∧
      ofPath walk.disk walk.here walk.personal walk.path exclusions =
        .ok (ways.map walk.path.descend) ∧
      (∀ way ∈ ways, (walk.path.descend way).components = walk.path.components ++ way) ∧
      (ways.map walk.path.descend).Pairwise (fun file next => file.components < next.components) ∧
      (ways.map walk.path.descend).Nodup ∧
      (∀ order, order.Perm walk.entries → ofWalk exclusions order = ways) ∧
      (∀ patterns, (∀ pattern, pattern ∈ exclusions ↔ pattern ∈ patterns) →
        ofPath walk.disk walk.here walk.personal walk.path patterns =
          .ok (ways.map walk.path.descend)) ∧
      (∀ patterns, exclusions ⊆ patterns → ∃ fewer : List (List String), fewer.Sublist ways ∧
        ofPath walk.disk walk.here walk.personal walk.path patterns =
          .ok (fewer.map walk.path.descend)) ∧
      ∀ other : Walk, other.TakesPlace → other.disk.WellFormed →
        (∀ way, ComesToFile walk.entries way ↔ ComesToFile other.entries way) →
        ofPath other.disk other.here other.personal other.path exclusions =
          .ok (ways.map other.path.descend) := by
  have once := walk.nodup_entries wellFormed
  have selection := isSelection_ofWalk exclusions once
  have components : ∀ way ∈ ofWalk exclusions walk.entries,
      (walk.path.descend way).components = walk.path.components ++ way := by
    intro way mem
    apply Path.components_descend
    exact walk.isName_of_comesToFile wellFormed ((selection.mem_iff way).mp mem).1
  have increasing : ((ofWalk exclusions walk.entries).map walk.path.descend).Pairwise
      (fun file next => file.components < next.components) := by
    rw [List.pairwise_map]
    refine selection.increasing.imp_of_mem ?_
    intro way next mem memNext before
    rw [components way mem, components next memNext]
    exact List.append_left_lt before
  refine ⟨ofWalk exclusions walk.entries, selection, takesPlace.ofPath_eq exclusions, components,
    increasing, ?_, ?_, ?_, ?_, ?_⟩
  · refine increasing.imp ?_
    rintro file next before rfl
    exact lt_irrefl _ before
  · intro order perm
    refine (isSelection_ofWalk exclusions ((perm.map Prod.fst).nodup_iff.mpr once)).unique selection
      ?_ (fun pattern => Iff.rfl)
    intro way
    simp only [ComesToFile, perm.mem_iff]
  · intro patterns same
    rw [takesPlace.ofPath_eq, selection.unique (isSelection_ofWalk patterns once)
      (fun way => Iff.rfl) same]
  · intro patterns more
    exact ⟨_, selection.sublist (isSelection_ofWalk patterns once) more,
      takesPlace.ofPath_eq patterns⟩
  · intro other otherTakesPlace otherWellFormed files
    have there := isSelection_ofWalk exclusions (other.nodup_entries otherWellFormed)
    rw [otherTakesPlace.ofPath_eq, selection.unique there files (fun pattern => Iff.rfl)]

/-- Sources below a folder whose own path holds what an exclusion looks for. -/
def hiddenFolder : Walk where
  disk := ⟨[(["skip"], .folder), (["skip", "src"], .folder), (["skip", "src", "a"], .folder),
    (["skip", "src", "a", "b.py"], .file (.text "x")),
    (["skip", "src", "a-b.py"], .file (.text "")), (["skip", "src", "gen"], .folder),
    (["skip", "src", "gen", "c.py"], .file (.text ""))]⟩
  here := []
  path := ⟨"/skip/src"⟩
  place := ["skip", "src"]

/-- The same files, in another order, below a folder elsewhere. -/
def openFolder : Walk where
  disk := ⟨[(["lib"], .folder), (["lib", "gen"], .folder),
    (["lib", "gen", "c.py"], .file (.text "")), (["lib", "a-b.py"], .file (.text "y")),
    (["lib", "a"], .folder), (["lib", "a", "b.py"], .file (.text ""))]⟩
  here := []
  path := ⟨"lib/"⟩
  place := ["lib"]

/-- The walk comes to two folders and to three files below it, in the order of the disk. -/
theorem entries_hiddenFolder :
    hiddenFolder.entries = [(["a"], .folder), (["a", "b.py"], .file (.text "x")),
      (["a-b.py"], .file (.text "")), (["gen"], .folder), (["gen", "c.py"], .file (.text ""))] := by
  decide +kernel

/-- The walk comes to the same files elsewhere, in another order. -/
theorem entries_openFolder :
    openFolder.entries = [(["gen"], .folder), (["gen", "c.py"], .file (.text "")),
      (["a-b.py"], .file (.text "y")), (["a"], .folder), (["a", "b.py"], .file (.text ""))] := by
  decide +kernel

theorem takesPlace_hiddenFolder : hiddenFolder.TakesPlace :=
  ⟨by decide +kernel, rfl, rfl, Option.isNone_iff_eq_none.mp (by decide +kernel)⟩

theorem takesPlace_openFolder : openFolder.TakesPlace :=
  ⟨by decide +kernel, rfl, rfl, Option.isNone_iff_eq_none.mp (by decide +kernel)⟩

/-- One exclusion takes out the generated file. The other stands in the path of the folder only and
takes out nothing. -/
theorem ofWalk_hiddenFolder :
    ofWalk ["**/gen/**", "skip"] hiddenFolder.entries = [["a", "b.py"], ["a-b.py"]] := by
  have sorted : [["a", "b.py"], ["a-b.py"]].mergeSort inOrder = [["a", "b.py"], ["a-b.py"]] :=
    List.mergeSort_of_pairwise (by decide)
  rw [ofWalk, entries_hiddenFolder]
  refine Eq.trans (congrArg (List.mergeSort · inOrder) ?_) sorted
  decide +kernel

/-- The same files are selected from both folders, each under the path of its folder, in the order
of their ways. -/
theorem ofPath_isSelection_openFolder :
    hiddenFolder.TakesPlace ∧ hiddenFolder.disk.WellFormed ∧
      ofPath hiddenFolder.disk [] {} ⟨"/skip/src"⟩ ["**/gen/**", "skip"] =
        .ok [⟨"/skip/src/a/b.py"⟩, ⟨"/skip/src/a-b.py"⟩] ∧
      openFolder.TakesPlace ∧ openFolder.disk.WellFormed ∧
      ofPath openFolder.disk [] {} ⟨"lib/"⟩ ["**/gen/**", "skip"] =
        .ok [⟨"lib/a/b.py"⟩, ⟨"lib/a-b.py"⟩] := by
  have wellFormed : hiddenFolder.disk.WellFormed := ⟨by decide, by decide⟩
  have otherWellFormed : openFolder.disk.WellFormed := ⟨by decide, by decide⟩
  obtain ⟨ways, -, selected, -, -, -, order, -, -, elsewhere⟩ :=
    ofPath_isSelection takesPlace_hiddenFolder wellFormed ["**/gen/**", "skip"]
  obtain rfl := (order _ (.refl _)).symm.trans ofWalk_hiddenFolder
  refine ⟨takesPlace_hiddenFolder, wellFormed, selected, takesPlace_openFolder, otherWellFormed,
    elsewhere openFolder takesPlace_openFolder otherWellFormed ?_⟩
  intro way
  rw [entries_hiddenFolder, entries_openFolder]
  simp only [ComesToFile, List.mem_cons, Prod.mk.injEq, List.not_mem_nil, reduceCtorEq,
    Item.file.injEq, and_false, or_false, false_or, exists_or, exists_and_left, exists_eq, and_true]
  tauto

end Selection

end SourceAudit
