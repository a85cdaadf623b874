import SourceAudit.Config.Source
import SourceAudit.Proofs.Config.Reader
import SourceAudit.Proofs.Disk.Path

/-!
# The nearest settings, and what is loaded from them

Where settings come from is said by what stands in folders: which documents a folder holds
(`ConfigSource.Holds`), and which of them comes first (`ConfigSource.First`). The folders that are
asked are the initial segments of a path, so of two of them one is deeper, and the settings are
those of the deepest folder that holds any (`ConfigSource.exists_isNearest`). What stands above it
is not looked at.

The section of a project's document is read twice, once to see whether it is there and once to load
it. Both readings are compared with the same relation, `Config.Describes`, so they agree on every
text; and what is loaded are the settings that the section holds (`Config.Decodes`).
-/

namespace SourceAudit

/-! ## The section of a document -/

namespace Config

variable {document : Toml.Table} {content : String} {value : Toml.Value}

/-- A document has a value under the key `pyaudit` of the table `tool`. -/
def HasSection (document : Toml.Table) (value : Toml.Value) : Prop :=
  ∃ tools, document.lookup "tool" = some (.table tools) ∧ tools.lookup "pyaudit" = some value

/-- A text is a project's document with this value for the section. -/
def Describes (content : String) (value : Toml.Value) : Prop :=
  ∃ document, projectDocument? content = some document ∧ HasSection document value

/-- The search for the section gives what stands under the key, and takes no table in its place that
is none. -/
theorem section?_eq_some_iff : section? document = some value ↔ HasSection document value := by
  unfold section? HasSection
  split
  next tools same =>
    constructor
    · intro found
      exact ⟨tools, same, found⟩
    · rintro ⟨others, again, found⟩
      rw [same] at again
      cases again
      exact found
  next other =>
    constructor
    · nofun
    · rintro ⟨tools, same, -⟩
      exact absurd same (other tools)

theorem section?_eq_none (absent : ∀ value, ¬HasSection document value) :
    Config.section? document = none := by
  rw [Option.eq_none_iff_forall_ne_some]
  intro value found
  exact absent value (section?_eq_some_iff.mp found)

/-- The look for the key of the section and the search for its value find the same. -/
theorem hasSection_iff : hasSection document = true ↔ ∃ value, HasSection document value := by
  have same : hasSection document = (section? document).isSome := by
    unfold hasSection section?
    split
    next tools _ =>
      rw [Bool.eq_iff_iff, List.any_eq_true, List.lookup_isSome_iff]
      simp only [beq_iff_eq, @eq_comm _ "pyaudit"]
    next => rfl
  rw [same, Option.isSome_iff_exists]
  simp only [section?_eq_some_iff]

/-- The look that decides whether a document counts finds a section in a text exactly if there is
one to be loaded. -/
theorem describesProject_iff :
    describesProject content = true ↔ ∃ value, Describes content value := by
  unfold describesProject Describes
  split
  next document parsed =>
    rw [hasSection_iff]
    constructor
    · rintro ⟨value, found⟩
      exact ⟨value, document, parsed, found⟩
    · rintro ⟨value, other, again, found⟩
      rw [parsed] at again
      cases again
      exact ⟨value, found⟩
  next failed =>
    constructor
    · nofun
    · rintro ⟨value, document, parsed, -⟩
      rw [failed] at parsed
      cases parsed

/-- The section is decoded, and nothing else. -/
theorem decodes_parseProject (describes : Describes content value) :
    Decodes value (parseProject content) := by
  obtain ⟨document, parsed, found⟩ := describes
  have loaded : parseProject content = orMalformed (ofValue? .section value) := by
    simp [parseProject, parsed, section?_eq_some_iff.mpr found]
  rw [loaded]
  exact decodes_orMalformed value

/-- A project's document without the section has the settings that say nothing. -/
theorem parseProject_of_absent (parsed : projectDocument? content = some document)
    (absent : ∀ value, ¬HasSection document value) : parseProject content = .ok {} := by
  simp [parseProject, parsed, section?_eq_none absent, orMalformed]

/-- A text that is no project's document is an error for the loader. It is never taken for settings
that say nothing. -/
theorem parseProject_of_malformed (failed : projectDocument? content = none) :
    parseProject content = .error .malformed := by
  simp [parseProject, failed, orMalformed]

end Config

/-! ## The settings in one folder -/

namespace ConfigSource

section

variable (disk : Disk) (here : Place) (folder : Path)

/-- A folder holds a file of this name. -/
def HoldsFile (name : String) : Prop := disk.leadsToFile here (folder.child name) = true

/-- A folder holds a project's document with this value for the section. -/
def HoldsSection (value : Toml.Value) : Prop :=
  ∃ content, disk.read? here (folder.child "pyproject.toml") = some content ∧
    Config.Describes content value

/-- A folder holds settings. -/
def Holds : Prop :=
  HoldsFile disk here folder "pyaudit.toml" ∨ HoldsFile disk here folder ".pyaudit.toml" ∨
    ∃ value, HoldsSection disk here folder value

/-- The settings that come first in a folder. -/
inductive First : ConfigSource → Prop
  | document (there : HoldsFile disk here folder "pyaudit.toml") :
    First (.project (folder.child "pyaudit.toml"))
  | dotted (without : ¬HoldsFile disk here folder "pyaudit.toml")
    (there : HoldsFile disk here folder ".pyaudit.toml") :
    First (.project (folder.child ".pyaudit.toml"))
  | described {value : Toml.Value} (without : ¬HoldsFile disk here folder "pyaudit.toml")
    (withoutDotted : ¬HoldsFile disk here folder ".pyaudit.toml")
    (there : HoldsSection disk here folder value) :
    First (.projectSection (folder.child "pyproject.toml"))

end

variable {disk other : Disk} {here : Place} {folder : Path} {source : ConfigSource}

/-- A folder is taken for one with a section exactly if its document can be read and has one. -/
theorem any_describesProject_iff :
    (disk.read? here (folder.child projectName)).any Config.describesProject = true ↔
      ∃ value, HoldsSection disk here folder value := by
  rw [Option.any_eq_true]
  constructor
  · rintro ⟨content, read, describes⟩
    obtain ⟨value, describes⟩ := Config.describesProject_iff.mp describes
    exact ⟨value, content, read, describes⟩
  · rintro ⟨value, content, read, describes⟩
    exact ⟨content, read, Config.describesProject_iff.mpr ⟨value, describes⟩⟩

/-- **A folder is asked for its documents in order**: what comes first is found, and only a folder
that holds none gives nothing. -/
theorem inFolder?_cases (disk : Disk) (here : Place) (folder : Path) :
    (∃ source, inFolder? disk here folder = some source ∧ First disk here folder source) ∨
      inFolder? disk here folder = none ∧ ¬Holds disk here folder := by
  by_cases document : HoldsFile disk here folder "pyaudit.toml"
  · refine .inl ⟨_, ?_, .document document⟩
    rw [HoldsFile] at document
    simp [inFolder?, documentNames, document]
  by_cases dotted : HoldsFile disk here folder ".pyaudit.toml"
  · refine .inl ⟨_, ?_, .dotted document dotted⟩
    rw [HoldsFile] at document dotted
    simp [inFolder?, documentNames, document, dotted]
  have noDocument : (documentNames.map folder.child).find? (disk.leadsToFile here) = none := by
    rw [HoldsFile] at document dotted
    simp [documentNames, document, dotted]
  by_cases described : ∃ value, HoldsSection disk here folder value
  · obtain ⟨value, there⟩ := described
    refine .inl ⟨_, ?_, .described document dotted there⟩
    rw [inFolder?, noDocument]
    exact if_pos (any_describesProject_iff.mpr ⟨value, there⟩)
  · refine .inr ⟨?_, ?_⟩
    · rw [inFolder?, noDocument]
      exact if_neg (mt any_describesProject_iff.mp described)
    · rintro (there | there | there)
      · exact document there
      · exact dotted there
      · exact described there

theorem First.holds (first : First disk here folder source) : Holds disk here folder := by
  cases first with
  | document there => exact .inl there
  | dotted _ there => exact .inr (.inl there)
  | described _ _ there => exact .inr (.inr ⟨_, there⟩)

/-- What a folder gives is what comes first in it. -/
theorem first_of_inFolder? (found : inFolder? disk here folder = some source) :
    First disk here folder source := by
  rcases inFolder?_cases disk here folder with ⟨other, same, first⟩ | ⟨none, -⟩
  · rw [found] at same
    cases same
    exact first
  · rw [found] at none
    cases none

/-- A folder gives nothing exactly if it holds no settings of any sort. -/
theorem inFolder?_eq_none_iff : inFolder? disk here folder = none ↔ ¬Holds disk here folder := by
  rcases inFolder?_cases disk here folder with ⟨source, found, first⟩ | ⟨none, without⟩
  · simp [found, first.holds]
  · simp [none, without]

/-- A folder gives the same settings wherever its documents are the same. -/
theorem inFolder?_congr
    (agree : ∀ name ∈ documentNames ++ [projectName],
      other.find? here (folder.child name) = disk.find? here (folder.child name)) :
    inFolder? other here folder = inFolder? disk here folder := by
  have document (name : String) (mem : name ∈ documentNames) :
      other.leadsToFile here (folder.child name) = disk.leadsToFile here (folder.child name) := by
    rw [Disk.leadsToFile, Disk.leadsToFile, agree name (List.mem_append_left _ mem)]
  have project : other.read? here (folder.child projectName) =
      disk.read? here (folder.child projectName) := by
    rw [Disk.read?, Disk.read?, agree projectName (List.mem_append_right _ List.mem_cons_self)]
  have first := document "pyaudit.toml" (by decide)
  have second := document ".pyaudit.toml" (by decide)
  simp only [inFolder?, documentNames, List.map_cons, List.map_nil, List.find?_cons, first, second,
    project]
  rfl

/-! ## The nearest folder -/

section

variable (disk : Disk) (here : Place) (folder nearest : Path)

/-- A source is the first in the deepest of a folder and the folders above it that hold settings. -/
structure IsNearest (source : ConfigSource) : Prop where
  above : nearest ∈ folder.ancestors
  first : First disk here nearest source
  deepest : ∀ lower ∈ folder.ancestors,
    nearest.components.length < lower.components.length → ¬Holds disk here lower

/-- On another disk, the same documents stand in a folder above and in those below that. -/
def SameUpTo (other : Disk) : Prop :=
  ∀ lower ∈ folder.ancestors, nearest.components.length ≤ lower.components.length →
    ∀ name ∈ documentNames ++ [projectName],
      other.find? here (lower.child name) = disk.find? here (lower.child name)

/-- The settings of the user stand at a path. -/
def IsGlobal (userFolder : Option Path) (path : Path) : Prop :=
  ∃ user, userFolder = some user ∧ path = user.child "config.toml" ∧
    disk.leadsToFile here path = true

end

variable {nearest : Path} {explicit userFolder : Option Path}

/-- The folders above a path are asked the deepest first, so the first answer is that of the deepest
folder that has one. -/
theorem isNearest_of_findSome? {below above : List Path}
    (apart : folder.ancestors = below ++ nearest :: above)
    (found : inFolder? disk here nearest = some source)
    (nothing : ∀ lower ∈ below, inFolder? disk here lower = none) :
    IsNearest disk here folder nearest source := by
  refine ⟨?_, first_of_inFolder? found, ?_⟩
  · rw [apart]
    exact List.mem_append_right _ List.mem_cons_self
  · have shorter := folder.pairwise_ancestors
    rw [apart, List.pairwise_append, List.pairwise_cons] at shorter
    intro lower mem deeper
    rw [apart] at mem
    rcases List.mem_append.mp mem with mem | mem
    · exact inFolder?_eq_none_iff.mp (nothing lower mem)
    · -- The nearest folder and what is above it are not deeper.
      rcases List.mem_cons.mp mem with rfl | mem
      · omega
      · have upper := shorter.2.1.1 lower mem
        omega

/-- What stands above the nearest folder is not looked at. -/
theorem findSome?_of_sameUpTo {below above : List Path}
    (apart : folder.ancestors = below ++ nearest :: above)
    (found : inFolder? disk here nearest = some source)
    (nothing : ∀ lower ∈ below, inFolder? disk here lower = none)
    (same : SameUpTo disk here folder nearest other) :
    folder.ancestors.findSome? (inFolder? other here) = some source := by
  refine List.findSome?_eq_some_iff.mpr ⟨below, nearest, above, apart, ?_, ?_⟩
  · rw [inFolder?_congr (same nearest ?_ le_rfl)]
    · exact found
    · rw [apart]
      exact List.mem_append_right _ List.mem_cons_self
  · have shorter := folder.pairwise_ancestors
    rw [apart, List.pairwise_append] at shorter
    intro lower mem
    have deeper : nearest.components.length < lower.components.length :=
      shorter.2.2 lower mem nearest List.mem_cons_self
    rw [inFolder?_congr (same lower ?_ deeper.le)]
    · exact nothing lower mem
    · rw [apart]
      exact List.mem_append_left _ mem

/-- The nearest folder that holds settings decides, whatever stands above it and whatever the user
has. -/
theorem exists_isNearest (holds : ∃ dir ∈ folder.ancestors, Holds disk here dir) :
    ∃ nearest source, IsNearest disk here folder nearest source ∧
      ∀ other userFolder, SameUpTo disk here folder nearest other →
        resolveFrom other here folder none userFolder = source := by
  cases found : folder.ancestors.findSome? (inFolder? disk here) with
  | none =>
    obtain ⟨dir, mem, holds⟩ := holds
    exact absurd holds (inFolder?_eq_none_iff.mp (List.findSome?_eq_none_iff.mp found dir mem))
  | some source =>
    obtain ⟨below, nearest, above, apart, here', nothing⟩ := List.findSome?_eq_some_iff.mp found
    refine ⟨nearest, source, isNearest_of_findSome? apart here' nothing, ?_⟩
    intro other userFolder same
    rw [resolveFrom, findSome?_of_sameUpTo apart here' nothing same]
    rfl

/-- If no folder above holds settings, it is up to the user's own. -/
theorem resolveFrom_eq_ofUser (without : ∀ dir ∈ folder.ancestors, ¬Holds disk here dir) :
    resolveFrom disk here folder none userFolder = ofUser disk here userFolder := by
  have nothing : folder.ancestors.findSome? (inFolder? disk here) = none := by
    rw [List.findSome?_eq_none_iff]
    intro dir mem
    exact inFolder?_eq_none_iff.mpr (without dir mem)
  rw [resolveFrom, nothing]
  rfl

/-- The settings of the user count if there is a document, and otherwise the defaults do. -/
theorem ofUser_cases (disk : Disk) (here : Place) (userFolder : Option Path) :
    (∃ path, IsGlobal disk here userFolder path ∧ ofUser disk here userFolder = .global path) ∨
      (∀ path, ¬IsGlobal disk here userFolder path) ∧ ofUser disk here userFolder = .default := by
  cases userFolder with
  | none => exact .inr ⟨nofun, rfl⟩
  | some user =>
    by_cases file : disk.leadsToFile here (user.child globalName) = true
    · exact .inl ⟨user.child globalName, ⟨user, rfl, rfl, file⟩, if_pos file⟩
    · refine .inr ⟨?_, if_neg file⟩
      rintro path ⟨other, same, rfl, there⟩
      cases same
      exact file there

/-- There is at most one place for the settings of the user. -/
theorem IsGlobal.unique {path next : Path} (isGlobal : IsGlobal disk here userFolder path)
    (nextGlobal : IsGlobal disk here userFolder next) : path = next := by
  obtain ⟨user, same, rfl, -⟩ := isGlobal
  obtain ⟨other, again, rfl, -⟩ := nextGlobal
  rw [same] at again
  cases again
  rfl

/-- Settings that are found, and are not those of the user, stand in a folder. -/
theorem exists_first_of_resolveFrom
    (found : resolveFrom disk here folder none userFolder = source)
    (notGlobal : ∀ path, source ≠ .global path) (notDefault : source ≠ .default) :
    ∃ nearest, First disk here nearest source := by
  by_cases holds : ∃ dir ∈ folder.ancestors, Holds disk here dir
  · obtain ⟨nearest, _, isNearest, decides⟩ := exists_isNearest holds
    rw [← found, decides disk userFolder fun _ _ _ _ _ => rfl]
    exact ⟨nearest, isNearest.first⟩
  · have without : ∀ dir ∈ folder.ancestors, ¬Holds disk here dir :=
      fun dir mem there => holds ⟨dir, mem, there⟩
    rw [resolveFrom_eq_ofUser without] at found
    rcases ofUser_cases disk here userFolder with ⟨path, -, global⟩ | ⟨-, default⟩
    · exact absurd (found.symm.trans global) (notGlobal path)
    · exact absurd (found.symm.trans default) notDefault

/-- A section that comes first in a folder is that of the project's document in the folder. -/
theorem First.child_eq {path : Path} (first : First disk here folder (.projectSection path)) :
    folder.child "pyproject.toml" = path := by
  cases first
  rfl

/-- The section that is found is the section that is loaded. -/
theorem First.load_projectSection {path : Path}
    (first : First disk here folder (.projectSection path)) :
    ∃ content value, disk.read? here path = some content ∧ Config.Describes content value ∧
      Config.Decodes value (load disk here (.projectSection path)) := by
  cases first with
  | described _ _ there =>
    obtain ⟨content, read, describes⟩ := there
    refine ⟨content, _, read, describes, ?_⟩
    simp only [load, read]
    exact Config.decodes_parseProject describes

/-- **The nearest settings are found, and what is found is loaded.** A path that is asked for counts
in any case. Otherwise the deepest folder that holds settings decides, with those that come first
there, and neither what stands above it nor what the user has matters; if there is none, the
settings of the user count. A section that is found is the section that is loaded: the settings are
those that its value holds, and if it holds none, loading fails. On every text the look for the
section and the loading of it agree, and only without the section do the settings that say nothing
stand in for it. The folders are the initial segments of the path. -/
theorem resolveFrom_nearest (disk : Disk) (here : Place) (folder : Path)
    (explicit userFolder : Option Path) :
    (∀ path, resolveFrom disk here folder explicit userFolder = .explicit path ↔
      explicit = some path) ∧
    ((∃ dir ∈ folder.ancestors, Holds disk here dir) →
      ∃ nearest,
        IsNearest disk here folder nearest (resolveFrom disk here folder none userFolder) ∧
        ∀ other otherUser, SameUpTo disk here folder nearest other →
          resolveFrom other here folder none otherUser =
            resolveFrom disk here folder none userFolder) ∧
    ((∀ dir ∈ folder.ancestors, ¬Holds disk here dir) →
      (∀ path, resolveFrom disk here folder none userFolder = .global path ↔
        IsGlobal disk here userFolder path) ∧
      (resolveFrom disk here folder none userFolder = .default ↔
        ∀ path, ¬IsGlobal disk here userFolder path)) ∧
    (∀ path, resolveFrom disk here folder explicit userFolder = .projectSection path →
      ∃ content value, disk.read? here path = some content ∧ Config.Describes content value ∧
        Config.Decodes value (load disk here (.projectSection path))) ∧
    (∀ content,
      (Config.describesProject content = true ↔ ∃ value, Config.Describes content value) ∧
      (∀ value, Config.Describes content value →
        Config.Decodes value (Config.parseProject content)) ∧
      (∀ document, Config.projectDocument? content = some document →
        Config.describesProject content = false → Config.parseProject content = .ok {}) ∧
      (Config.projectDocument? content = none → Config.parseProject content = .error .malformed)) ∧
    folder.ancestors.map Path.components =
      (if folder.isAbsolute then folder.components.inits.tail
        else folder.components.inits).reverse := by
  refine ⟨?_, ?_, ?_, ?_, ?_, folder.components_ancestors⟩
  · intro path
    cases explicit with
    | some asked => simp [resolveFrom]
    | none =>
      refine iff_of_false ?_ nofun
      intro found
      obtain ⟨nearest, first⟩ := exists_first_of_resolveFrom found nofun nofun
      cases first
  · intro holds
    obtain ⟨nearest, source, isNearest, decides⟩ := exists_isNearest holds
    have found := decides disk userFolder fun _ _ _ _ _ => rfl
    rw [found]
    exact ⟨nearest, isNearest, decides⟩
  · intro without
    rw [resolveFrom_eq_ofUser without]
    rcases ofUser_cases disk here userFolder with ⟨global, there, found⟩ | ⟨nowhere, found⟩
    · rw [found]
      refine ⟨fun path => ?_, iff_of_false nofun fun nowhere => nowhere global there⟩
      rw [ConfigSource.global.injEq]
      exact ⟨fun same => same ▸ there, there.unique⟩
    · rw [found]
      exact ⟨fun path => iff_of_false nofun (nowhere path), iff_of_true rfl nowhere⟩
  · intro path found
    cases explicit with
    | some asked => cases found
    | none =>
      obtain ⟨nearest, first⟩ := exists_first_of_resolveFrom found nofun nofun
      exact first.load_projectSection
  · intro content
    refine ⟨Config.describesProject_iff, fun value => Config.decodes_parseProject, ?_,
      Config.parseProject_of_malformed⟩
    intro document parsed absent
    apply Config.parseProject_of_absent parsed
    intro value found
    have there := Config.describesProject_iff.mpr ⟨value, document, parsed, found⟩
    rw [absent] at there
    cases there

/-- The text of a project's document with a section. -/
def sectionText : String :=
  "[tool.pyaudit]\npreset = \"strict\"\n[tool.pyaudit.checkers.PA002]\nenabled = true\n"

/-- A project whose section stands one folder up, above a project's document without it; `outermost`
stands further up. -/
def nestedProject (outermost : List (Place × Item)) : Disk :=
  ⟨outermost ++ [(["w"], .folder), (["w", "pyproject.toml"], .file (.text sectionText)),
    (["w", "p"], .folder), (["w", "p", "pyproject.toml"], .file (.text "[tool.other]\n"))]⟩

/-- The same project below settings of its own. -/
def coveredProject : Disk := nestedProject [(["pyaudit.toml"], .file (.text ""))]

/-- The section one folder up is found and loaded, with or without the settings further up. -/
theorem resolveFrom_nearest_coveredProject :
    (∃ dir ∈ (Path.mk "/w/p").ancestors, Holds coveredProject [] dir) ∧
      resolveFrom coveredProject [] ⟨"/w/p"⟩ none none =
        .projectSection ⟨"/w/pyproject.toml"⟩ ∧
      load coveredProject [] (.projectSection ⟨"/w/pyproject.toml"⟩) =
        .ok ⟨some "strict", [("PA002", some true)]⟩ ∧
      (∃ content value, coveredProject.read? [] ⟨"/w/pyproject.toml"⟩ = some content ∧
        Config.Describes content value ∧
        Config.Says .section value ⟨some "strict", [("PA002", some true)]⟩) ∧
      ∀ userFolder, resolveFrom (nestedProject []) [] ⟨"/w/p"⟩ none userFolder =
        .projectSection ⟨"/w/pyproject.toml"⟩ := by
  have found : resolveFrom coveredProject [] ⟨"/w/p"⟩ none none =
      .projectSection ⟨"/w/pyproject.toml"⟩ := by
    decide +kernel
  have loads : load coveredProject [] (.projectSection ⟨"/w/pyproject.toml"⟩) =
      .ok ⟨some "strict", [("PA002", some true)]⟩ := by
    decide +kernel
  have holds : ∃ dir ∈ (Path.mk "/w/p").ancestors, Holds coveredProject [] dir :=
    ⟨⟨"/"⟩, by decide, .inl (by unfold HoldsFile; decide)⟩
  obtain ⟨-, settled, -, loaded, -, -⟩ := resolveFrom_nearest coveredProject [] ⟨"/w/p"⟩ none none
  obtain ⟨nearest, isNearest, decides⟩ := settled holds
  obtain ⟨content, value, read, describes, decodes⟩ := loaded _ found
  refine ⟨holds, found, loads, ⟨content, value, read, describes, (decodes.loads _).mp loads⟩, ?_⟩
  intro userFolder
  rw [found] at isNearest decides
  apply decides
  -- The nearest folder is the one in which the section stands.
  have only : ∀ dir ∈ (Path.mk "/w/p").ancestors,
      dir.child "pyproject.toml" = ⟨"/w/pyproject.toml"⟩ → dir = ⟨"/w"⟩ := by
    decide
  obtain rfl := only nearest isNearest.above isNearest.first.child_eq
  unfold SameUpTo
  decide

end ConfigSource

end SourceAudit
