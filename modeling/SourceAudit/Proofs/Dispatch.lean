import Mathlib.Data.List.Basic
import SourceAudit.Registry

/-!
# What a run of checkers appends

The sink is only ever appended to, and every checker is credited before it reports. So what a run
adds depends on the checkers and on the tree alone: neither the issues that are already there nor
the checker that was credited last can be seen in it. `Checker.issues` is what one checker adds,
`Registry.issues` what a registry adds.

Checkers do not see one another, then: a registry adds what each of its active entries adds when it
is **alone** on an empty sink, one after the other (`Registry.check_ordered_union`). Switching one
entry off takes its block out of the issues and leaves the rest as it is.
-/

namespace SourceAudit

namespace Checker

/-- A finding of the checker, under its code and name. -/
def issue (checker : Checker) (finding : Finding) : Issue :=
  ⟨finding.line, finding.explanation, checker.code, checker.name⟩

/-- The issues of one checker on a tree, in the order of discovery. -/
def issues (checker : Checker) (tree : Tree) : List Issue :=
  (checker.findings tree).map checker.issue

end Checker

/-- The issues of the active checkers on a tree, in the order of registration. -/
def Registry.issues (registry : Registry) (tree : Tree) : List Issue :=
  registry.active.flatMap (·.issues tree)

/-- Reporting findings appends them under the credit that the sink has, which stays. -/
theorem Sink.foldl_report (findings : List Finding) (sink : Sink) :
    findings.foldl Sink.report sink =
      { sink with
        issues := sink.issues ++ findings.map fun finding =>
          ⟨finding.line, finding.explanation, sink.code, sink.checker⟩ } := by
  induction findings generalizing sink with
  | nil => simp only [List.foldl_nil, List.map_nil, List.append_nil]
  | cons finding findings ih =>
    rw [List.foldl_cons, ih]
    simp only [Sink.report, List.map_cons, List.append_assoc, List.singleton_append]

/-- A checker appends its issues, whatever the sink holds and whoever was credited before. -/
theorem Checker.run_issues (checker : Checker) (tree : Tree) (sink : Sink) :
    (checker.run tree sink).issues = sink.issues ++ checker.issues tree := by
  rw [Checker.run, Sink.foldl_report]
  rfl

/-- A registry appends its issues, whatever the sink holds and whoever was credited before. -/
theorem Registry.check_issues (registry : Registry) (tree : Tree) (sink : Sink) :
    (registry.check tree sink).issues = sink.issues ++ registry.issues tree := by
  unfold Registry.check Registry.issues
  generalize registry.active = checkers
  induction checkers generalizing sink with
  | nil => simp only [List.foldl_nil, List.flatMap_nil, List.append_nil]
  | cons checker checkers ih =>
    rw [List.foldl_cons, ih, Checker.run_issues, List.flatMap_cons, List.append_assoc]

/-! ## Entries on their own -/

/-- What an entry adds to an empty sink when it is the only one of its registry. -/
def Entry.alone (entry : Entry) (tree : Tree) : List Issue :=
  (Registry.check ⟨[entry]⟩ tree {}).issues

namespace Entry

theorem alone_of_active {entry : Entry} (runs : entry.active = true) (tree : Tree) :
    entry.alone tree = entry.checker.issues tree := by
  rw [alone, Registry.check_issues]
  simp [Registry.issues, Registry.active, runs]

/-- A checker that does not run reports nothing. -/
theorem alone_of_inactive {entry : Entry} (rests : entry.active = false) (tree : Tree) :
    entry.alone tree = [] := by
  rw [alone, Registry.check_issues]
  simp [Registry.issues, Registry.active, rests]

end Entry

namespace Registry

/-- A registry adds what its entries add alone; one that does not run adds nothing. -/
theorem issues_eq_alone (registry : Registry) (tree : Tree) :
    registry.issues tree = registry.entries.flatMap (·.alone tree) := by
  unfold issues active
  induction registry.entries with
  | nil => rfl
  | cons entry entries ih =>
    rw [List.flatMap_cons, ← ih]
    by_cases runs : entry.active = true
    · rw [List.filter_cons_of_pos runs, List.map_cons, List.flatMap_cons,
        Entry.alone_of_active runs]
    · rw [List.filter_cons_of_neg runs, Entry.alone_of_inactive (Bool.eq_false_iff.mpr runs),
        List.nil_append]

/-- The registries `loud` and `quiet` differ in one thing: the checker at `place` is active in
`loud` and inactive in `quiet`. -/
structure SilencedAt (loud : Registry) (place : Nat) (checker : Checker) (quiet : Registry) :
    Prop where
  active : loud.entries[place]? = some ⟨checker, true⟩
  inactive : quiet.entries[place]? = some ⟨checker, false⟩
  same : ∀ other, other ≠ place → quiet.entries[other]? = loud.entries[other]?

/-- Two such registries have the same entries before the place and after it. -/
theorem SilencedAt.entries_eq {loud quiet : Registry} {place : Nat} {checker : Checker}
    (silenced : loud.SilencedAt place checker quiet) :
    loud.entries = loud.entries.take place ++ ⟨checker, true⟩ :: loud.entries.drop (place + 1) ∧
      quiet.entries =
        loud.entries.take place ++ ⟨checker, false⟩ :: loud.entries.drop (place + 1) := by
  obtain ⟨loudBound, loudEntry⟩ := List.getElem?_eq_some_iff.mp silenced.active
  obtain ⟨quietBound, quietEntry⟩ := List.getElem?_eq_some_iff.mp silenced.inactive
  have before : quiet.entries.take place = loud.entries.take place := by
    apply List.ext_getElem?
    intro other
    rw [List.getElem?_take, List.getElem?_take]
    by_cases below : other < place
    · rw [if_pos below, if_pos below, silenced.same other (Nat.ne_of_lt below)]
    · rw [if_neg below, if_neg below]
  have after : quiet.entries.drop (place + 1) = loud.entries.drop (place + 1) := by
    apply List.ext_getElem?
    intro other
    rw [List.getElem?_drop, List.getElem?_drop]
    exact silenced.same _ (by omega)
  constructor
  · rw [← loudEntry, List.getElem_cons_drop, List.take_append_drop]
  · rw [← before, ← after, ← quietEntry, List.getElem_cons_drop, List.take_append_drop]

/-- **A run is the ordered union of its checkers.** Whatever the sink holds and whoever was credited
before, the issues that are there stay in front, and the active entries add, in the order of
registration, what each of them adds alone to an empty sink: every finding of its checker once,
under the code and the name of that checker. So if one entry is switched off, its own issues are
missing in one block, and all others stand as they stood. -/
theorem check_ordered_union (registry : Registry) (tree : Tree) (sink : Sink) :
    (registry.check tree sink).issues =
        sink.issues ++ (registry.entries.filter (·.active)).flatMap (·.alone tree) ∧
      (∀ entry ∈ registry.entries, entry.active = true →
        entry.alone tree = (entry.checker.findings tree).map fun finding =>
          ⟨finding.line, finding.explanation, entry.checker.code, entry.checker.name⟩) ∧
      ∀ (place : Nat) (checker : Checker) (quiet : Registry) (other : Sink),
        registry.SilencedAt place checker quiet →
          let front := (registry.entries.take place).flatMap (·.alone tree)
          let back := (registry.entries.drop (place + 1)).flatMap (·.alone tree)
          (registry.check tree sink).issues =
              sink.issues ++ (front ++ Entry.alone ⟨checker, true⟩ tree ++ back) ∧
            (quiet.check tree other).issues = other.issues ++ (front ++ back) := by
  refine ⟨?_, ?_, ?_⟩
  · rw [check_issues, issues, active, List.flatMap_map]
    congr 1
    apply List.flatMap_congr
    intro entry mem
    exact (Entry.alone_of_active (List.mem_filter.mp mem).2 tree).symm
  · intro entry _ runs
    exact Entry.alone_of_active runs tree
  · intro place checker quiet other silenced front back
    obtain ⟨loudEntries, quietEntries⟩ := silenced.entries_eq
    constructor
    · rw [check_issues, issues_eq_alone, List.append_assoc front]
      nth_rewrite 1 [loudEntries]
      rw [List.flatMap_append, List.flatMap_cons]
    · rw [check_issues, issues_eq_alone, quietEntries, List.flatMap_append, List.flatMap_cons,
        Entry.alone_of_inactive rfl, List.nil_append]

end Registry

/-- A checker that finds one thing on every tree. -/
def remarkChecker (name code : String) (line : Nat) : Checker :=
  { name, code, findings := fun _ => [⟨line, name⟩] }

/-- The same checker stands on both sides of another one, and the sink credits a third. -/
theorem Registry.check_ordered_union_remarks :
    let first : Entry := ⟨remarkChecker "first" "T001" 5, true⟩
    let second := remarkChecker "second" "T002" 5
    let loud : Registry := ⟨[first, ⟨second, true⟩, first]⟩
    let quiet : Registry := ⟨[first, ⟨second, false⟩, first]⟩
    let sink : Sink := ⟨[⟨9, "earlier", "T000", "zeroth"⟩], "T000", "zeroth"⟩
    loud.SilencedAt 1 second quiet ∧
      (loud.check ⟨"t.py", []⟩ sink).issues = sink.issues ++ [⟨5, "first", "T001", "first"⟩,
        ⟨5, "second", "T002", "second"⟩, ⟨5, "first", "T001", "first"⟩] ∧
      (quiet.check ⟨"t.py", []⟩ sink).issues =
        sink.issues ++ [⟨5, "first", "T001", "first"⟩, ⟨5, "first", "T001", "first"⟩] := by
  intro first second loud quiet sink
  have silenced : loud.SilencedAt 1 second quiet := by
    refine ⟨rfl, rfl, ?_⟩
    intro other elsewhere
    match other with
    | 0 => rfl
    | 1 => exact absurd rfl elsewhere
    | other + 2 => rfl
  exact ⟨silenced, (loud.check_ordered_union ⟨"t.py", []⟩ sink).2.2 1 second quiet sink silenced⟩

end SourceAudit
