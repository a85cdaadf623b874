import Mathlib.Data.List.Infix
import SourceAudit.Proofs.Dispatch
import SourceAudit.Session

/-!
# A session keeps trees and nothing else

What a session answers is said here without anything that is kept: an answer is a function of the
operations before it. The text in force is the one of the last replacement; a tree is what the
provider makes of that text; an analysis is the analysis of a fresh session over it; the issues are
those of the last analysis of the text in force, if it succeeded. The replacements cut a run into
**stretches**, and the provider is asked once in each stretch that asks for a tree at all.

`Session.Follows` ties a session to the operations behind it, one operation keeps it
(`Session.Follows.perform`), and so does a run (`Session.Follows.run`).
-/

namespace SourceAudit

namespace Session

/-! ## Runs -/

/-- What can be asked of a session. -/
inductive Operation where
  | analyse (registry : Registry)
  | tree
  | issues
  | replaceSource (text : String)

/-- What a session answers. -/
inductive Answer where
  | analysed (outcome : Except ParseError (List Issue))
  | tree (outcome : Except ParseError Tree)
  | issues (list : List Issue)
  | replaced

/-- Carries out one operation. -/
def perform (provider : Provider) (operation : Operation) (session : Session) :
    Answer × Session :=
  match operation with
  | .analyse registry =>
    let (outcome, session) := session.analyse provider registry
    (.analysed outcome, session)
  | .tree =>
    let (outcome, session) := session.tree provider
    (.tree outcome, session)
  | .issues => (.issues session.issues, session)
  | .replaceSource text => (.replaced, session.replaceSource text)

/-- Carries out operations one after the other, and gives their answers in order. -/
def run (provider : Provider) : List Operation → Session → List Answer × Session
  | [], session => ([], session)
  | operation :: operations, session =>
    let (answer, session) := session.perform provider operation
    let (answers, session) := run provider operations session
    (answer :: answers, session)

/-! ## What is expected after some operations -/

namespace Operation

/-- The text that an operation puts in place. -/
def text? : Operation → Option String
  | replaceSource text => some text
  | _ => none

/-- The registry that an operation analyses with. -/
def analysis? : Operation → Option Registry
  | analyse registry => some registry
  | _ => none

/-- Whether an operation puts another text in place. -/
def replaces (operation : Operation) : Bool := operation.text?.isSome

/-- Whether an operation needs the tree. -/
def asks : Operation → Bool
  | analyse _ | tree => true
  | issues | replaceSource _ => false

end Operation

/-- The text in force after the operations `past` on a session that started with `text`. -/
def textAfter (text : String) (past : List Operation) : String :=
  (past.filterMap Operation.text?).getLastD text

/-- The operations between replacements, in order. -/
def stretches (past : List Operation) : List (List Operation) := past.splitOnP Operation.replaces

/-- The operations since the last replacement. -/
def currentStretch (past : List Operation) : List Operation := (stretches past).getLastD []

/-- The registry of the last analysis of the text in force, if there was one. -/
def lastAnalysis? (past : List Operation) : Option Registry :=
  ((currentStretch past).filterMap Operation.analysis?).getLast?

section

variable (provider : Provider) (name text : String)

/-- An analysis by a session that has done nothing else. -/
def freshAnalysis (past : List Operation) (registry : Registry) : Except ParseError (List Issue) :=
  ((start name (textAfter text past)).analyse provider registry).1

/-- The issues after some operations: those of the last analysis of the text in force. -/
def expectedIssues (past : List Operation) : List Issue :=
  match lastAnalysis? past with
  | none => []
  | some registry =>
    match freshAnalysis provider name text past registry with
    | .ok issues => issues
    | .error _ => []

/-- The answer to an operation that comes after others. -/
def expectedAnswer (past : List Operation) : Operation → Answer
  | .analyse registry => .analysed (freshAnalysis provider name text past registry)
  | .tree => .tree (provider (textAfter text past) name)
  | .issues => .issues (expectedIssues provider name text past)
  | .replaceSource _ => .replaced

end

/-- The number of stretches that ask for the tree. -/
def expectedParses (past : List Operation) : Nat :=
  (stretches past).countP (·.any Operation.asks)

/-! ## One more operation -/

/-- The text in force is the one that the last operation puts in place, or else the one that was in
force before. -/
theorem textAfter_concat (text : String) (past : List Operation) (operation : Operation) :
    textAfter text (past ++ [operation]) = operation.text?.getD (textAfter text past) := by
  unfold textAfter
  rw [List.filterMap_append]
  cases h : operation.text? with
  | none =>
    simp only [List.filterMap_cons, h, List.filterMap_nil, List.append_nil, Option.getD_none]
  | some replacement =>
    simp only [List.filterMap_cons, h, List.filterMap_nil, Option.getD_some,
      List.getLastD_concat]

/-- A replacement opens a stretch. -/
theorem stretches_concat_of_replaces (past : List Operation) {operation : Operation}
    (h : operation.replaces = true) : stretches (past ++ [operation]) = stretches past ++ [[]] := by
  unfold stretches
  rw [List.splitOnP_append_cons past [] h, List.splitOnP_nil]

/-- Any other operation goes to the end of the last stretch. -/
theorem stretches_concat_of_not_replaces (past : List Operation) {operation : Operation}
    (h : operation.replaces = false) :
    ∃ earlier last, stretches past = earlier ++ [last] ∧
      stretches (past ++ [operation]) = earlier ++ [last ++ [operation]] := by
  unfold stretches
  induction past with
  | nil => exact ⟨[], [], rfl, by simp [List.splitOnP_cons_eq_if_modifyHead, h]⟩
  | cons first past ih =>
    obtain ⟨earlier, last, before, after⟩ := ih
    rw [List.cons_append, List.splitOnP_cons_eq_if_modifyHead,
      List.splitOnP_cons_eq_if_modifyHead, before, after]
    by_cases replaces : first.replaces = true
    · exact ⟨[] :: earlier, last, by simp [replaces], by simp [replaces]⟩
    · cases earlier with
      | nil => exact ⟨[], first :: last, by simp [replaces], by simp [replaces]⟩
      | cons stretch earlier =>
        exact ⟨(first :: stretch) :: earlier, last, by simp [replaces], by simp [replaces]⟩

/-- A replacement starts a new stretch, and any other operation goes on with the current one. -/
theorem currentStretch_concat (past : List Operation) (operation : Operation) :
    currentStretch (past ++ [operation]) =
      if operation.replaces then [] else currentStretch past ++ [operation] := by
  unfold currentStretch
  cases h : operation.replaces with
  | true => rw [stretches_concat_of_replaces past h, List.getLastD_concat]; rfl
  | false =>
    obtain ⟨earlier, last, before, after⟩ := stretches_concat_of_not_replaces past h
    rw [before, after, List.getLastD_concat, List.getLastD_concat]
    rfl

/-- The provider is asked once more if the operation is the first of its stretch to ask. -/
theorem expectedParses_concat (past : List Operation) (operation : Operation) :
    expectedParses (past ++ [operation]) = expectedParses past +
      if operation.asks && !(currentStretch past).any Operation.asks then 1 else 0 := by
  unfold expectedParses currentStretch
  cases h : operation.replaces with
  | true =>
    rw [stretches_concat_of_replaces past h]
    cases operation <;> simp_all [Operation.replaces, Operation.text?, Operation.asks]
  | false =>
    obtain ⟨earlier, last, before, after⟩ := stretches_concat_of_not_replaces past h
    rw [before, after]
    cases asked : last.any Operation.asks <;> cases asks : operation.asks <;>
      simp_all [List.countP_append]

/-- A replacement makes the last analysis void, another analysis takes its place, and anything else
leaves it. -/
theorem lastAnalysis?_concat (past : List Operation) (operation : Operation) :
    lastAnalysis? (past ++ [operation]) =
      if operation.replaces then none else operation.analysis?.or (lastAnalysis? past) := by
  unfold lastAnalysis?
  rw [currentStretch_concat]
  cases operation.replaces with
  | true => rfl
  | false =>
    rw [if_neg Bool.false_ne_true, if_neg Bool.false_ne_true, List.filterMap_append]
    cases h : operation.analysis? with
    | none =>
      simp only [List.filterMap_cons, h, List.filterMap_nil, List.append_nil, Option.none_or]
    | some registry =>
      simp only [List.filterMap_cons, h, List.filterMap_nil, List.getLast?_concat, Option.some_or]

/-! ## One operation of a session -/

/-- What is kept of a session's text, if anything, is what the provider makes of it. -/
def KeepsTruth (provider : Provider) (session : Session) : Prop :=
  ∀ outcome, session.parsed = some outcome →
    outcome = provider session.sourceText session.sourceName

/-- The tree is what the provider makes of the text, and is kept from then on. -/
theorem tree_eq {provider : Provider} {session : Session} (h : session.KeepsTruth provider) :
    session.tree provider =
      (provider session.sourceText session.sourceName,
        { session with
          parsed := some (provider session.sourceText session.sourceName)
          parses := session.parses + if session.isParsed then 0 else 1 }) := by
  unfold tree isParsed
  cases kept : session.parsed with
  | none => rfl
  | some outcome =>
    obtain rfl := h outcome kept
    show (_, session) = (_, { session with parsed := some _, parses := session.parses + 0 })
    rw [← kept]
    rfl

/-- The issues that a registry gives for what the provider made of a text; none, if that is a
refusal. -/
def issuesOf (registry : Registry) : Except ParseError Tree → List Issue
  | .ok tree => registry.issues tree
  | .error _ => []

/-- An analysis gives the issues of the tree; the session has them and the tree afterwards. -/
theorem analyse_eq {provider : Provider} {session : Session} (h : session.KeepsTruth provider)
    (registry : Registry) :
    let outcome := provider session.sourceText session.sourceName
    let next := (session.analyse provider registry).2
    (session.analyse provider registry).1 = outcome.map registry.issues ∧
      next.issues = issuesOf registry outcome ∧ next.sourceName = session.sourceName ∧
      next.sourceText = session.sourceText ∧ next.parsed = some outcome ∧
      next.parses = session.parses + if session.isParsed then 0 else 1 := by
  have cleared : KeepsTruth provider { session with sink := session.sink.clear } := h
  unfold analyse
  rw [tree_eq cleared]
  -- A sink that was just cleared holds what the registry appends and nothing else.
  cases provider session.sourceText session.sourceName with
  | error error => exact ⟨rfl, rfl, rfl, rfl, rfl, rfl⟩
  | ok tree =>
    have appended : (registry.check tree session.sink.clear).issues = registry.issues tree := by
      rw [Registry.check_issues]
      rfl
    exact ⟨congrArg Except.ok appended, appended, rfl, rfl, rfl, rfl⟩

/-- A fresh session asks the provider once and lets the checkers of the registry look at the
tree. -/
theorem freshAnalysis_eq (provider : Provider) (name text : String) (past : List Operation)
    (registry : Registry) :
    freshAnalysis provider name text past registry =
      (provider (textAfter text past) name).map registry.issues := by
  have nothing : KeepsTruth provider (start name (textAfter text past)) := by
    intro outcome h
    cases h
  exact (analyse_eq nothing registry).1

/-- What is expected of the issues comes down to the provider and the registry, with no session in
between. -/
theorem expectedIssues_eq (provider : Provider) (name text : String) (past : List Operation) :
    expectedIssues provider name text past =
      match lastAnalysis? past with
      | none => []
      | some registry => issuesOf registry (provider (textAfter text past) name) := by
  unfold expectedIssues
  cases lastAnalysis? past with
  | none => rfl
  | some registry =>
    simp only [freshAnalysis_eq]
    cases provider (textAfter text past) name <;> rfl

/-! ## Runs of a session -/

/-- A session is as it should be after the operations `past`. -/
structure Follows (provider : Provider) (name text : String) (past : List Operation)
    (session : Session) : Prop where
  sourceName : session.sourceName = name
  sourceText : session.sourceText = textAfter text past
  parsed : session.parsed = if (currentStretch past).any Operation.asks then
    some (provider (textAfter text past) name) else none
  issues : session.issues = expectedIssues provider name text past
  parses : session.parses = expectedParses past

variable {provider : Provider} {name text : String} {past : List Operation} {session : Session}

theorem Follows.start : Follows provider name text [] (start name text) where
  sourceName := rfl
  sourceText := rfl
  parsed := rfl
  issues := rfl
  parses := rfl

/-- A session has parsed exactly if something in the current stretch asked for a tree. -/
theorem Follows.isParsed (h : Follows provider name text past session) :
    session.isParsed = (currentStretch past).any Operation.asks := by
  rw [Session.isParsed, h.parsed]
  cases (currentStretch past).any Operation.asks <;> rfl

/-- What a session that follows its operations keeps is what the provider would give for the text in
force. -/
theorem Follows.keepsTruth (h : Follows provider name text past session) :
    session.KeepsTruth provider := by
  intro outcome kept
  rw [h.parsed] at kept
  split at kept
  · cases kept
    rw [h.sourceText, h.sourceName]
  · cases kept

/-- After an operation that asks, the tree of the text in force is kept. -/
theorem Follows.of_asks (h : Follows provider name text past session) {operation : Operation}
    {next : Session} (asks : operation.asks = true)
    (sourceName : next.sourceName = session.sourceName)
    (sourceText : next.sourceText = session.sourceText)
    (parsed : next.parsed = some (provider session.sourceText session.sourceName))
    (issues : next.issues = expectedIssues provider name text (past ++ [operation]))
    (parses : next.parses = session.parses + if session.isParsed then 0 else 1) :
    Follows provider name text (past ++ [operation]) next := by
  have noText : operation.text? = none := by
    cases operation with
    | replaceSource => cases asks
    | _ => rfl
  have sameText : textAfter text (past ++ [operation]) = textAfter text past := by
    rw [textAfter_concat, noText, Option.getD_none]
  have stretch : currentStretch (past ++ [operation]) = currentStretch past ++ [operation] := by
    rw [currentStretch_concat, Operation.replaces, noText]
    rfl
  refine ⟨sourceName.trans h.sourceName, ?_, ?_, issues, ?_⟩
  · rw [sourceText, h.sourceText, sameText]
  · rw [parsed, h.sourceText, h.sourceName, sameText, stretch]
    simp only [List.any_append, List.any_cons, asks, Bool.true_or, Bool.or_true, if_true]
  · rw [parses, h.parses, h.isParsed, expectedParses_concat, asks]
    cases (currentStretch past).any Operation.asks <;> rfl

/-- One operation gives the answer that is expected, and leaves the session as it should be. -/
theorem Follows.perform (h : Follows provider name text past session) (operation : Operation) :
    (session.perform provider operation).1 = expectedAnswer provider name text past operation ∧
      Follows provider name text (past ++ [operation]) (session.perform provider operation).2 := by
  cases operation with
  | analyse registry =>
    obtain ⟨answer, issues, sourceName, sourceText, parsed, parses⟩ :=
      analyse_eq h.keepsTruth registry
    rw [h.sourceText, h.sourceName] at answer issues
    constructor
    · exact congrArg Answer.analysed (answer.trans (freshAnalysis_eq ..).symm)
    · refine h.of_asks rfl sourceName sourceText parsed (issues.trans ?_) parses
      rw [expectedIssues_eq, lastAnalysis?_concat, textAfter_concat]
      rfl
  | tree =>
    have kept := tree_eq h.keepsTruth
    constructor
    · show Answer.tree (session.tree provider).1 = _
      rw [kept, h.sourceText, h.sourceName]
      rfl
    · show Follows _ _ _ _ (session.tree provider).2
      rw [kept]
      refine h.of_asks rfl rfl rfl rfl (h.issues.trans ?_) rfl
      rw [expectedIssues_eq, expectedIssues_eq, lastAnalysis?_concat, textAfter_concat]
      rfl
  | issues =>
    refine ⟨congrArg Answer.issues h.issues, h.sourceName, ?_, ?_, ?_, ?_⟩
    · rw [textAfter_concat]
      exact h.sourceText
    · rw [textAfter_concat, currentStretch_concat]
      show session.parsed = if (currentStretch past ++ [Operation.issues]).any _ then _ else _
      rw [List.any_append, h.parsed]
      simp only [List.any_cons, Operation.asks, List.any_nil, Bool.or_false]
      rfl
    · rw [expectedIssues_eq, lastAnalysis?_concat, textAfter_concat]
      exact h.issues.trans (expectedIssues_eq ..)
    · rw [expectedParses_concat]
      exact h.parses
  | replaceSource replacement =>
    refine ⟨rfl, h.sourceName, ?_, ?_, ?_, ?_⟩
    · rw [textAfter_concat]
      rfl
    · rw [currentStretch_concat]
      rfl
    · rw [expectedIssues_eq, lastAnalysis?_concat]
      rfl
    · rw [expectedParses_concat]
      exact h.parses

/-- A run gives the expected answers, each from the operations before it, and leaves the session as
it should be after all of them. -/
theorem Follows.run (h : Follows provider name text past session) (operations : List Operation) :
    (Session.run provider operations session).1 =
        List.zipWith (fun before => expectedAnswer provider name text (past ++ before))
          operations.inits operations ∧
      Follows provider name text (past ++ operations)
        (Session.run provider operations session).2 := by
  induction operations generalizing past session with
  | nil =>
    rw [List.append_nil]
    exact ⟨rfl, h⟩
  | cons operation operations ih =>
    obtain ⟨answer, next⟩ := h.perform operation
    obtain ⟨answers, last⟩ := ih next
    constructor
    · show (session.perform provider operation).1 ::
        (Session.run provider operations (session.perform provider operation).2).1 = _
      rw [answer, answers, List.inits_cons, List.zipWith_cons_cons, List.append_nil]
      congr 1
      rw [List.zipWith_map_left]
      simp only [List.append_assoc, List.singleton_append]
    · rw [List.append_assoc] at last
      exact last

/-- **A session is an uncached session that asks the provider less often.** In every run, each
analysis and each tree is what a fresh session over the text in force gives, and the issues are
those of the last analysis of that text; the provider is asked once in every stretch between
replacements that needs a tree, also if it refuses the text. -/
theorem run_start (provider : Provider) (name text : String) (operations : List Operation) :
    let result := run provider operations (start name text)
    result.1 = List.zipWith (expectedAnswer provider name text) operations.inits operations ∧
      result.2.issues = expectedIssues provider name text operations ∧
      result.2.parses = expectedParses operations ∧
      result.2.isParsed = (currentStretch operations).any Operation.asks := by
  have h : Follows provider name text [] (start name text) := Follows.start
  obtain ⟨answers, last⟩ := h.run operations
  exact ⟨answers, last.issues, last.parses, last.isParsed⟩

end Session

end SourceAudit
