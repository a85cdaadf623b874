import SourceAudit.Concrete.Lower
import SourceAudit.Registry

/-!
# Sessions

A session analyses one source. Its tree is asked of the provider on first use and kept, and so is
the refusal of a source that does not parse; only a new text makes the provider be asked again.
The issues are those of the last analysis: each analysis starts from none, and so does a new text.

The number of times the provider was asked is part of the session, because keeping trees is all
that distinguishes it from asking every time.
-/

namespace SourceAudit

/-- The analysis of one source. -/
structure Session where
  sourceName : String
  sourceText : String
  /-- What the provider said, once it has been asked. -/
  parsed : Option (Except ParseError Tree) := none
  /-- The issues of the last analysis. -/
  sink : Sink := {}
  /-- How often the provider was asked. -/
  parses : Nat := 0

namespace Session

/-- A session over a text. -/
def start (name text : String) : Session := { sourceName := name, sourceText := text }

/-- The tree, asked of the provider only if that has not been done yet. -/
def tree (provider : Provider) (session : Session) : Except ParseError Tree × Session :=
  match session.parsed with
  | some outcome => (outcome, session)
  | none =>
    let outcome := provider session.sourceText session.sourceName
    (outcome, { session with parsed := some outcome, parses := session.parses + 1 })

/-- Whether the provider has been asked about the current text. -/
def isParsed (session : Session) : Bool := session.parsed.isSome

/-- The issues of the last analysis. -/
def issues (session : Session) : List Issue := session.sink.issues

/-- Runs the active checkers of a registry. A source that does not parse has no issues. -/
def analyse (provider : Provider) (registry : Registry) (session : Session) :
    Except ParseError (List Issue) × Session :=
  match tree provider { session with sink := session.sink.clear } with
  | (.error error, session) => (.error error, session)
  | (.ok tree, session) =>
    let session := { session with sink := registry.check tree session.sink }
    (.ok session.issues, session)

/-- Puts another text in place of the current one. -/
def replaceSource (text : String) (session : Session) : Session :=
  { session with sourceText := text, parsed := none, sink := session.sink.clear }

end Session

end SourceAudit
