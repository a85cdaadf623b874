import SourceAudit.Checker.Basic
import SourceAudit.Checker.ConstantCase
import SourceAudit.Checker.TryOutput
import SourceAudit.CommandLine.Arguments
import SourceAudit.CommandLine.Check
import SourceAudit.CommandLine.Log
import SourceAudit.CommandLine.Run
import SourceAudit.Concrete.Basic
import SourceAudit.Concrete.Json
import SourceAudit.Concrete.Lower
import SourceAudit.Concrete.Search
import SourceAudit.Concrete.Stored
import SourceAudit.Config.Basic
import SourceAudit.Config.Reader
import SourceAudit.Config.Source
import SourceAudit.Disk.Basic
import SourceAudit.Disk.Path
import SourceAudit.Glob.Basic
import SourceAudit.Glob.Expression
import SourceAudit.Glob.Parser
import SourceAudit.Ignore.List
import SourceAudit.Ignore.Personal
import SourceAudit.Ignore.Repository
import SourceAudit.Ignore.Rule
import SourceAudit.Ignore.Walk
import SourceAudit.Issue
import SourceAudit.Json.Basic
import SourceAudit.Json.Parser
import SourceAudit.Json.Printer
import SourceAudit.Main
import SourceAudit.ParseError
import SourceAudit.Preset
import SourceAudit.Proofs.Checker.ConstantCase
import SourceAudit.Proofs.Checker.TryOutput
import SourceAudit.Proofs.CommandLine
import SourceAudit.Proofs.Concrete.Acceptance
import SourceAudit.Proofs.Concrete.Calls
import SourceAudit.Proofs.Concrete.Chain
import SourceAudit.Proofs.Concrete.Faithful
import SourceAudit.Proofs.Concrete.Grammatical
import SourceAudit.Proofs.Concrete.Lines
import SourceAudit.Proofs.Concrete.Lower
import SourceAudit.Proofs.Concrete.Nesting
import SourceAudit.Proofs.Concrete.Order
import SourceAudit.Proofs.Concrete.Remarks
import SourceAudit.Proofs.Concrete.Search
import SourceAudit.Proofs.Concrete.Site
import SourceAudit.Proofs.Concrete.Visits
import SourceAudit.Proofs.Config.Reader
import SourceAudit.Proofs.Config.Source
import SourceAudit.Proofs.Disk
import SourceAudit.Proofs.Disk.Path
import SourceAudit.Proofs.Dispatch
import SourceAudit.Proofs.Json.Pretty
import SourceAudit.Proofs.Keys
import SourceAudit.Proofs.Outcome
import SourceAudit.Proofs.Preset
import SourceAudit.Proofs.Registry
import SourceAudit.Proofs.Report
import SourceAudit.Proofs.Report.Account
import SourceAudit.Proofs.Report.Json
import SourceAudit.Proofs.Report.Plain
import SourceAudit.Proofs.Retained
import SourceAudit.Proofs.Scope
import SourceAudit.Proofs.Selection
import SourceAudit.Proofs.Session
import SourceAudit.Proofs.Text
import SourceAudit.Proofs.Text.Occurrence
import SourceAudit.Proofs.Tree.Json
import SourceAudit.Proofs.Tree.Place
import SourceAudit.Proofs.Tree.Site
import SourceAudit.Proofs.Tree.Variant
import SourceAudit.Proofs.Tree.Visit
import SourceAudit.Proofs.Tree.Walk
import SourceAudit.Registry
import SourceAudit.Report
import SourceAudit.Scope
import SourceAudit.Selection
import SourceAudit.Session
import SourceAudit.Text.Basic
import SourceAudit.Text.Blank
import SourceAudit.Text.CharRange
import SourceAudit.Text.Lowercase
import SourceAudit.Text.Uppercase
import SourceAudit.Toml.Basic
import SourceAudit.Toml.DateTable
import SourceAudit.Toml.Draft
import SourceAudit.Toml.Parser
import SourceAudit.Toml.Quoted
import SourceAudit.Toml.Scalar
import SourceAudit.Tree.Basic
import SourceAudit.Tree.Json
import SourceAudit.Tree.Visit
import SourceAudit.Tree.Walk
