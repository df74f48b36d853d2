import Mender.Analysis
import Mender.Application
import Mender.Batch
import Mender.Batch.Tape
import Mender.Convergence
import Mender.Defect
import Mender.Diff.Pieces
import Mender.Diff.Unified
import Mender.Edit
import Mender.Excerpt
import Mender.Fault
import Mender.Fingerprint
import Mender.Fix
import Mender.Generator.Basic
import Mender.Generator.KnownNames
import Mender.Generator.Model
import Mender.Generator.NameList
import Mender.Generator.Prompt
import Mender.Generator.Rules
import Mender.Generator.Standard
import Mender.Journal
import Mender.Json.Reader
import Mender.Json.Value
import Mender.Json.Writer
import Mender.Limit
import Mender.Loose
import Mender.Moment
import Mender.Moment.Reading
import Mender.Number.Amount
import Mender.Number.Binary64
import Mender.Number.Decimal
import Mender.Number.Numeral
import Mender.Oracle.Basic
import Mender.Oracle.Lines
import Mender.Oracle.Memo
import Mender.Outcome
import Mender.Ranking
import Mender.Record.Checked
import Mender.Record.Reading
import Mender.Record.Scalar
import Mender.Record.Writing
import Mender.Rehearsal.Players
import Mender.Rehearsal.World
import Mender.Report
import Mender.Retry
import Mender.Session
import Mender.Settings.Basic
import Mender.Settings.Bindings
import Mender.Source.Builtins
import Mender.Source.Check
import Mender.Source.Names
import Mender.Source.Tree
import Mender.Text.Base64
import Mender.Text.Blank
import Mender.Text.Brackets
import Mender.Text.CodePoint
import Mender.Text.EditDistance
import Mender.Text.Encoding
import Mender.Text.FieldFormat
import Mender.Text.Lines
import Mender.Text.Lowercase
import Mender.Text.Printable
import Mender.Text.Quoted
import Mender.Text.Search
import Mender.Text.Shown
import Mender.Text.Template
import Mender.Text.WordCharacter
import Mender.Tuning
import Mender.Yaml.Construction
import Mender.Yaml.Cursor
import Mender.Yaml.Mark
import Mender.Yaml.Node
import Mender.Yaml.Resolution
import Mender.Yaml.Scalar
import Mender.Yaml.ScalarValue
import Mender.Yaml.SetOrder
import Mender.Yaml.Tag
import Mender.Yaml.Token
import Mender.Yaml.Value
import Mender.Yaml.Writer
import Mender.Proofs.Bench
import Mender.Proofs.Descent
import Mender.Proofs.Session.Search
import Mender.Proofs.Session.Acceptance
import Mender.Proofs.Session.Round
import Mender.Proofs.Session.Course
import Mender.Proofs.Session.Delivery
import Mender.Proofs.Session.Replay
import Mender.Proofs.Session.Consistency
import Mender.Proofs.Session.Log
import Mender.Proofs.Edit
import Mender.Proofs.Json.Written
import Mender.Proofs.Ranking
import Mender.Proofs.Ranking.Writable
import Mender.Proofs.Ranking.Order
import Mender.Proofs.Judgement
import Mender.Proofs.Coupling
import Mender.Proofs.Session.Choice
import Mender.Proofs.Session.Unnamed
import Mender.Proofs.Session.Coupled
import Mender.Proofs.Session.Candidates
import Mender.Proofs.Session.Determined
import Mender.Proofs.Session.Inert
import Mender.Proofs.Session.Budget
import Mender.Proofs.Session.Freshness
import Mender.Proofs.Session.SearchLog
import Mender.Proofs.Session.Trail
import Mender.Proofs.Session.Decline
import Mender.Proofs.Session.Greedy
import Mender.Proofs.Session.Parallel
import Mender.Proofs.Session.Alongside
import Mender.Proofs.Session.Watched
import Mender.Proofs.Session.OneAnswer
import Mender.Proofs.Session.Cancellation
import Mender.Proofs.Text.Writable
import Mender.Proofs.Json.Read
import Mender.Proofs.Text.Template
import Mender.Proofs.Record
import Mender.Proofs.Proposals
import Mender.Proofs.Session.Unexpected
import Mender.Proofs.Session.Assessed
import Mender.Proofs.Session.Task
import Mender.Proofs.Session.Linewise
import Mender.Proofs.Session.Pruning
import Mender.Proofs.Session.Trimming
import Mender.Proofs.Application
import Mender.Proofs.Session.FirstFix
import Mender.Proofs.Ranking.Merging
import Mender.Proofs.Application.Sifting
import Mender.Proofs.Edit.Locality
import Mender.Proofs.Text.EditDistance
import Mender.Proofs.Source.Walk
import Mender.Proofs.Source.Slot
import Mender.Proofs.Source.Names
import Mender.Proofs.Source.Report
import Mender.Proofs.Source.Unbound
import Mender.Proofs.Source.Unused
import Mender.Proofs.Source.Import
import Mender.Proofs.Source.Removal
import Mender.Proofs.Text.Quoted
import Mender.Proofs.Source.Moved
import Mender.Proofs.Generator.Binding
import Mender.Proofs.Source.Addition
import Mender.Proofs.Text.Brackets
import Mender.Proofs.Generator.Rules
import Mender.Proofs.Number.Rounding
import Mender.Proofs.Similarity
import Mender.Proofs.Generator.BestNames
import Mender.Proofs.Text.Search
import Mender.Proofs.Generator.KnownNames
import Mender.Proofs.Number.PowerOfTwo
import Mender.Proofs.Retry
import Mender.Proofs.Oracle.LookUps
import Mender.Proofs.Oracle.Panel
import Mender.Proofs.Diff.Pieces
import Mender.Proofs.Diff.Diagonal
import Mender.Proofs.Diff.Hunks
import Mender.Proofs.Text.LineReading
import Mender.Proofs.Diff.Patch
import Mender.Proofs.Diff.Unified
import Mender.Proofs.Analysis.Tally
import Mender.Proofs.Analysis
import Mender.Proofs.Report
import Mender.Proofs.Number.Magnitude
import Mender.Proofs.Convergence
import Mender.Proofs.Session.Confidence
import Mender.Proofs.Generator.Suggestions
import Mender.Proofs.Excerpt
import Mender.Proofs.Text.QuotedToken
