import QueryGate.Database.Pool
import QueryGate.Http.Endpoint
import QueryGate.Yaml.Document
import QueryGate.Proofs.Sql.Reading
import QueryGate.Proofs.Sql.Nesting
import QueryGate.Proofs.Sql.Condition
import QueryGate.Proofs.Scope.Conjunction
import QueryGate.Proofs.Sql.Listing
import QueryGate.Proofs.Scope.Soundness
import QueryGate.Proofs.Ask.Safety
import QueryGate.Proofs.Text.Collapse
import QueryGate.Proofs.Text.Search
import QueryGate.Proofs.Sql.Collapsing
import QueryGate.Proofs.Guard.Wording
import QueryGate.Proofs.Guard.Fragment
import QueryGate.Proofs.Template.Block
import QueryGate.Proofs.Template.Reading
import QueryGate.Proofs.Indexed.Acceptance
import QueryGate.Proofs.Template.RoundTrip
import QueryGate.Proofs.Guard.SameBlocks
import QueryGate.Proofs.Guard.Listing
import QueryGate.Proofs.Scope.Isolation
import QueryGate.Proofs.Scope.OneTenant
import QueryGate.Proofs.Text.Case
import QueryGate.Proofs.Sql.Places
import QueryGate.Proofs.Guard.Keywords
import QueryGate.Proofs.Scope.SameStatement
import QueryGate.Proofs.Guard.Subquery
import QueryGate.Proofs.Guard.Joins
import QueryGate.Proofs.Scope.OnlyTenant
import QueryGate.Proofs.Guard.Acceptance
import QueryGate.Proofs.Guard.Tightening
import QueryGate.Proofs.Guard.Selection
import QueryGate.Proofs.Text.LetterCase
import QueryGate.Proofs.Sql.LetterCase
import QueryGate.Proofs.Guard.LetterCase
import QueryGate.Proofs.Scope.LetterCase
import QueryGate.Proofs.Number.Rounding
import QueryGate.Proofs.Sql.Comparison
import QueryGate.Proofs.Ask.Agreement
import QueryGate.Proofs.Template.Completion
import QueryGate.Proofs.Cache.Run
import QueryGate.Proofs.Cache.Room
import QueryGate.Proofs.Indexed.Answers
import QueryGate.Proofs.Cache.Sweep
import QueryGate.Proofs.Cache.Eviction
import QueryGate.Proofs.Calendar.Renderings
import QueryGate.Proofs.Catalogue.Lookups
import QueryGate.Proofs.Database.Connections
import QueryGate.Proofs.Scope.Comparisons
import QueryGate.Proofs.Scope.Terms
import QueryGate.Proofs.Guard.FromClause
import QueryGate.Proofs.Sql.LastClause
import QueryGate.Proofs.Guard.RowBound
import QueryGate.Proofs.Guard.MissingLimit
import QueryGate.Proofs.Ask.Retry
import QueryGate.Proofs.Question.Naming
import QueryGate.Proofs.Question.Unusable
import QueryGate.Proofs.Question.TenantChoice
import QueryGate.Proofs.Question.Apart
import QueryGate.Proofs.Cache.ReadThrough
import QueryGate.Proofs.Assistant.Fence
import QueryGate.Proofs.Policy.Verdicts
import QueryGate.Proofs.Summary.Tally
import QueryGate.Proofs.Database.Rows
import QueryGate.Proofs.Database.Labels
import QueryGate.Proofs.Policy.ThreeValues
import QueryGate.Proofs.Record.Fields
import QueryGate.Proofs.Summary.MostRecent
import QueryGate.Proofs.Guard.NamesAsWritten
import QueryGate.Proofs.Sql.Spans
import QueryGate.Proofs.Sql.DoubledQuotes
import QueryGate.Proofs.Sql.Printing
import QueryGate.Proofs.Sql.Splitting
import QueryGate.Proofs.Sql.Parentheses
import QueryGate.Proofs.Indexed.TenantList
