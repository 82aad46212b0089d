import ChangeTracking.Backend
import ChangeTracking.Binary.Encoding
import ChangeTracking.Binary.Gzip
import ChangeTracking.Binary.Sha256
import ChangeTracking.Deploy.Catalog
import ChangeTracking.Deploy.Manifest
import ChangeTracking.Deploy.Rollout
import ChangeTracking.Fault
import ChangeTracking.FileTree
import ChangeTracking.Firing.Document
import ChangeTracking.Firing.Evaluation
import ChangeTracking.Firing.History
import ChangeTracking.Json.Reader
import ChangeTracking.Json.Record
import ChangeTracking.Json.Value
import ChangeTracking.NameMap
import ChangeTracking.Naming
import ChangeTracking.Plan.Document
import ChangeTracking.Plan.Encoding
import ChangeTracking.Plan.Expr
import ChangeTracking.Plan.Guard
import ChangeTracking.Plan.Origin
import ChangeTracking.Plan.Planning
import ChangeTracking.Plan.TriggerSet
import ChangeTracking.Proofs.Firing.Binding
import ChangeTracking.Proofs.Firing.Guards
import ChangeTracking.Proofs.Firing.Histories
import ChangeTracking.Proofs.Firing.Recording
import ChangeTracking.Proofs.Firing.Updates
import ChangeTracking.Proofs.Plan.PlannedSets
import ChangeTracking.Proofs.Plan.RowSafety
import ChangeTracking.Proofs.Plan.Subterms
import ChangeTracking.Proofs.Sql.Chains
import ChangeTracking.Proofs.Sql.Database
import ChangeTracking.Proofs.Sql.Joins
import ChangeTracking.Proofs.Sql.Lookups
import ChangeTracking.Proofs.Sql.Meaning
import ChangeTracking.Proofs.Sql.Queries
import ChangeTracking.Proofs.Sql.Reading
import ChangeTracking.Proofs.Sql.Rendering
import ChangeTracking.Proofs.Sql.Spelling
import ChangeTracking.Proofs.Sql.Syntax
import ChangeTracking.Proofs.Sql.Terms
import ChangeTracking.Proofs.Sql.Tests
import ChangeTracking.Proofs.Sql.Tokens
import ChangeTracking.Proofs.Sql.Writing
import ChangeTracking.Schema.Document
import ChangeTracking.Schema.Entity
import ChangeTracking.Schema.Model
import ChangeTracking.Schema.Projection
import ChangeTracking.Schema.Route
import ChangeTracking.Script.Artifact
import ChangeTracking.Script.Document
import ChangeTracking.Script.Generation
import ChangeTracking.Script.H2
import ChangeTracking.Script.Hana
import ChangeTracking.Script.Postgres
import ChangeTracking.Script.Registry
import ChangeTracking.Script.Sqlite
import ChangeTracking.Script.Statement
import ChangeTracking.Settings
import ChangeTracking.Skip.Document
import ChangeTracking.Skip.Scope
import ChangeTracking.Skip.Session
import ChangeTracking.Sql.Dialect
import ChangeTracking.Sql.Fragment
import ChangeTracking.Sql.Term
import ChangeTracking.Text.Chars
import ChangeTracking.Text.LetterCase
import ChangeTracking.Text.LetterCaseTable
import ChangeTracking.Time.Date
import ChangeTracking.Time.Instant
import ChangeTracking.Tracking.Analysis
import ChangeTracking.Tracking.Descriptor
import ChangeTracking.Tracking.Document
import ChangeTracking.Tracking.Merge
import ChangeTracking.Tracking.Snapshot
import ChangeTracking.Tracking.ValueClass
import ChangeTracking.Proofs.Plan.TriggerReads
import ChangeTracking.Proofs.Skip.Names
import ChangeTracking.Proofs.Skip.Statements
import ChangeTracking.Proofs.Skip.Runs
import ChangeTracking.Proofs.Binary.Delimiting
import ChangeTracking.Proofs.Tracking.Snapshots
import ChangeTracking.Proofs.Schema.Registered
import ChangeTracking.Proofs.NameMaps
import ChangeTracking.Proofs.Tracking.Analyses
import ChangeTracking.Proofs.Plan.Readings
import ChangeTracking.Proofs.Deploy.Staleness
import ChangeTracking.Proofs.Firing.Navigation
import ChangeTracking.Proofs.Script.Generations
import ChangeTracking.Proofs.Firing.RootIdentifiers
import ChangeTracking.Proofs.Plan.Operands
import ChangeTracking.Proofs.Firing.Discretion
import ChangeTracking.Proofs.Script.TriggerNames
import ChangeTracking.Proofs.Script.DollarQuotes
import ChangeTracking.Proofs.Tracking.Directives
import ChangeTracking.Proofs.Tracking.Conflicts
import ChangeTracking.Proofs.Tracking.Omissions
import ChangeTracking.Proofs.Tracking.RootLinks
import ChangeTracking.Proofs.Deploy.Redeployment
import ChangeTracking.Proofs.Sql.Lowering
import ChangeTracking.Proofs.Sql.Parameters
import ChangeTracking.Proofs.Sql.Recording
import ChangeTracking.Proofs.Script.Placeholders
import ChangeTracking.Proofs.Firing.Transitions
import ChangeTracking.Proofs.Firing.Cascades
import ChangeTracking.Proofs.Firing.Translations
import ChangeTracking.Proofs.Skip.Agreement
import ChangeTracking.Proofs.Firing.Departures
import ChangeTracking.Proofs.Tracking.Coverage
import ChangeTracking.Proofs.Deploy.Fingerprints
import ChangeTracking.Proofs.Schema.Documents
import ChangeTracking.Proofs.Tracking.Joins
import ChangeTracking.Proofs.Schema.Shapes
import ChangeTracking.Proofs.Tracking.Attributes
import ChangeTracking.Proofs.Plan.Phrases
import ChangeTracking.Proofs.Schema.Projections
import ChangeTracking.Proofs.Firing.Captions
import ChangeTracking.Proofs.Firing.ComputedFields
import ChangeTracking.Proofs.Sql.TruthValues
import ChangeTracking.Proofs.Deploy.Rollouts
import ChangeTracking.Proofs.Deploy.Differences
import ChangeTracking.Proofs.Script.Registries
import ChangeTracking.Proofs.Script.HistoryTables
import ChangeTracking.Proofs.Firing.Substitution
import ChangeTracking.Proofs.Firing.Headers
import ChangeTracking.Proofs.Firing.Uniqueness
import ChangeTracking.Proofs.Firing.Children
import ChangeTracking.Proofs.Firing.Dependence
import ChangeTracking.Proofs.Sql.Quoting
import ChangeTracking.Proofs.Text.JavaLiterals
import ChangeTracking.Proofs.Script.PreparedStatements
