import SqlSelect.Diagnostic
import SqlSelect.Proofs.Alias.Probing
import SqlSelect.Proofs.Builder.Plain
import SqlSelect.Proofs.Condition.LikePattern
import SqlSelect.Proofs.Condition.ReadBack
import SqlSelect.Proofs.Entity.Definition
import SqlSelect.Proofs.Literal.Quoting
import SqlSelect.Proofs.Naming.Boundaries
import SqlSelect.Proofs.Query.Distinct
import SqlSelect.Proofs.Query.Lists
import SqlSelect.Proofs.Query.Literals
import SqlSelect.Proofs.Query.Neutral
import SqlSelect.Proofs.Query.Traces
import SqlSelect.Proofs.Resolver.Accounts
import SqlSelect.Proofs.Resolver.Identifiers
import SqlSelect.Proofs.Resolver.Machine
import SqlSelect.Proofs.Session.Aliases
import SqlSelect.Proofs.Session.Bare
import SqlSelect.Proofs.Session.Builders
import SqlSelect.Proofs.Session.Calls
import SqlSelect.Proofs.Session.DialectObjects
import SqlSelect.Proofs.Session.Dialects
import SqlSelect.Proofs.Session.Failures
import SqlSelect.Proofs.Session.Groups
import SqlSelect.Proofs.Session.History
import SqlSelect.Proofs.Session.JoinConditions
import SqlSelect.Proofs.Session.Lifecycle
import SqlSelect.Proofs.Session.Meaning
import SqlSelect.Proofs.Session.Neutral
import SqlSelect.Proofs.Session.Portable
import SqlSelect.Proofs.Session.Reach
import SqlSelect.Proofs.Session.Rendering
import SqlSelect.Proofs.Session.RowCounts
import SqlSelect.Proofs.Session.Settings
import SqlSelect.Proofs.Session.Sharing
import SqlSelect.Proofs.Time.Timestamp
import SqlSelect.Session
