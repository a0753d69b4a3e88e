import QueryPlanner.Key
import QueryPlanner.Main
import QueryPlanner.Proofs.Key.Digits
import QueryPlanner.Proofs.Plan.Access
import QueryPlanner.Proofs.Plan.Limits
import QueryPlanner.Proofs.Plan.Rerun
import QueryPlanner.Proofs.Key.Order
import QueryPlanner.Proofs.Key.Reading
import QueryPlanner.Proofs.Binding.Cycles
import QueryPlanner.Proofs.Session.Reachable
import QueryPlanner.Proofs.Binding.Scoping
import QueryPlanner.Proofs.Plan.Scoping
import QueryPlanner.Proofs.Plan.References
import QueryPlanner.Proofs.Catalog.Coherence
import QueryPlanner.Proofs.Binding.Alone
import QueryPlanner.Proofs.Plan.Inputs
import QueryPlanner.Proofs.Plan.ViewReferences
import QueryPlanner.Proofs.AccessPath.Placeholders
import QueryPlanner.Proofs.Plan.PlaceholderSlots
import QueryPlanner.Proofs.Binding.Spelling
import QueryPlanner.Proofs.Plan.Spelling
import QueryPlanner.Proofs.Catalog.Loading
import QueryPlanner.Proofs.Statement.Documents
import QueryPlanner.Proofs.Session.Steps
import QueryPlanner.Proofs.AccessPath.Compared
import QueryPlanner.Proofs.AccessPath.Preference
import QueryPlanner.Proofs.AccessPath.ConjunctOrder
import QueryPlanner.Proofs.Plan.RowSource
import QueryPlanner.Proofs.AccessPath.Respelling
import QueryPlanner.Proofs.AccessPath.FixedPrefix
import QueryPlanner.Proofs.Plan.Targets
import QueryPlanner.Proofs.Binding.Resolution
import QueryPlanner.Proofs.Binding.OwnNames
import QueryPlanner.Proofs.Plan.ValueRows
import QueryPlanner.Proofs.Plan.InsertedRows
import QueryPlanner.Proofs.Typing.Acceptance
import QueryPlanner.Proofs.AccessPath.Bounds
import QueryPlanner.Proofs.Plan.Hints
import QueryPlanner.Proofs.Catalog.Undoing
import QueryPlanner.Proofs.Catalog.Commuting
import QueryPlanner.Proofs.Collation.Order
import QueryPlanner.Proofs.Plan.Wildcards
import QueryPlanner.Proofs.Key.Cursor
import QueryPlanner.Proofs.AccessPath.Splitting
import QueryPlanner.Proofs.Plan.LineFeeds
