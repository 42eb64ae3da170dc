import RowPolicy.Main
import RowPolicy.Policy.Condition
import RowPolicy.Proofs.Joins.Meaning
import RowPolicy.Proofs.Joins.Placement
import RowPolicy.Proofs.Joins.Rows
import RowPolicy.Proofs.Joins.Visibility
import RowPolicy.Proofs.Joins.Exposure
import RowPolicy.Proofs.Joins.Isolation
import RowPolicy.Proofs.Joins.Probe
import RowPolicy.Proofs.Blocks.Outline
import RowPolicy.Proofs.Blocks.Lockstep
import RowPolicy.Proofs.Blocks.Calls
import RowPolicy.Proofs.Blocks.NamedQueries
import RowPolicy.Proofs.Outcomes
import RowPolicy.Proofs.Lexing.TextConstants
import RowPolicy.Proofs.Lexing.Progress
import RowPolicy.Proofs.Lexing.Readings
import RowPolicy.Proofs.Lexing.Conjunctions
import RowPolicy.Proofs.Joins.Leaves
import RowPolicy.Proofs.Joins.Walk
import RowPolicy.Proofs.Joins.Runs
import RowPolicy.Proofs.Joins.Answers
import RowPolicy.Proofs.Joins.Carried
import RowPolicy.Proofs.Tables.Uses
import RowPolicy.Proofs.Tables.Traversal
import RowPolicy.Proofs.Tables.Restricted
import RowPolicy.Proofs.Tables.Reached
import RowPolicy.Proofs.Tables.Tenants
import RowPolicy.Proofs.Deletions.SoftDeletion
import RowPolicy.Proofs.Blocks.Hooks
import RowPolicy.Proofs.Joins.Settled
import RowPolicy.Proofs.Blocks.Retrace
import RowPolicy.Proofs.Blocks.Amended
import RowPolicy.Proofs.Deletions.Idempotence
import RowPolicy.Proofs.Erasure.Cuts
import RowPolicy.Proofs.Erasure.Statements
import RowPolicy.Proofs.References.Denotations
import RowPolicy.Proofs.References.Seats
import RowPolicy.Proofs.References.Owners
import RowPolicy.Proofs.Deletions.OwnColumns
import RowPolicy.Proofs.Versions.Bumps
import RowPolicy.Proofs.References.Asked
import RowPolicy.Proofs.Blocks.Identity
import RowPolicy.Proofs.Insertions.Widths
import RowPolicy.Proofs.Insertions.Named
import RowPolicy.Proofs.Joins.Answered
import RowPolicy.Proofs.Blocks.Shells
import RowPolicy.Proofs.Blocks.Verdicts
import RowPolicy.Proofs.Blocks.Restraints
import RowPolicy.Proofs.Order.Succession
import RowPolicy.Proofs.Order.Restraining
import RowPolicy.Proofs.Order.Commutation
import RowPolicy.Proofs.Positions.Places
import RowPolicy.Proofs.Positions.Rewritten
import RowPolicy.Proofs.Positions.Scopes
import RowPolicy.Proofs.Positions.Filters
import RowPolicy.Proofs.Failures.Reaching
import RowPolicy.Proofs.Failures.Lenience
import RowPolicy.Proofs.Failures.Pipelines
import RowPolicy.Proofs.Texts.Batches
import RowPolicy.Proofs.Pages.Changes
import RowPolicy.Proofs.Pages.Windows
import RowPolicy.Proofs.Pages.Bounded
import RowPolicy.Proofs.Contexts.Consulted
import RowPolicy.Proofs.Contexts.Relevance
import RowPolicy.Proofs.Grammar.Plain
import RowPolicy.Proofs.Grammar.Steps
import RowPolicy.Proofs.Grammar.Operands
import RowPolicy.Proofs.Grammar.Expressions
import RowPolicy.Proofs.Grammar.Relations
import RowPolicy.Proofs.Grammar.Blocks
import RowPolicy.Proofs.Grammar.Statements
import RowPolicy.Proofs.Grammar.Printing
import RowPolicy.Proofs.Texts.RoundTrips
import RowPolicy.Proofs.Reports.Rows
import RowPolicy.Proofs.Reports.Formats
import RowPolicy.Proofs.Json.Tokens
import RowPolicy.Proofs.Json.RoundTrip
import RowPolicy.Proofs.Configs.Records
import RowPolicy.Proofs.Configs.RoundTrip
import RowPolicy.Proofs.Registries.Histories
import RowPolicy.Proofs.Properties.Conditions
import RowPolicy.Proofs.Properties.Accessors
import RowPolicy.Proofs.Properties.Mappings
import RowPolicy.Proofs.Registries.Matching
import RowPolicy.Proofs.Numbers.Numerals
