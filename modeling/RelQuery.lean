import RelQuery.Activity
import RelQuery.Bindings.Basic
import RelQuery.Bindings.Positional
import RelQuery.Clause.Field
import RelQuery.Clause.Join
import RelQuery.Clause.Limit
import RelQuery.Clause.Order
import RelQuery.Clause.Table
import RelQuery.Condition.Basic
import RelQuery.Condition.Operator
import RelQuery.Condition.Reader
import RelQuery.Config
import RelQuery.Dialect
import RelQuery.Engine.Basic
import RelQuery.Engine.Clauses
import RelQuery.Engine.Finalize
import RelQuery.Engine.Running
import RelQuery.Error
import RelQuery.Identifier
import RelQuery.Naming
import RelQuery.Plan.Basic
import RelQuery.Plan.Expansion
import RelQuery.Plan.Folding
import RelQuery.Plan.Loading
import RelQuery.Predicate.Basic
import RelQuery.Predicate.Scope
import RelQuery.Query.Basic
import RelQuery.Query.Select
import RelQuery.Query.Write
import RelQuery.Relation.Basic
import RelQuery.Relation.Mode
import RelQuery.ResultSet.Basic
import RelQuery.ResultSet.Reading
import RelQuery.Session.Basic
import RelQuery.Session.Event
import RelQuery.Session.Log
import RelQuery.Shaping
import RelQuery.Statement.Basic
import RelQuery.Statement.Stack
import RelQuery.Table.Basic
import RelQuery.Table.FetchMode
import RelQuery.Table.FetchOptions
import RelQuery.Table.Fetching
import RelQuery.Text.Blank
import RelQuery.Text.Camel
import RelQuery.Text.Letter
import RelQuery.Text.LetterTable
import RelQuery.Text.Numeral
import RelQuery.Value.Basic
import RelQuery.Value.Column
import RelQuery.Value.Double
import RelQuery.Value.Number
import RelQuery.Value.Reader
import RelQuery.Value.Row
import RelQuery.Value.Shortest
import RelQuery.Proofs.Predicate.Chain
import RelQuery.Proofs.Predicate.Parts
import RelQuery.Proofs.Predicate.Truth
import RelQuery.Proofs.Reading.Word
import RelQuery.Proofs.Condition.Compile
import RelQuery.Proofs.Condition.Evaluation
import RelQuery.Proofs.Condition.Extension
import RelQuery.Proofs.Condition.Secrecy
import RelQuery.Proofs.Condition.KeyName
import RelQuery.Proofs.Condition.KeyOperator
import RelQuery.Proofs.Condition.Alternatives
import RelQuery.Proofs.Condition.Places
import RelQuery.Proofs.Condition.Columns
import RelQuery.Proofs.Condition.Lists
import RelQuery.Proofs.Bindings.Fresh
import RelQuery.Proofs.Reading.Placeholder
import RelQuery.Proofs.Query.Placeholders
import RelQuery.Proofs.Plan.Expansion
import RelQuery.Proofs.Query.Positional
import RelQuery.Proofs.Query.FirstTest
import RelQuery.Proofs.Query.Qualified
import RelQuery.Proofs.Session.Failures
import RelQuery.Proofs.Session.Fetches
import RelQuery.Proofs.Session.Deeds
import RelQuery.Proofs.Session.Accounts
import RelQuery.Proofs.Query.Failures
import RelQuery.Proofs.Engine.Requests
import RelQuery.Proofs.Engine.Aliases
import RelQuery.Proofs.Engine.Changes
import RelQuery.Proofs.Engine.Stack
import RelQuery.Proofs.Engine.Clauses
import RelQuery.Proofs.Plan.Prefixed
import RelQuery.Proofs.Plan.Folding
import RelQuery.Proofs.Plan.Layout
import RelQuery.Proofs.Plan.Owners
import RelQuery.Proofs.Plan.Request
import RelQuery.Proofs.Plan.Related
import RelQuery.Proofs.Plan.Embedding
import RelQuery.Proofs.Plan.Matching
import RelQuery.Proofs.Plan.Stable
import RelQuery.Proofs.Plan.Steady
import RelQuery.Proofs.Plan.Siblings
import RelQuery.Proofs.Plan.Lossless
import RelQuery.Proofs.Plan.Joins
import RelQuery.Proofs.Value.Row
import RelQuery.Proofs.Plan.Folded
import RelQuery.Proofs.Plan.Keys
import RelQuery.Proofs.Value.Numeral
import RelQuery.Proofs.Value.Shortest
import RelQuery.Proofs.Reading.Quoted
import RelQuery.Proofs.Reading.Literal
import RelQuery.Proofs.Reading.Name
import RelQuery.Proofs.Plan.Queries
import RelQuery.Proofs.Plan.Batch
import RelQuery.Proofs.Plan.Entries
import RelQuery.Proofs.Plan.MissingKeys
import RelQuery.Proofs.Plan.Preorder
import RelQuery.Proofs.Plan.Conflicts
import RelQuery.Proofs.Table.Requests
import RelQuery.Proofs.Table.Selection
import RelQuery.Proofs.Table.Coverage
import RelQuery.Proofs.Query.Assignments
import RelQuery.Proofs.Plan.Recording
import RelQuery.Proofs.Engine.Recording
import RelQuery.Proofs.Engine.Chronicle
import RelQuery.Proofs.Engine.Snapshot
import RelQuery.Proofs.Shaping.Groups
import RelQuery.Proofs.Bindings.Calls
import RelQuery.Proofs.Reading.Field
import RelQuery.Proofs.Plan.Rowwise
import RelQuery.Proofs.Reading.Limit
import RelQuery.Proofs.Engine.First
