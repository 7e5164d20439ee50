import MongoQuery.Bson.Description
import MongoQuery.Bson.Equality
import MongoQuery.Bson.Extended
import MongoQuery.Bson.Json
import MongoQuery.Bson.Value
import MongoQuery.Command.Answer
import MongoQuery.Command.Arguments
import MongoQuery.Command.Files
import MongoQuery.Command.Outcome
import MongoQuery.Command.Settings
import MongoQuery.Fields
import MongoQuery.Filter.Condition
import MongoQuery.Filter.Criteria
import MongoQuery.Filter.Find
import MongoQuery.Filter.Fragment
import MongoQuery.Json.Basic
import MongoQuery.Json.Reader
import MongoQuery.Json.Writer
import MongoQuery.Main
import MongoQuery.Number.Binary64
import MongoQuery.Number.Decimal128
import MongoQuery.Number.Digit
import MongoQuery.Number.Floating
import MongoQuery.Number.Integer
import MongoQuery.Number.Numeral
import MongoQuery.Number.Shortest
import MongoQuery.Pipeline.Buckets
import MongoQuery.Pipeline.Request
import MongoQuery.Pipeline.Stage
import MongoQuery.Proofs.Filter.Holds
import MongoQuery.Proofs.Fields
import MongoQuery.Query.Aggregation
import MongoQuery.Query.Comparison
import MongoQuery.Query.Condition
import MongoQuery.Query.Criteria
import MongoQuery.Query.Equality
import MongoQuery.Query.FilterSpec
import MongoQuery.Text.Base64
import MongoQuery.Text.Parts
import MongoQuery.Text.Extending
import MongoQuery.Text.Hex
import MongoQuery.Text.Quoted
import MongoQuery.Text.Unprinted
import MongoQuery.Time.Calendar
import MongoQuery.Time.Instant
import MongoQuery.Time.Rfc3339
import MongoQuery.Wire.Aggregation
import MongoQuery.Wire.Condition
import MongoQuery.Wire.Error
import MongoQuery.Wire.Field
import MongoQuery.Wire.Filter
import MongoQuery.Wire.Name
import MongoQuery.Proofs.Filter.Combination
import MongoQuery.Proofs.Filter.Meaning
import MongoQuery.Proofs.Query.Page
import MongoQuery.Proofs.Query.Paging
import MongoQuery.Proofs.Wire.Form
import MongoQuery.Proofs.Wire.RoundTrip
import MongoQuery.Proofs.Pipeline.Grouping
import MongoQuery.Proofs.Pipeline.Places
import MongoQuery.Proofs.Pipeline.Run
import MongoQuery.Proofs.Pipeline.Rows
import MongoQuery.Proofs.Pipeline.Cohort
import MongoQuery.Proofs.Pipeline.Collapse
import MongoQuery.Proofs.Pipeline.Calendar
import MongoQuery.Proofs.Pipeline.Counting
import MongoQuery.Proofs.Pipeline.Reading
import MongoQuery.Proofs.Filter.Grammar
import MongoQuery.Proofs.Filter.Validity
import MongoQuery.Proofs.Query.Grounding
import MongoQuery.Proofs.Filter.Constraints
import MongoQuery.Proofs.Pipeline.Conservation
import MongoQuery.Proofs.Pipeline.Scope
import MongoQuery.Proofs.Filter.Literals
import MongoQuery.Proofs.Pipeline.Labels
import MongoQuery.Proofs.Wire.Equivalence
import MongoQuery.Proofs.Number.Rational
import MongoQuery.Proofs.Number.WholePart
import MongoQuery.Proofs.Pipeline.Layout
import MongoQuery.Proofs.Pipeline.Stack
import MongoQuery.Proofs.Wire.Faults
import MongoQuery.Proofs.Wire.Level
import MongoQuery.Proofs.Wire.Chain
import MongoQuery.Proofs.Wire.Grammar
import MongoQuery.Proofs.Wire.Recognition
import MongoQuery.Proofs.Filter.Attachment
import MongoQuery.Proofs.Query.Paths
import MongoQuery.Proofs.Query.PageClause
import MongoQuery.Proofs.Query.Build
import MongoQuery.Proofs.Pipeline.Frame
import MongoQuery.Proofs.Time.Saturation
import MongoQuery.Proofs.Filter.Pattern
import MongoQuery.Proofs.Wire.Limit
import MongoQuery.Proofs.Pipeline.Histogram
import MongoQuery.Proofs.Number.Decimal
import MongoQuery.Proofs.Text.Padding
import MongoQuery.Proofs.Command.Settings
import MongoQuery.Proofs.Json.Printing
import MongoQuery.Proofs.Command.Answer
import MongoQuery.Proofs.Query.Pointwise
import MongoQuery.Proofs.Bson.Equality
import MongoQuery.Proofs.Query.Equality
import MongoQuery.Proofs.Filter.Congruence
import MongoQuery.Proofs.Pipeline.Congruence
import MongoQuery.Proofs.Time.Calendar
import MongoQuery.Proofs.Time.Civil
import MongoQuery.Proofs.Time.Period
import MongoQuery.Proofs.Fields.History
import MongoQuery.Proofs.Filter.Assembly
import MongoQuery.Proofs.Query.Group
