import Verdict.Calendar.Clock
import Verdict.Calendar.Date
import Verdict.Calendar.Instant
import Verdict.Calendar.Iso
import Verdict.CommandLine.Arguments
import Verdict.CommandLine.Run
import Verdict.Digest
import Verdict.Document.Error
import Verdict.Document.Json
import Verdict.Document.Written
import Verdict.Document.Yaml
import Verdict.Document.Yaml.Scalar
import Verdict.Document.Yaml.Token
import Verdict.Engine.Draft
import Verdict.Engine.Engine
import Verdict.Engine.Failure
import Verdict.Engine.Source
import Verdict.Engine.Task
import Verdict.Entries
import Verdict.Evaluation.Condition
import Verdict.Evaluation.Constraint
import Verdict.Evaluation.Judgement
import Verdict.Evaluation.Meaning
import Verdict.Evaluation.Rule
import Verdict.Fault
import Verdict.FileName
import Verdict.Introspection.Alternative
import Verdict.Introspection.Explore
import Verdict.Introspection.Findings
import Verdict.Introspection.Range
import Verdict.Introspection.Satisfaction
import Verdict.Introspection.Usage
import Verdict.Like
import Verdict.Log.Book
import Verdict.Log.Level
import Verdict.Log.Record
import Verdict.Main
import Verdict.Mutation.Desk
import Verdict.Mutation.Mutate
import Verdict.Mutation.Mutator
import Verdict.Mutation.Transform
import Verdict.Number.Binary64
import Verdict.Number.Numeral
import Verdict.Number.Places
import Verdict.Number.Power
import Verdict.Number.Shortest
import Verdict.Operator.Basic
import Verdict.Operator.BuiltIn
import Verdict.Operator.Collection
import Verdict.Operator.Order
import Verdict.Operator.Registry
import Verdict.Operator.Sort
import Verdict.Operator.Time
import Verdict.Operator.Wording
import Verdict.Path.Resolve
import Verdict.Path.Segment
import Verdict.Path.Update
import Verdict.Pattern.Fold
import Verdict.Pattern.Literal
import Verdict.Pattern.Match
import Verdict.Pattern.Reader
import Verdict.Pattern.Syntax
import Verdict.Proofs.Calendar.Clock
import Verdict.Proofs.Calendar.Range
import Verdict.Proofs.Engine.Together
import Verdict.Proofs.Entries
import Verdict.Proofs.Evaluation.Asked
import Verdict.Proofs.Evaluation.Limit
import Verdict.Proofs.Evaluation.Meaning
import Verdict.Proofs.Evaluation.Presence
import Verdict.Proofs.Evaluation.Reach
import Verdict.Proofs.Evaluation.Total
import Verdict.Proofs.Evaluation.Visit
import Verdict.Proofs.Evaluation.Visited
import Verdict.Proofs.Evaluation.Walk
import Verdict.Proofs.Introspection.Alternative
import Verdict.Proofs.Introspection.Choice
import Verdict.Proofs.Introspection.Complexity
import Verdict.Proofs.Introspection.Conjunction
import Verdict.Proofs.Introspection.Contribution
import Verdict.Proofs.Introspection.Distinct
import Verdict.Proofs.Introspection.Effective
import Verdict.Proofs.Introspection.Exact
import Verdict.Proofs.Introspection.Explored
import Verdict.Proofs.Introspection.Faithful
import Verdict.Proofs.Introspection.FieldType
import Verdict.Proofs.Introspection.Forkless
import Verdict.Proofs.Introspection.Grouping
import Verdict.Proofs.Introspection.Grow
import Verdict.Proofs.Introspection.Kept
import Verdict.Proofs.Introspection.Literal
import Verdict.Proofs.Introspection.Merge
import Verdict.Proofs.Introspection.OneRange
import Verdict.Proofs.Introspection.OwnMeaning
import Verdict.Proofs.Introspection.Provenance
import Verdict.Proofs.Introspection.Range
import Verdict.Proofs.Introspection.RoundTrip
import Verdict.Proofs.Introspection.Separate
import Verdict.Proofs.Introspection.Traceable
import Verdict.Proofs.Introspection.Undone
import Verdict.Proofs.Introspection.Untranslated
import Verdict.Proofs.Introspection.Warning
import Verdict.Proofs.Like
import Verdict.Proofs.Limit
import Verdict.Proofs.Mutation.Account
import Verdict.Proofs.Mutation.Agenda
import Verdict.Proofs.Mutation.Alike
import Verdict.Proofs.Mutation.Apart
import Verdict.Proofs.Mutation.Batch
import Verdict.Proofs.Mutation.Below
import Verdict.Proofs.Mutation.Beside
import Verdict.Proofs.Mutation.Course
import Verdict.Proofs.Mutation.Delivery
import Verdict.Proofs.Mutation.Desk
import Verdict.Proofs.Mutation.Fields
import Verdict.Proofs.Mutation.History
import Verdict.Proofs.Mutation.Independent
import Verdict.Proofs.Mutation.LookUp
import Verdict.Proofs.Mutation.Owned
import Verdict.Proofs.Mutation.Placement
import Verdict.Proofs.Mutation.Plain
import Verdict.Proofs.Mutation.Recall
import Verdict.Proofs.Mutation.Reflected
import Verdict.Proofs.Mutation.Renamed
import Verdict.Proofs.Mutation.Runs
import Verdict.Proofs.Mutation.Searched
import Verdict.Proofs.Mutation.Simultaneous
import Verdict.Proofs.Mutation.SingleFlight
import Verdict.Proofs.Mutation.Steady
import Verdict.Proofs.Mutation.Tidy
import Verdict.Proofs.Mutation.Together
import Verdict.Proofs.Operator.BuiltIn
import Verdict.Proofs.Operator.Collection
import Verdict.Proofs.Operator.Decide
import Verdict.Proofs.Operator.Inverse
import Verdict.Proofs.Operator.Links
import Verdict.Proofs.Operator.Moment
import Verdict.Proofs.Operator.Order
import Verdict.Proofs.Path.Compose
import Verdict.Proofs.Path.Frame
import Verdict.Proofs.Path.Location
import Verdict.Proofs.Path.Marks
import Verdict.Proofs.Path.Mirror
import Verdict.Proofs.Path.Place
import Verdict.Proofs.Path.ReadBack
import Verdict.Proofs.Path.Reading
import Verdict.Proofs.Path.Writable
import Verdict.Proofs.Path.Written
import Verdict.Proofs.Pattern.Limit
import Verdict.Proofs.Pattern.Reads
import Verdict.Proofs.Pattern.Sequence
import Verdict.Proofs.Pattern.Takes
import Verdict.Proofs.Rule.Identity
import Verdict.Proofs.Rule.Normal
import Verdict.Proofs.Rule.Written
import Verdict.Proofs.Template.Substitution
import Verdict.Proofs.Text.DecimalDigit
import Verdict.Proofs.Validation.Exact
import Verdict.Proofs.Validation.Safety
import Verdict.Proofs.Validation.Sound
import Verdict.Proofs.Value.Copy
import Verdict.Proofs.Value.Equality
import Verdict.Proofs.Value.Equivalence
import Verdict.Proofs.Value.Later
import Verdict.Proofs.Value.Marks
import Verdict.Proofs.Value.Occurs
import Verdict.Proofs.Value.Order
import Verdict.Proofs.Value.Scalar
import Verdict.Proofs.Value.Seen
import Verdict.Rule.Basic
import Verdict.Rule.Measure
import Verdict.Rule.Reading
import Verdict.Rule.Shape
import Verdict.Rule.Subject
import Verdict.Rule.Written
import Verdict.Settings
import Verdict.Similarity
import Verdict.Template
import Verdict.Text.Blank
import Verdict.Text.CharName
import Verdict.Text.DecimalDigit
import Verdict.Text.Identifier
import Verdict.Text.LetterCase
import Verdict.Text.Part
import Verdict.Text.Placeholder
import Verdict.Text.Printable
import Verdict.Text.Quoted
import Verdict.Text.Ranges
import Verdict.Text.Word
import Verdict.Url
import Verdict.Validation.Grammar
import Verdict.Validation.Problem
import Verdict.Validation.Validator
import Verdict.Value.Basic
import Verdict.Value.Display
import Verdict.Value.Equality
import Verdict.Value.Marking
import Verdict.Value.Moment
