import Shorthand.Cursor.Basic
import Shorthand.Forest.Optimize
import Shorthand.Forest.Search
import Shorthand.Hook
import Shorthand.Main
import Shorthand.Proofs.Reading.Scan
import Shorthand.Proofs.Reading.Flat
import Shorthand.Proofs.Forest.WellFormed
import Shorthand.Proofs.Grove.Squash
import Shorthand.Proofs.Forest.Edit
import Shorthand.Proofs.Forest.Squash
import Shorthand.Proofs.Grove.Unroll
import Shorthand.Proofs.Grove.Count
import Shorthand.Proofs.Forest.Copy
import Shorthand.Proofs.Forest.Unroll
import Shorthand.Proofs.Forest.Copies
import Shorthand.Forest.Build
import Shorthand.Proofs.Forest.Build
import Shorthand.Proofs.Forest.Parse
import Shorthand.Proofs.Reading.Faults
import Shorthand.Proofs.CommandLine.Rejection
import Shorthand.Proofs.Delimiter
import Shorthand.Proofs.Text.Trim
import Shorthand.Proofs.Reading.Compose
import Shorthand.Proofs.Multiplier
import Shorthand.Proofs.PlainName
import Shorthand.Proofs.Reading.Nesting
import Shorthand.Proofs.Reading.SingleToken
import Shorthand.Proofs.Reading.Frame
import Shorthand.Proofs.Reading.Tokens
import Shorthand.Proofs.Grouping
import Shorthand.Proofs.Outline
import Shorthand.Proofs.Text.Quoted
import Shorthand.Proofs.Optimize.Inert
import Shorthand.Proofs.Reading.Contents
import Shorthand.Proofs.Resolver
import Shorthand.Proofs.Pipeline.History
import Shorthand.Proofs.Pipeline.Journal
import Shorthand.Proofs.Pipeline.Order
import Shorthand.Proofs.Token
import Shorthand.Proofs.Reading.Scanned
import Shorthand.Proofs.Reading.Position
import Shorthand.Proofs.Reading.Ending
import Shorthand.Proofs.Attribute.Quoted
import Shorthand.Proofs.Literal
import Shorthand.Proofs.Settings.Loading
import Shorthand.Proofs.Reading.Limits
import Shorthand.Proofs.Reading.Outer
import Shorthand.Proofs.Optimize.Numbers
import Shorthand.Proofs.Optimize.Stars
import Shorthand.Proofs.Optimize.Commute
import Shorthand.Proofs.Forest.Passes
import Shorthand.Proofs.Forest.Again
import Shorthand.Proofs.Attribute.Merge
import Shorthand.Proofs.Attribute.Stages
import Shorthand.Proofs.Attribute.Grammar
import Shorthand.Proofs.Attribute.Written
import Shorthand.Proofs.Element
import Shorthand.Proofs.Token.Layout
import Shorthand.Proofs.Token.Interpretation
import Shorthand.Proofs.Forest.Consistent
import Shorthand.Proofs.Forest.Editing
import Shorthand.Proofs.Forest.Moving
import Shorthand.Proofs.Reading.Again
import Shorthand.Proofs.Reading.Described
import Shorthand.Proofs.Token.Name
import Shorthand.Proofs.Forest.Clone
import Shorthand.Proofs.Forest.Search
import Shorthand.Proofs.Forest.Resolve
import Shorthand.Proofs.Settings.Precedence
import Shorthand.Proofs.Text.Lines
import Shorthand.Proofs.Node.Description
import Shorthand.Proofs.Reading.PlainNames
import Shorthand.Proofs.Forest.Lines
import Shorthand.Proofs.Cursor.Basic
import Shorthand.Proofs.Cursor.Operation
import Shorthand.Proofs.Cursor.Loop
import Shorthand.Proofs.Cursor.Pair
import Shorthand.Proofs.Attribute.Loop
import Shorthand.Proofs.Attribute.RoundTrip
import Shorthand.Proofs.Token.Loop
import Shorthand.Proofs.Reading.Loop
