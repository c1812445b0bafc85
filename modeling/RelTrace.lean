import RelTrace.Catalog
import RelTrace.Command.Failure
import RelTrace.Command.Options
import RelTrace.Command.Run
import RelTrace.Condition
import RelTrace.Database.Basic
import RelTrace.Database.FileName
import RelTrace.Database.Json
import RelTrace.Database.Sample
import RelTrace.Database.Schema
import RelTrace.Database.Storage
import RelTrace.Folder
import RelTrace.Host
import RelTrace.Json.Decode
import RelTrace.Json.Document
import RelTrace.Json.Draft
import RelTrace.Json.Fault
import RelTrace.Json.Scaling
import RelTrace.Json.Token
import RelTrace.Keyed
import RelTrace.Log
import RelTrace.Main
import RelTrace.Number.Basic
import RelTrace.Number.Decimal
import RelTrace.Number.Magnitude
import RelTrace.Number.Shortest
import RelTrace.Number.Text
import RelTrace.Query.Canonical
import RelTrace.Query.Compile
import RelTrace.Query.Expr
import RelTrace.Query.ParseError
import RelTrace.Query.Reading
import RelTrace.Query.Span
import RelTrace.Query.Token
import RelTrace.Relation.Algebra
import RelTrace.Relation.Basic
import RelTrace.Relation.Grid
import RelTrace.Relation.Json
import RelTrace.Row
import RelTrace.Text.Blank
import RelTrace.Text.CodeRange
import RelTrace.Text.Cut
import RelTrace.Text.LetterCase
import RelTrace.Text.LowerCase
import RelTrace.Text.Printable
import RelTrace.Text.Quoted
import RelTrace.Trace.Evaluate
import RelTrace.Trace.Graph
import RelTrace.Trace.Highlight
import RelTrace.Trace.Json
import RelTrace.Trace.Step
import RelTrace.Value
import RelTrace.Proofs.Keyed
import RelTrace.Proofs.Value.Places
import RelTrace.Proofs.Value.Chains
import RelTrace.Proofs.Value.Literals
import RelTrace.Proofs.Text.Parts
import RelTrace.Proofs.Text.Lines
import RelTrace.Proofs.Query.Grammar
import RelTrace.Proofs.Query.Reads
import RelTrace.Proofs.Query.Acceptance
import RelTrace.Proofs.Query.Lexical
import RelTrace.Proofs.Query.RoundTrip
import RelTrace.Proofs.Query.Postorder
import RelTrace.Proofs.Query.Placement
import RelTrace.Proofs.Query.Viability
import RelTrace.Proofs.Trace.Denotation
import RelTrace.Proofs.Trace.Refinement
import RelTrace.Proofs.Trace.Shape
import RelTrace.Proofs.Query.Laminar
import RelTrace.Proofs.Trace.Highlight
import RelTrace.Proofs.Relation.Union
import RelTrace.Proofs.Trace.UnionChain
import RelTrace.Proofs.Condition.Reading
import RelTrace.Proofs.Number.Spelling
import RelTrace.Proofs.Trace.NumericSelection
import RelTrace.Proofs.Relation.Join
import RelTrace.Proofs.Relation.Selection
import RelTrace.Proofs.Trace.Failure
import RelTrace.Proofs.Trace.Agreement
import RelTrace.Proofs.Query.Moving
import RelTrace.Proofs.Query.Seams
import RelTrace.Proofs.Query.Productions
import RelTrace.Proofs.Query.Composition
import RelTrace.Proofs.Query.Replacement
import RelTrace.Proofs.Query.Padding
import RelTrace.Proofs.Query.Slices
import RelTrace.Proofs.Trace.Slices
import RelTrace.Proofs.Trace.Diagram
import RelTrace.Proofs.Trace.Depiction
import RelTrace.Proofs.Query.Regrouping
import RelTrace.Proofs.Query.Parentheses
import RelTrace.Proofs.Json.Pieces
import RelTrace.Proofs.Json.Writing
import RelTrace.Proofs.Json.Numbers
import RelTrace.Proofs.Json.Decoding
import RelTrace.Proofs.Json.Contents
import RelTrace.Proofs.Database.Order
import RelTrace.Proofs.Database.RoundTrip
import RelTrace.Proofs.Database.Loading
import RelTrace.Proofs.Catalog.Places
import RelTrace.Proofs.Catalog.Runs
import RelTrace.Proofs.Catalog.Names
import RelTrace.Proofs.Relation.Identity
import RelTrace.Proofs.Relation.Distribution
import RelTrace.Proofs.Relation.Pushdown
import RelTrace.Proofs.Relation.Projection
import RelTrace.Proofs.Relation.Pruning
import RelTrace.Proofs.Relation.Exchange
import RelTrace.Proofs.Relation.Columns
import RelTrace.Proofs.Relation.Grid
import RelTrace.Proofs.Command.Preparation
import RelTrace.Proofs.Command.Options
import RelTrace.Proofs.Command.Printing
import RelTrace.Proofs.Command.Endings
import RelTrace.Proofs.Number.Rounding
import RelTrace.Proofs.Number.Decimals
import RelTrace.Proofs.Number.Shortest
import RelTrace.Proofs.Number.Numerals
import RelTrace.Proofs.Json.Scanning
import RelTrace.Proofs.Json.Scaling
import RelTrace.Proofs.Json.Accuracy
import RelTrace.Proofs.Value.Integers
import RelTrace.Proofs.Number.ReadBack
import RelTrace.Proofs.Query.Decomposition
import RelTrace.Proofs.Folder
import RelTrace.Proofs.Database.Exports
import RelTrace.Proofs.Database.Schema
import RelTrace.Proofs.Query.Outline
import RelTrace.Proofs.Query.Bytes
import RelTrace.Proofs.Trace.Notes
import RelTrace.Proofs.Trace.Marking
import RelTrace.Proofs.Database.FileName
import RelTrace.Proofs.Text.LowerCase
import RelTrace.Proofs.Query.Passes
import RelTrace.Proofs.Query.Descent
import RelTrace.Proofs.Catalog.Indexed
import RelTrace.Proofs.Trace.Appending
import RelTrace.Proofs.Trace.Json
import RelTrace.Proofs.Trace.Labels
import RelTrace.Proofs.Command.Blocks
