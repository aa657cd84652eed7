import TurtleGrammar.Angle
import TurtleGrammar.Binary64.Arithmetic
import TurtleGrammar.Binary64.Basic
import TurtleGrammar.Binary64.Trigonometry
import TurtleGrammar.Bounds
import TurtleGrammar.Command
import TurtleGrammar.CommandLine.Arguments
import TurtleGrammar.CommandLine.Help
import TurtleGrammar.CommandLine.Invocation
import TurtleGrammar.Config
import TurtleGrammar.Csv
import TurtleGrammar.CyclicNumeral
import TurtleGrammar.Decimal.Basic
import TurtleGrammar.Decimal.Fixed
import TurtleGrammar.Decimal.Layout
import TurtleGrammar.Decimal.Literal
import TurtleGrammar.Decimal.Shortest
import TurtleGrammar.Disk
import TurtleGrammar.Distinct
import TurtleGrammar.Drawing
import TurtleGrammar.Excerpt
import TurtleGrammar.Fault
import TurtleGrammar.Grammar
import TurtleGrammar.Json.Basic
import TurtleGrammar.Json.Reader
import TurtleGrammar.Main
import TurtleGrammar.Numeral
import TurtleGrammar.Rounding
import TurtleGrammar.Segment
import TurtleGrammar.Session
import TurtleGrammar.Style
import TurtleGrammar.Svg
import TurtleGrammar.Table
import TurtleGrammar.Text.DecimalDigit
import TurtleGrammar.Text.Digits
import TurtleGrammar.Text.Printable
import TurtleGrammar.Text.Quoted
import TurtleGrammar.Text.Utf8
import TurtleGrammar.Traced
import TurtleGrammar.Turtle
import TurtleGrammar.Proofs.Detached
import TurtleGrammar.Proofs.Drawn
import TurtleGrammar.Proofs.Excerpt
import TurtleGrammar.Proofs.Branch
import TurtleGrammar.Proofs.Heading
import TurtleGrammar.Proofs.Outcome
import TurtleGrammar.Proofs.Particulars
import TurtleGrammar.Proofs.Rebuild
import TurtleGrammar.Proofs.Replacement
import TurtleGrammar.Proofs.Validate
import TurtleGrammar.Proofs.Derivation
import TurtleGrammar.Proofs.Population
import TurtleGrammar.Proofs.WellFormed
import TurtleGrammar.Proofs.LongestNumeral
import TurtleGrammar.Proofs.Token
import TurtleGrammar.Proofs.Equality
import TurtleGrammar.Proofs.Connected
import TurtleGrammar.Proofs.Mirror
import TurtleGrammar.Proofs.Underway
import TurtleGrammar.Proofs.OpenBranches
import TurtleGrammar.Proofs.HeadingRange
import TurtleGrammar.Proofs.Annotation
import TurtleGrammar.Proofs.Refusal
import TurtleGrammar.Proofs.Schema
import TurtleGrammar.Proofs.Written
import TurtleGrammar.Proofs.Accepted
import TurtleGrammar.Proofs.Disk
import TurtleGrammar.Proofs.Scan
import TurtleGrammar.Proofs.Nesting
import TurtleGrammar.Proofs.Moderate
import TurtleGrammar.Proofs.Ending
import TurtleGrammar.Proofs.Untouched
import TurtleGrammar.Proofs.Coordinate
import TurtleGrammar.Proofs.Markup
import TurtleGrammar.Proofs.Page
import TurtleGrammar.Proofs.Rendered
import TurtleGrammar.Proofs.ViewBox
import TurtleGrammar.Proofs.Elements
import TurtleGrammar.Proofs.Entity
import TurtleGrammar.Proofs.Attribute
import TurtleGrammar.Proofs.Range
import TurtleGrammar.Proofs.Coverage
import TurtleGrammar.Proofs.FirstOccurrence
import TurtleGrammar.Proofs.ReadBack
import TurtleGrammar.Proofs.Rows
import TurtleGrammar.Proofs.Requirement
import TurtleGrammar.Proofs.Documented
import TurtleGrammar.Proofs.NormalForm
import TurtleGrammar.Proofs.BoundingBox
import TurtleGrammar.Proofs.Columns
import TurtleGrammar.Proofs.Palette
import TurtleGrammar.Proofs.CanonicalDecimal
import TurtleGrammar.Proofs.Nearest
import TurtleGrammar.Proofs.NumeralGrammar
import TurtleGrammar.Proofs.CutPosition
import TurtleGrammar.Proofs.Title
