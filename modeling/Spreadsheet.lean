import Spreadsheet.Address
import Spreadsheet.CommandLine
import Spreadsheet.Criterion
import Spreadsheet.Dependency
import Spreadsheet.Diagnostic
import Spreadsheet.Engine
import Spreadsheet.ErrorValue
import Spreadsheet.Eval
import Spreadsheet.Expr.Basic
import Spreadsheet.Expr.Parser
import Spreadsheet.Function.Arithmetic
import Spreadsheet.Function.Basic
import Spreadsheet.Function.Bits
import Spreadsheet.Function.Combinatorics
import Spreadsheet.Function.Complex
import Spreadsheet.Function.Conditional
import Spreadsheet.Function.Information
import Spreadsheet.Function.Logic
import Spreadsheet.Function.Lookup
import Spreadsheet.Function.Matrix
import Spreadsheet.Function.Numeral
import Spreadsheet.Function.Registry
import Spreadsheet.Function.Rounding
import Spreadsheet.Function.Statistics
import Spreadsheet.Function.Step
import Spreadsheet.Function.Text
import Spreadsheet.Function.Trigonometry
import Spreadsheet.Grid
import Spreadsheet.Json.Basic
import Spreadsheet.Json.Parser
import Spreadsheet.Main
import Spreadsheet.Multimap
import Spreadsheet.Number.Combinatorics
import Spreadsheet.Number.Complement
import Spreadsheet.Number.Complex
import Spreadsheet.Number.ComplexText
import Spreadsheet.Number.ErrorFunction
import Spreadsheet.Number.Integral
import Spreadsheet.Number.Matrix
import Spreadsheet.Number.Multiple
import Spreadsheet.Number.Radix
import Spreadsheet.Number.Roman
import Spreadsheet.Number.Scaled
import Spreadsheet.Number.Shortest
import Spreadsheet.Number.Text
import Spreadsheet.Pattern
import Spreadsheet.Proofs.Dependency.Edges
import Spreadsheet.Proofs.Dependency.Multimap
import Spreadsheet.Proofs.Dependency.Readers
import Spreadsheet.Proofs.Evaluation.Asked
import Spreadsheet.Proofs.Evaluation.Covered
import Spreadsheet.Proofs.Evaluation.Plain
import Spreadsheet.Proofs.Evaluation.Reads
import Spreadsheet.Proofs.Grammar.Basic
import Spreadsheet.Proofs.Grammar.Completeness
import Spreadsheet.Proofs.Grammar.Levels
import Spreadsheet.Proofs.Grammar.Neighbours
import Spreadsheet.Proofs.Grammar.Soundness
import Spreadsheet.Proofs.Lexing.Characters
import Spreadsheet.Proofs.Outcome
import Spreadsheet.Proofs.References
import Spreadsheet.Proofs.Sharing.Follow
import Spreadsheet.Proofs.Sharing.Moved
import Spreadsheet.Query
import Spreadsheet.Range
import Spreadsheet.Reference
import Spreadsheet.SharedFormula
import Spreadsheet.Token.Basic
import Spreadsheet.Token.Lexer
import Spreadsheet.Unicode.Case
import Spreadsheet.Unicode.Letter
import Spreadsheet.Unicode.Property
import Spreadsheet.Value.Basic
import Spreadsheet.Value.Operators
import Spreadsheet.Value.Order
import Spreadsheet.Proofs.Lexing.Addresses
import Spreadsheet.Proofs.Lexing.Numerals
import Spreadsheet.Proofs.Lexing.Reads
import Spreadsheet.Proofs.Lexing.Lexes
import Spreadsheet.Proofs.Sharing.Kept
import Spreadsheet.Proofs.Lexing.Areas
import Spreadsheet.Proofs.Sharing.Tokens
import Spreadsheet.Proofs.Sharing.Lexing
import Spreadsheet.Proofs.Sharing.Parsing
import Spreadsheet.Proofs.Evaluation.Failures
import Spreadsheet.Proofs.Lexing.Layout
import Spreadsheet.Proofs.Grammar.Constants
import Spreadsheet.Proofs.Evaluation.Rectangular
import Spreadsheet.Proofs.Evaluation.Elements
import Spreadsheet.Proofs.Evaluation.Arrays
import Spreadsheet.Proofs.Sharing.Pieces
import Spreadsheet.Proofs.Sharing.Composition
import Spreadsheet.Proofs.Evaluation.Floats
import Spreadsheet.Proofs.Evaluation.Finite
import Spreadsheet.Proofs.Evaluation.Closed
import Spreadsheet.Proofs.Sharing.Meaning
import Spreadsheet.Proofs.Evaluation.Results
import Spreadsheet.Proofs.Evaluation.Runs
import Spreadsheet.Proofs.Evaluation.Errors
import Spreadsheet.Proofs.Bare
import Spreadsheet.Proofs.Evaluation.Bare
import Spreadsheet.Proofs.Evaluation.Zeros
import Spreadsheet.Proofs.Evaluation.Collect
import Spreadsheet.Proofs.Evaluation.Expanding
import Spreadsheet.Proofs.Evaluation.OneCell
import Spreadsheet.Proofs.Evaluation.Pointwise
import Spreadsheet.Proofs.Comparing.Numbers
import Spreadsheet.Proofs.Comparing.Values
import Spreadsheet.Proofs.Comparing.Criteria
import Spreadsheet.Proofs.Writing.Listed
import Spreadsheet.Proofs.Writing.ReadBack
import Spreadsheet.Proofs.Calls.Evaluated
import Spreadsheet.Proofs.Calls.Formula
import Spreadsheet.Proofs.Calls.Session
import Spreadsheet.Proofs.Faults.Tracking
import Spreadsheet.Proofs.Faults.Levels
import Spreadsheet.Proofs.Faults.Places
import Spreadsheet.Proofs.Faults.Prefixes
import Spreadsheet.Proofs.Wildcards.Splitting
import Spreadsheet.Proofs.Comparing.Naturals
import Spreadsheet.Proofs.Wildcards.Matching
import Spreadsheet.Proofs.Comparing.Complements
import Spreadsheet.Proofs.Ranges
import Spreadsheet.Proofs.Grids
import Spreadsheet.Proofs.Writing.Addresses
import Spreadsheet.Proofs.Spacing.Locality
import Spreadsheet.Proofs.Spacing.Gaps
import Spreadsheet.Proofs.Spacing.Parsing
import Spreadsheet.Proofs.Spacing.Texts
import Spreadsheet.Proofs.Evaluation.Multiplying
import Spreadsheet.Proofs.Lookups.Arguments
import Spreadsheet.Proofs.Evaluation.Tables
import Spreadsheet.Proofs.Lookups.Indices
import Spreadsheet.Proofs.Lookups.Addressing
import Spreadsheet.Proofs.Matrices.Products
import Spreadsheet.Proofs.Lookups.Positions
import Spreadsheet.Proofs.Conditional
import Spreadsheet.Proofs.Numerals.Wholes
import Spreadsheet.Proofs.Texts.Pieces
import Spreadsheet.Proofs.Texts.Starts
import Spreadsheet.Proofs.Numerals.Digits
import Spreadsheet.Proofs.Numerals.Complement
import Spreadsheet.Proofs.Numerals.Conversions
import Spreadsheet.Proofs.Numerals.Base
import Spreadsheet.Proofs.Numerals.Roman
import Spreadsheet.Proofs.Numerals.Signs
import Spreadsheet.Proofs.Numerals.Texts
import Spreadsheet.Proofs.Writing.Decimals
import Spreadsheet.Proofs.Writing.Arrays
import Spreadsheet.Proofs.Numerals.Nearest
import Spreadsheet.Proofs.Numerals.Reading
import Spreadsheet.Proofs.Numerals.Shortest
import Spreadsheet.Proofs.Writing.Complex
import Spreadsheet.Proofs.Calls.Complex
import Spreadsheet.Proofs.Floats.Rounding
import Spreadsheet.Proofs.Floats.Operations
import Spreadsheet.Proofs.Floats.Neighbours
import Spreadsheet.Proofs.Floats.Order
import Spreadsheet.Proofs.Floats.WholeParts
import Spreadsheet.Proofs.Floats.Powers
import Spreadsheet.Proofs.Arithmetic.Calls
import Spreadsheet.Proofs.Arithmetic.Multiples
import Spreadsheet.Proofs.Arithmetic.Divisors
import Spreadsheet.Proofs.Arithmetic.Binomials
import Spreadsheet.Proofs.Places.Signs
import Spreadsheet.Proofs.Places.Order
import Spreadsheet.Proofs.Places.Calls
import Spreadsheet.Proofs.Places.Readings
import Spreadsheet.Proofs.Places.Vanishing
