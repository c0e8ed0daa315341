import ScopeLexer.Bundled.Puppet
import ScopeLexer.CommandLine
import ScopeLexer.CommandLine.Arguments
import ScopeLexer.Decimal.Index
import ScopeLexer.Decimal.Shortest
import ScopeLexer.Definition
import ScopeLexer.Definition.Compiled
import ScopeLexer.Definition.Format
import ScopeLexer.Definition.Json
import ScopeLexer.Definition.Location
import ScopeLexer.Definition.Yaml
import ScopeLexer.Files
import ScopeLexer.Files.Disk
import ScopeLexer.Files.Path
import ScopeLexer.Grammar
import ScopeLexer.Grammar.Candidates
import ScopeLexer.Grammar.OfDefinition
import ScopeLexer.Grammar.Reference
import ScopeLexer.Grammar.Report
import ScopeLexer.Json.Decoder
import ScopeLexer.Json.Fault
import ScopeLexer.Json.Scanner
import ScopeLexer.Json.Writer
import ScopeLexer.Listing
import ScopeLexer.Loading
import ScopeLexer.Main
import ScopeLexer.Proofs.CommandLine.Compiling
import ScopeLexer.Proofs.Definition.Canonical
import ScopeLexer.Proofs.Definition.Compiled
import ScopeLexer.Proofs.Definition.Ordered
import ScopeLexer.Proofs.Definition.Storable
import ScopeLexer.Proofs.Definition.Written
import ScopeLexer.Proofs.Document.Anchors
import ScopeLexer.Proofs.Document.Brackets
import ScopeLexer.Proofs.Document.Course
import ScopeLexer.Proofs.Document.Lines
import ScopeLexer.Proofs.Document.SkippedLines
import ScopeLexer.Proofs.Files.Extensions
import ScopeLexer.Proofs.Files.Selection
import ScopeLexer.Proofs.Files.Writing
import ScopeLexer.Proofs.Grammar.Acceptance
import ScopeLexer.Proofs.Grammar.Blocks
import ScopeLexer.Proofs.Grammar.Compilation
import ScopeLexer.Proofs.Grammar.Expansion
import ScopeLexer.Proofs.Grammar.Forest
import ScopeLexer.Proofs.Grammar.Groups
import ScopeLexer.Proofs.Grammar.Listing
import ScopeLexer.Proofs.Grammar.Locations
import ScopeLexer.Proofs.Grammar.References
import ScopeLexer.Proofs.Grammar.Scoping
import ScopeLexer.Proofs.Grammar.Warnings
import ScopeLexer.Proofs.Json.Decoder
import ScopeLexer.Proofs.Line.Faults
import ScopeLexer.Proofs.Line.Reachable
import ScopeLexer.Proofs.Line.Reconstruction
import ScopeLexer.Proofs.Line.Runs
import ScopeLexer.Proofs.Outcome
import ScopeLexer.Proofs.Regex.Apart
import ScopeLexer.Proofs.Regex.Atoms
import ScopeLexer.Proofs.Regex.Brackets
import ScopeLexer.Proofs.Regex.Contract
import ScopeLexer.Proofs.Regex.Escaped
import ScopeLexer.Proofs.Regex.Escapes
import ScopeLexer.Proofs.Regex.Names
import ScopeLexer.Proofs.Regex.Onward
import ScopeLexer.Proofs.Regex.Pieces
import ScopeLexer.Proofs.Regex.Recursion
import ScopeLexer.Proofs.Regex.References
import ScopeLexer.Proofs.Regex.Rows
import ScopeLexer.Proofs.Regex.Substituted
import ScopeLexer.Proofs.Regex.Switched
import ScopeLexer.Proofs.Regex.Variants
import ScopeLexer.Proofs.Regex.Walk
import ScopeLexer.Proofs.Regex.Without
import ScopeLexer.Proofs.Scan.Above
import ScopeLexer.Proofs.Scan.Captures
import ScopeLexer.Proofs.Scan.Faults
import ScopeLexer.Proofs.Scan.Overlap
import ScopeLexer.Proofs.Scan.Search
import ScopeLexer.Proofs.Scan.Selection
import ScopeLexer.Proofs.Scan.Shelter
import ScopeLexer.Proofs.Scan.Spans
import ScopeLexer.Proofs.Scan.Step
import ScopeLexer.Proofs.Scan.Termination
import ScopeLexer.Proofs.Scope.Templates
import ScopeLexer.Proofs.State.Equivalence
import ScopeLexer.Proofs.State.Innermost
import ScopeLexer.Proofs.State.WellFormed
import ScopeLexer.Proofs.Text.Boundary
import ScopeLexer.Proofs.Text.Utf8
import ScopeLexer.Proofs.Token.Runs
import ScopeLexer.Proofs.Token.Tiling
import ScopeLexer.Proofs.Yaml.Decoder
import ScopeLexer.Regex.Bracket
import ScopeLexer.Regex.Caseless
import ScopeLexer.Regex.CharClass
import ScopeLexer.Regex.Escape
import ScopeLexer.Regex.Expression
import ScopeLexer.Regex.Fault
import ScopeLexer.Regex.Matcher
import ScopeLexer.Regex.Node
import ScopeLexer.Regex.Options
import ScopeLexer.Regex.Program
import ScopeLexer.Regex.Reader
import ScopeLexer.Regex.Source
import ScopeLexer.Scan
import ScopeLexer.Scope.Name
import ScopeLexer.Scope.Stack
import ScopeLexer.State
import ScopeLexer.Text
import ScopeLexer.Text.Quoted
import ScopeLexer.Text.Utf8
import ScopeLexer.Token
import ScopeLexer.Tokenizer
import ScopeLexer.Unicode.CaseFolding
import ScopeLexer.Unicode.CaseMapping
import ScopeLexer.Unicode.Category
import ScopeLexer.Unicode.Property
import ScopeLexer.Unicode.RangeTable
import ScopeLexer.Unicode.Script
import ScopeLexer.Unicode.Segmentation
import ScopeLexer.Unicode.WhiteSpace
import ScopeLexer.Yaml.Cursor
import ScopeLexer.Yaml.Decoder
import ScopeLexer.Yaml.Fault
import ScopeLexer.Yaml.Node
import ScopeLexer.Yaml.Plain
import ScopeLexer.Yaml.Scalar
import ScopeLexer.Yaml.Token
