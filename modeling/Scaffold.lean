import Scaffold.Artifact
import Scaffold.Calendar
import Scaffold.Choice
import Scaffold.CommandLine.Flag
import Scaffold.CommandLine.Program
import Scaffold.CommandLine.Reader
import Scaffold.CommandLine.Run
import Scaffold.CommandLine.Usage
import Scaffold.Decimal.Binary64
import Scaffold.Decimal.Limit
import Scaffold.Decimal.Numeral
import Scaffold.Decimal.Shortest
import Scaffold.Digest
import Scaffold.Disk.Basic
import Scaffold.Disk.Change
import Scaffold.Disk.Path
import Scaffold.Formatter
import Scaffold.Formatter.Command
import Scaffold.Generation.Fault
import Scaffold.Generation.Generate
import Scaffold.Generation.Plan
import Scaffold.Generation.Run
import Scaffold.Json.Reader
import Scaffold.Json.Writer
import Scaffold.Layout
import Scaffold.Log
import Scaffold.Main
import Scaffold.Naming.CaseStyle
import Scaffold.Naming.Literal
import Scaffold.Naming.Policy
import Scaffold.Naming.Words
import Scaffold.Output
import Scaffold.Projection
import Scaffold.Proofs.Disk.Path
import Scaffold.Proofs.Text.Break
import Scaffold.Report
import Scaffold.Schema.Cardinality
import Scaffold.Schema.Checked
import Scaffold.Schema.Document
import Scaffold.Schema.Entity
import Scaffold.Schema.Fault
import Scaffold.Schema.File
import Scaffold.Schema.Options
import Scaffold.Schema.Reader
import Scaffold.Shell.Builtin
import Scaffold.Shell.Machine
import Scaffold.Shell.Run
import Scaffold.Shell.Script
import Scaffold.Shell.State
import Scaffold.Shell.Word
import Scaffold.Source.Controller
import Scaffold.Source.Dto
import Scaffold.Source.Imports
import Scaffold.Source.Lines
import Scaffold.Source.Model
import Scaffold.Source.Module
import Scaffold.Source.Service
import Scaffold.Source.Template
import Scaffold.Text.Basic
import Scaffold.Text.LetterCase
import Scaffold.Text.Lines
import Scaffold.Text.Printable
import Scaffold.Text.Utf8
import Scaffold.Value
import Scaffold.Value.Display
import Scaffold.Value.Mapping
import Scaffold.Yaml.Cursor
import Scaffold.Yaml.Document
import Scaffold.Yaml.Graph
import Scaffold.Yaml.Graph.Merge
import Scaffold.Yaml.Graph.Reader
import Scaffold.Yaml.Scalar
import Scaffold.Yaml.Stamp
import Scaffold.Yaml.Tag
import Scaffold.Yaml.Token
import Scaffold.Yaml.Token.Label
import Scaffold.Yaml.Token.Lexer
import Scaffold.Yaml.Token.Scalar
import Scaffold.Proofs.Disk.Directories
import Scaffold.Proofs.Disk.Growth
import Scaffold.Proofs.Disk.Writing
import Scaffold.Proofs.Text.Letters
import Scaffold.Proofs.Naming.Words
import Scaffold.Proofs.Naming.Spelled
import Scaffold.Proofs.Naming.Converted
import Scaffold.Proofs.Naming.Reconverted
import Scaffold.Proofs.Schema.Accepted
import Scaffold.Proofs.Generation.Files
import Scaffold.Proofs.Generation.Writes
import Scaffold.Proofs.Json.Writer
import Scaffold.Proofs.Json.Numerals
import Scaffold.Proofs.Json.Pieces
import Scaffold.Proofs.Naming.Literal
import Scaffold.Proofs.Generation.Texts
import Scaffold.Proofs.Generation.Places
import Scaffold.Proofs.Generation.Sequence
import Scaffold.Proofs.Source.Statement
import Scaffold.Proofs.Source.Imports
import Scaffold.Proofs.Source.Finished
import Scaffold.Proofs.Source.Files
import Scaffold.Proofs.Generation.References
import Scaffold.Proofs.Generation.Related
import Scaffold.Proofs.Generation.Overwriting
import Scaffold.Proofs.Results
import Scaffold.Proofs.Disk.Walking
import Scaffold.Proofs.Disk.Resolving
import Scaffold.Proofs.Layout
import Scaffold.Proofs.Naming.Requests
import Scaffold.Proofs.Schema.Conventions
import Scaffold.Proofs.Generation.Guarding
import Scaffold.Proofs.Generation.Formatting
import Scaffold.Proofs.Generation.Containment
import Scaffold.Proofs.Generation.Endings
import Scaffold.Proofs.Json.Values
import Scaffold.Proofs.Schema.Plain
import Scaffold.Proofs.Generation.Rendering
import Scaffold.Proofs.Disk.Order
import Scaffold.Proofs.Generation.Independence
import Scaffold.Proofs.Schema.Obstacle
import Scaffold.Proofs.Generation.Escaping
import Scaffold.Proofs.Generation.Unforeseen
import Scaffold.Proofs.CommandLine.Status
import Scaffold.Proofs.Source.Members
import Scaffold.Proofs.Generation.Agreement
import Scaffold.Proofs.Disk.Frame
import Scaffold.Proofs.Disk.Convergence
import Scaffold.Proofs.Generation.Repetition
import Scaffold.Proofs.Schema.Fields
import Scaffold.Proofs.Schema.Options
import Scaffold.Proofs.Schema.Overriding
import Scaffold.Proofs.Schema.Sound
import Scaffold.Proofs.Schema.Spelling
import Scaffold.Proofs.Schema.Respelling
import Scaffold.Proofs.Text.Lines
import Scaffold.Proofs.Source.Pruning
import Scaffold.Proofs.Generation.Steps
import Scaffold.Proofs.Source.Decorators
import Scaffold.Proofs.Source.Applied
import Scaffold.Proofs.Generation.Decorators
import Scaffold.Proofs.Projection
import Scaffold.Proofs.Source.Joining
import Scaffold.Proofs.Source.Columns
import Scaffold.Proofs.Source.Nesting
import Scaffold.Proofs.Text.Nesting
import Scaffold.Proofs.Schema.Texts
import Scaffold.Proofs.Json.Nesting
import Scaffold.Proofs.Generation.Nesting
import Scaffold.Proofs.Generation.Unmapped
import Scaffold.Proofs.Disk.Specifier
import Scaffold.Proofs.Naming.Fronted
import Scaffold.Proofs.Source.Methods
import Scaffold.Proofs.Source.Kept
import Scaffold.Proofs.Generation.Methods
