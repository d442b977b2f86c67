import Outline.Adapter
import Outline.Adapter.Builtin
import Outline.Adapter.Java
import Outline.Adapter.Python
import Outline.Batch
import Outline.Bounds
import Outline.Command
import Outline.CommandLine
import Outline.CommandLine.Help
import Outline.CommandLine.Scan
import Outline.Config
import Outline.Discovery
import Outline.Entity
import Outline.Extraction
import Outline.Extraction.Script
import Outline.Extraction.Walk
import Outline.FileSystem
import Outline.FileTree
import Outline.Hash.Blake3
import Outline.Ignore
import Outline.Ignore.Glob
import Outline.Ignore.Level
import Outline.Json.Decode
import Outline.Json.Document
import Outline.Json.Numeral
import Outline.Json.Value
import Outline.Language
import Outline.Location
import Outline.Main
import Outline.NodeDump
import Outline.Path
import Outline.Proofs.Accounting
import Outline.Proofs.AdapterChoice
import Outline.Proofs.ConfigFiles
import Outline.Proofs.Constructors
import Outline.Proofs.Discovery
import Outline.Proofs.DumpIndependence
import Outline.Proofs.DumpOutput
import Outline.Proofs.Faults
import Outline.Proofs.FileWrites
import Outline.Proofs.Ignore.Excludes
import Outline.Proofs.Ignore.Globs
import Outline.Proofs.Json.Layout
import Outline.Proofs.Json.RoundTrip
import Outline.Proofs.Json.Scalars
import Outline.Proofs.Lines
import Outline.Proofs.MandatoryParts
import Outline.Proofs.Nesting
import Outline.Proofs.Numbering
import Outline.Proofs.Outcomes
import Outline.Proofs.ParentChains
import Outline.Proofs.Paths
import Outline.Proofs.Positions
import Outline.Proofs.Preorder
import Outline.Proofs.Printing
import Outline.Proofs.Queries
import Outline.Proofs.Renaming
import Outline.Proofs.RowOrder
import Outline.Proofs.Schedule
import Outline.Proofs.Script.Balance
import Outline.Proofs.Script.Guards
import Outline.Proofs.Script.Moves
import Outline.Proofs.Script.Simulation
import Outline.Proofs.Toml.Documents
import Outline.Proofs.Toml.Strings
import Outline.Proofs.Tree
import Outline.Proofs.Usage
import Outline.Proofs.Walk.Inventory
import Outline.Proofs.Walk.Ownership
import Outline.Proofs.Walk.Recursion
import Outline.Proofs.Walk.Scopes
import Outline.Proofs.Walk.Visits
import Outline.Proofs.Writers
import Outline.Report
import Outline.Scope
import Outline.Scope.Script
import Outline.Shape
import Outline.Source
import Outline.SourceFile
import Outline.SourceFile.Json
import Outline.Style
import Outline.Table
import Outline.Text.Binary64
import Outline.Text.Blank
import Outline.Text.ColumnRanges
import Outline.Text.Columns
import Outline.Text.Digits
import Outline.Text.Quoted
import Outline.Text.UnprintableRanges
import Outline.Toml.Document
import Outline.Toml.Number
import Outline.Toml.Text
import Outline.Toml.Value
import Outline.Tree
import Outline.Tree.Fault
import Outline.Tree.Json
import Outline.Tree.Preorder
