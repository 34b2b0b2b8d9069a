import Z80Atlas.Address.Basic
import Z80Atlas.Address.Queue
import Z80Atlas.Address.Set
import Z80Atlas.Address.Table
import Z80Atlas.Analysis.Discovery
import Z80Atlas.Analysis.Entry
import Z80Atlas.Analysis.FlowThrough
import Z80Atlas.Analysis.Locality
import Z80Atlas.Analysis.Naming
import Z80Atlas.Analysis.Ownership
import Z80Atlas.Analysis.Relocation
import Z80Atlas.Analysis.Statistics
import Z80Atlas.Analysis.Subroutine
import Z80Atlas.Analysis.Walk
import Z80Atlas.Command.Folder
import Z80Atlas.Command.Options
import Z80Atlas.Command.Run
import Z80Atlas.Command.Script
import Z80Atlas.Comment.Basic
import Z80Atlas.Comment.File
import Z80Atlas.Config
import Z80Atlas.Diagnostic.Fault
import Z80Atlas.Diagnostic.Warning
import Z80Atlas.Input.AddressText
import Z80Atlas.Input.Format
import Z80Atlas.Input.Snapshot
import Z80Atlas.Input.Trace
import Z80Atlas.Machine.Instruction
import Z80Atlas.Machine.Kind
import Z80Atlas.Machine.Memory
import Z80Atlas.Machine.Z80.Decoder
import Z80Atlas.Machine.Z80.Opcode
import Z80Atlas.Machine.Z80.Page
import Z80Atlas.Main
import Z80Atlas.Report.Annotation
import Z80Atlas.Report.CallGraph
import Z80Atlas.Report.Conversion
import Z80Atlas.Report.Dot
import Z80Atlas.Report.FlowChart
import Z80Atlas.Report.Listing
import Z80Atlas.Report.Operand
import Z80Atlas.Report.Statement
import Z80Atlas.Session.Analysis
import Z80Atlas.Session.Basic
import Z80Atlas.Symbol.Label
import Z80Atlas.Symbol.Store
import Z80Atlas.Text.Alphanumeric
import Z80Atlas.Text.Blank
import Z80Atlas.Text.CodePoint
import Z80Atlas.Text.Lines
import Z80Atlas.Text.LowerCase
import Z80Atlas.Text.Numeral
import Z80Atlas.Text.Padding
import Z80Atlas.Text.Replace
import Z80Atlas.Text.Terminal
import Z80Atlas.Text.Utf8
import Z80Atlas.Text.Width
import Z80Atlas.Proofs.Discovery.Run
import Z80Atlas.Proofs.Discovery.Tiling
import Z80Atlas.Proofs.Discovery.Reachability
import Z80Atlas.Proofs.Discovery.CrossReference
import Z80Atlas.Proofs.Discovery.OrderIndependence
import Z80Atlas.Proofs.Analysis.Walk
import Z80Atlas.Proofs.Symbol.Live
import Z80Atlas.Proofs.Analysis.Ownership
import Z80Atlas.Proofs.Machine.Z80
import Z80Atlas.Proofs.Session.Revision
import Z80Atlas.Proofs.Session.Labelling
import Z80Atlas.Proofs.Session.Preparation
import Z80Atlas.Proofs.Analysis.Relocation
import Z80Atlas.Proofs.Analysis.Passes
import Z80Atlas.Proofs.Analysis.CallList
import Z80Atlas.Proofs.Analysis.Location
import Z80Atlas.Proofs.Analysis.Calls
import Z80Atlas.Proofs.Report.Coverage
import Z80Atlas.Proofs.Report.Symbols
import Z80Atlas.Proofs.Text.Numeral
import Z80Atlas.Proofs.Text.Spelling
import Z80Atlas.Proofs.Analysis.Naming
import Z80Atlas.Proofs.Analysis.Merging
import Z80Atlas.Proofs.Analysis.Origin
import Z80Atlas.Proofs.Analysis.Telling
import Z80Atlas.Proofs.Analysis.Classification
import Z80Atlas.Proofs.Analysis.NamedLabels
import Z80Atlas.Proofs.Analysis.GivenNames
import Z80Atlas.Proofs.Analysis.Scheme
import Z80Atlas.Proofs.Analysis.UniqueNames
import Z80Atlas.Proofs.Analysis.Recursion
import Z80Atlas.Proofs.Analysis.Pass
import Z80Atlas.Proofs.Session.Soundness
import Z80Atlas.Proofs.Session.Operation
import Z80Atlas.Proofs.Analysis.Returning
import Z80Atlas.Proofs.Analysis.Promotion
import Z80Atlas.Proofs.Analysis.FixedLabels
import Z80Atlas.Proofs.Analysis.Provenance
import Z80Atlas.Proofs.Analysis.Locality
import Z80Atlas.Proofs.Analysis.Covering
import Z80Atlas.Proofs.Analysis.Statistics
import Z80Atlas.Proofs.Analysis.FlowThrough
import Z80Atlas.Proofs.Machine.Coherence
import Z80Atlas.Proofs.Machine.Footprint
import Z80Atlas.Proofs.Analysis.Interrupts
import Z80Atlas.Proofs.Command.Files
import Z80Atlas.Proofs.Comment.AddressLine
import Z80Atlas.Proofs.Machine.Indexing
import Z80Atlas.Proofs.Comment.Composition
import Z80Atlas.Proofs.Comment.Writing
import Z80Atlas.Proofs.Input.AddressText
import Z80Atlas.Proofs.Report.CallGraph
import Z80Atlas.Proofs.Session.Readiness
import Z80Atlas.Proofs.Report.FlowChart
import Z80Atlas.Proofs.Session.History
import Z80Atlas.Proofs.Session.Reset
import Z80Atlas.Proofs.Report.Escaping
import Z80Atlas.Proofs.Discovery.Draining
import Z80Atlas.Proofs.Analysis.Block
