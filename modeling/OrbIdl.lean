import OrbIdl.CommandLine.Argument
import OrbIdl.CommandLine.Command
import OrbIdl.CommandLine.FileFault
import OrbIdl.CommandLine.FileTree
import OrbIdl.CommandLine.Program
import OrbIdl.Compile
import OrbIdl.Cpp.Comment
import OrbIdl.Cpp.Declarator
import OrbIdl.Cpp.Enum.Code
import OrbIdl.Cpp.Enum.Definition
import OrbIdl.Cpp.Enum.Function
import OrbIdl.Cpp.Enum.Table
import OrbIdl.Cpp.FilePair
import OrbIdl.Cpp.Frame
import OrbIdl.Cpp.Generator
import OrbIdl.Cpp.Literal
import OrbIdl.Cpp.MethodCode
import OrbIdl.Cpp.Piece
import OrbIdl.Cpp.Statement
import OrbIdl.DataType
import OrbIdl.Diagnostic
import OrbIdl.Emission.Call
import OrbIdl.Emission.Plan
import OrbIdl.Logged
import OrbIdl.Main
import OrbIdl.Model.Constant
import OrbIdl.Model.Document
import OrbIdl.Model.Enumeration
import OrbIdl.Model.Fault
import OrbIdl.Model.Method
import OrbIdl.Model.Param
import OrbIdl.Model.Structure
import OrbIdl.Model.TextColumn
import OrbIdl.Model.TypeDecl
import OrbIdl.Options
import OrbIdl.Output.Path
import OrbIdl.Output.Sink
import OrbIdl.Proofs.Conformance.Defect
import OrbIdl.Proofs.Conformance.Listing
import OrbIdl.Proofs.Conformance.Tree
import OrbIdl.Proofs.Conformance.Validation
import OrbIdl.Proofs.Defaults.Agreement
import OrbIdl.Proofs.Defaults.Frame
import OrbIdl.Proofs.Emission.DocumentOrder
import OrbIdl.Proofs.Emission.Layout
import OrbIdl.Proofs.Emission.Lifecycle
import OrbIdl.Proofs.Emission.Run
import OrbIdl.Proofs.Enumeration.Numbers
import OrbIdl.Proofs.Enumeration.Options
import OrbIdl.Proofs.Enumeration.Table
import OrbIdl.Proofs.Generation.Collision
import OrbIdl.Proofs.Generation.Handover
import OrbIdl.Proofs.Generation.History
import OrbIdl.Proofs.Generation.Independence
import OrbIdl.Proofs.Generation.Pairs
import OrbIdl.Proofs.Generation.Requested
import OrbIdl.Proofs.Lexical.Comments
import OrbIdl.Proofs.Lexical.Lines
import OrbIdl.Proofs.Lexical.Strings
import OrbIdl.Proofs.Location.Bounds
import OrbIdl.Proofs.Location.Diagnostics
import OrbIdl.Proofs.Location.Faults
import OrbIdl.Proofs.Location.Merge
import OrbIdl.Proofs.Location.Nesting
import OrbIdl.Proofs.Location.References
import OrbIdl.Proofs.Location.Sequence
import OrbIdl.Proofs.Location.Tree
import OrbIdl.Proofs.Location.Validation
import OrbIdl.Proofs.Matching.Closure
import OrbIdl.Proofs.Matching.Language
import OrbIdl.Proofs.Matching.Rendering
import OrbIdl.Proofs.Matching.Words
import OrbIdl.Proofs.Matching.Worklist
import OrbIdl.Proofs.Output.Once
import OrbIdl.Proofs.Reading.Acceptance
import OrbIdl.Proofs.Reading.DocTypes
import OrbIdl.Proofs.Reading.Documents
import OrbIdl.Proofs.Reading.Enumerations
import OrbIdl.Proofs.Reading.Outline
import OrbIdl.Proofs.Reading.Parameters
import OrbIdl.Proofs.Reading.Sections
import OrbIdl.Proofs.Report.Boundaries
import OrbIdl.Proofs.Report.Columns
import OrbIdl.Proofs.Report.Headings
import OrbIdl.Proofs.Report.Lines
import OrbIdl.Proofs.Report.Sections
import OrbIdl.Proofs.Report.Severity
import OrbIdl.Proofs.Results
import OrbIdl.Proofs.Server.Arguments
import OrbIdl.Proofs.Server.Constructor
import OrbIdl.Proofs.Server.Switch
import OrbIdl.Proofs.Signatures
import OrbIdl.Proofs.Structures.Emission
import OrbIdl.Proofs.Structures.Order
import OrbIdl.Proofs.Structures.References
import OrbIdl.Proofs.Text.Indentation
import OrbIdl.Proofs.Valid.Attributes
import OrbIdl.Proofs.Valid.Children
import OrbIdl.Proofs.Valid.Demanded
import OrbIdl.Proofs.Valid.Documents
import OrbIdl.Proofs.Valid.Enumerations
import OrbIdl.Proofs.Valid.Leftover
import OrbIdl.Proofs.Valid.Methods
import OrbIdl.Proofs.Valid.Positions
import OrbIdl.Proofs.Valid.Types
import OrbIdl.Proofs.Wire
import OrbIdl.Report.Line
import OrbIdl.Report.Location
import OrbIdl.Report.Report
import OrbIdl.Schema.Conformance
import OrbIdl.Schema.Declaration
import OrbIdl.Schema.Interface
import OrbIdl.Schema.Particle
import OrbIdl.Schema.Violation
import OrbIdl.Span
import OrbIdl.Text.Alphanumeric
import OrbIdl.Text.Blank
import OrbIdl.Text.Bytes
import OrbIdl.Text.Indent
import OrbIdl.Text.Listing
import OrbIdl.Text.Numeral
import OrbIdl.Text.Ranges
import OrbIdl.Text.Split
import OrbIdl.Text.Width
import OrbIdl.Vocabulary
import OrbIdl.Xml.Attribute
import OrbIdl.Xml.DocType
import OrbIdl.Xml.Element
import OrbIdl.Xml.Fault
import OrbIdl.Xml.ReadError
import OrbIdl.Xml.Reader
import OrbIdl.Xml.Reading
import OrbIdl.Xml.Reference
import OrbIdl.Xml.Token
