import CanonStore.Base64
import CanonStore.Binary64
import CanonStore.Binary64.Reader
import CanonStore.Binary64.Shortest
import CanonStore.Calendar
import CanonStore.Canonical
import CanonStore.Canonical.Digest
import CanonStore.Canonical.OfValue
import CanonStore.Command
import CanonStore.CommandLine
import CanonStore.CommandLine.Reading
import CanonStore.CommandLine.Word
import CanonStore.Config
import CanonStore.Config.Default
import CanonStore.Config.File
import CanonStore.Digest
import CanonStore.Document
import CanonStore.Entry
import CanonStore.Environment
import CanonStore.Fault
import CanonStore.Fault.Arguments
import CanonStore.Fault.Record
import CanonStore.FileSystem
import CanonStore.FileSystem.Directory
import CanonStore.FileSystem.Fault
import CanonStore.FileSystem.Handle
import CanonStore.FileSystem.Walk
import CanonStore.Hex
import CanonStore.Identifier
import CanonStore.Identifier.Source
import CanonStore.Json
import CanonStore.Json.OfValue
import CanonStore.Json.Reader
import CanonStore.Json.Strict
import CanonStore.Json.Writer
import CanonStore.Log
import CanonStore.Main
import CanonStore.Numeral
import CanonStore.PathName
import CanonStore.Program
import CanonStore.Program.Command
import CanonStore.Program.Run
import CanonStore.Proofs.Base64
import CanonStore.Proofs.Base64.Spelling
import CanonStore.Proofs.Binary64.Rounding
import CanonStore.Proofs.Calendar
import CanonStore.Proofs.Canonical.Failure
import CanonStore.Proofs.Canonical.Fields
import CanonStore.Proofs.Canonical.Idempotent
import CanonStore.Proofs.Canonical.Moment
import CanonStore.Proofs.Canonical.Order
import CanonStore.Proofs.Canonical.Text
import CanonStore.Proofs.Canonical.Tree
import CanonStore.Proofs.CommandLine.Count
import CanonStore.Proofs.Config.Copy
import CanonStore.Proofs.Config.Default
import CanonStore.Proofs.Config.Overlay
import CanonStore.Proofs.Config.Refusal
import CanonStore.Proofs.Config.Reread
import CanonStore.Proofs.Config.Resolution
import CanonStore.Proofs.Config.Sections
import CanonStore.Proofs.Document.Container
import CanonStore.Proofs.Document.Encoding
import CanonStore.Proofs.Document.Entry
import CanonStore.Proofs.Document.Failure
import CanonStore.Proofs.Document.Fitting
import CanonStore.Proofs.Document.Gate
import CanonStore.Proofs.Document.Loaded
import CanonStore.Proofs.Document.Path
import CanonStore.Proofs.Document.Payload
import CanonStore.Proofs.Document.Record
import CanonStore.Proofs.Document.Refusal
import CanonStore.Proofs.Document.Storable
import CanonStore.Proofs.Document.Truncated
import CanonStore.Proofs.Fault.Record
import CanonStore.Proofs.FileSystem.Frame
import CanonStore.Proofs.FileSystem.Handle
import CanonStore.Proofs.FileSystem.Walk
import CanonStore.Proofs.Hex
import CanonStore.Proofs.Identifier.Bits
import CanonStore.Proofs.Identifier.Shape
import CanonStore.Proofs.Identifier.Source
import CanonStore.Proofs.Json.Bounds
import CanonStore.Proofs.Json.Document
import CanonStore.Proofs.Json.Grammar
import CanonStore.Proofs.Json.Indented
import CanonStore.Proofs.Json.Joining
import CanonStore.Proofs.Json.Number
import CanonStore.Proofs.Json.Order
import CanonStore.Proofs.Json.Quoted
import CanonStore.Proofs.Json.Reading
import CanonStore.Proofs.Json.RoundTrip
import CanonStore.Proofs.Json.Surrogates
import CanonStore.Proofs.Json.Tree
import CanonStore.Proofs.Json.Truncated
import CanonStore.Proofs.Numeral
import CanonStore.Proofs.OctetText
import CanonStore.Proofs.Parts
import CanonStore.Proofs.PathName
import CanonStore.Proofs.PathName.Spelling
import CanonStore.Proofs.Program.Blob
import CanonStore.Proofs.Program.Command
import CanonStore.Proofs.Program.Failure
import CanonStore.Proofs.Program.Frame
import CanonStore.Proofs.Program.Identifiers
import CanonStore.Proofs.Program.Run
import CanonStore.Proofs.Program.Settings
import CanonStore.Proofs.Program.Setup
import CanonStore.Proofs.Program.Show
import CanonStore.Proofs.Schema.Acceptance
import CanonStore.Proofs.Schema.Conforming
import CanonStore.Proofs.Schema.Dump
import CanonStore.Proofs.Schema.Order
import CanonStore.Proofs.Schema.RoundTrip
import CanonStore.Proofs.Schema.Settled
import CanonStore.Proofs.Span
import CanonStore.Proofs.Store.Handles
import CanonStore.Proofs.Store.Reading
import CanonStore.Proofs.Store.Report
import CanonStore.Proofs.Store.Run
import CanonStore.Proofs.Text.Octets
import CanonStore.Proofs.Text.Pieces
import CanonStore.Proofs.Text.Utf8
import CanonStore.Proofs.Timestamp.Canonical
import CanonStore.Proofs.Timestamp.Count
import CanonStore.Proofs.Timestamp.Moment
import CanonStore.Proofs.Timestamp.Range
import CanonStore.Proofs.Timestamp.Text
import CanonStore.Proofs.Value.Permuted
import CanonStore.Proofs.Value.Same
import CanonStore.Proofs.Value.Storable
import CanonStore.Proofs.Value.Tree
import CanonStore.Proofs.Value.Visits
import CanonStore.Proofs.Yaml.Denoted
import CanonStore.Schema
import CanonStore.Schema.Accept
import CanonStore.Schema.Dump
import CanonStore.Schema.Moment
import CanonStore.Schema.Scalar
import CanonStore.Span
import CanonStore.Store
import CanonStore.Store.Operation
import CanonStore.Text
import CanonStore.Text.Blank
import CanonStore.Text.Digit
import CanonStore.Text.Encoding
import CanonStore.Text.File
import CanonStore.Text.Printable
import CanonStore.Text.Quoted
import CanonStore.Text.UpperCase
import CanonStore.Text.Utf16
import CanonStore.Text.Utf8
import CanonStore.Timestamp
import CanonStore.Value
import CanonStore.Value.Copy
import CanonStore.Value.Display
import CanonStore.Value.Items
import CanonStore.Yaml
import CanonStore.Yaml.Cursor
import CanonStore.Yaml.Node
import CanonStore.Yaml.Scalar
import CanonStore.Yaml.Tag
import CanonStore.Yaml.Token
import CanonStore.Yaml.Token.Property
import CanonStore.Yaml.Token.Scalar
import CanonStore.Yaml.Token.Scan
import CanonStore.Yaml.Value
