import NetlinkFamily.C.Alignment
import NetlinkFamily.C.Code
import NetlinkFamily.C.Field
import NetlinkFamily.C.Signature
import NetlinkFamily.C.Writer
import NetlinkFamily.CName
import NetlinkFamily.Command.Arguments
import NetlinkFamily.Command.Execution
import NetlinkFamily.Command.Failure
import NetlinkFamily.Command.FileSystem
import NetlinkFamily.Command.Request
import NetlinkFamily.Command.Run
import NetlinkFamily.Main
import NetlinkFamily.Member.Field
import NetlinkFamily.Member.Free
import NetlinkFamily.Member.Parse
import NetlinkFamily.Member.Policy
import NetlinkFamily.Member.Put
import NetlinkFamily.Message.Decoding
import NetlinkFamily.Message.Encoding
import NetlinkFamily.Message.Error
import NetlinkFamily.Message.Policy
import NetlinkFamily.Message.Text
import NetlinkFamily.Message.Value
import NetlinkFamily.Model.Attribute
import NetlinkFamily.Model.AttributeKind
import NetlinkFamily.Model.AttributeSet
import NetlinkFamily.Model.Counter
import NetlinkFamily.Model.EnumSet
import NetlinkFamily.Model.Error
import NetlinkFamily.Model.Family
import NetlinkFamily.Model.Json
import NetlinkFamily.Model.Layout
import NetlinkFamily.Model.Nesting
import NetlinkFamily.Model.Operation
import NetlinkFamily.Model.RootSet
import NetlinkFamily.Model.Scope
import NetlinkFamily.Output.Constants
import NetlinkFamily.Output.Declaration
import NetlinkFamily.Output.File
import NetlinkFamily.Output.Kernel
import NetlinkFamily.Output.Library.Calls
import NetlinkFamily.Output.Library.Files
import NetlinkFamily.Output.Library.Names
import NetlinkFamily.Output.Library.Parser
import NetlinkFamily.Output.Library.Types
import NetlinkFamily.Output.Setter
import NetlinkFamily.Output.Subject
import NetlinkFamily.Pattern.Basic
import NetlinkFamily.Pattern.CharSet
import NetlinkFamily.Pattern.Property
import NetlinkFamily.Pattern.Reader
import NetlinkFamily.Proofs.Decoding.Collecting
import NetlinkFamily.Proofs.Decoding.Leniency
import NetlinkFamily.Proofs.Decoding.Reading
import NetlinkFamily.Proofs.Encoding.Writing
import NetlinkFamily.Proofs.Message.NormalForm
import NetlinkFamily.Proofs.Message.Occurrences
import NetlinkFamily.Proofs.Message.Parts
import NetlinkFamily.Proofs.Message.Rewriting
import NetlinkFamily.Proofs.Message.Terminator
import NetlinkFamily.Proofs.Message.Value
import NetlinkFamily.Proofs.Nesting.Dependencies
import NetlinkFamily.Proofs.Nesting.Ordering
import NetlinkFamily.Proofs.Nesting.Searching
import NetlinkFamily.Proofs.Nesting.Settling
import NetlinkFamily.Proofs.Outcome
import NetlinkFamily.Proofs.RoundTrip.Messages
import NetlinkFamily.Proofs.RoundTrip.Picking
import NetlinkFamily.Proofs.RoundTrip.Readable
import NetlinkFamily.Proofs.RoundTrip.Requests
import NetlinkFamily.Proofs.RoundTrip.Values
import NetlinkFamily.Proofs.Wire.Frames
import NetlinkFamily.Registry
import NetlinkFamily.Spec.Document
import NetlinkFamily.Spec.File
import NetlinkFamily.Spec.Json
import NetlinkFamily.Spec.Reader
import NetlinkFamily.Spec.Records
import NetlinkFamily.Spec.Source
import NetlinkFamily.Text.Blank
import NetlinkFamily.Text.Case
import NetlinkFamily.Text.CaseTable
import NetlinkFamily.Text.Category
import NetlinkFamily.Text.CategoryTable
import NetlinkFamily.Text.Json
import NetlinkFamily.Text.Path
import NetlinkFamily.Text.Quoted
import NetlinkFamily.Text.Search
import NetlinkFamily.Wire.Bytes
import NetlinkFamily.Wire.Stream
import NetlinkFamily.Yaml.Cursor
import NetlinkFamily.Yaml.Node
import NetlinkFamily.Yaml.Plain
import NetlinkFamily.Yaml.Scalar
import NetlinkFamily.Yaml.Token
import NetlinkFamily.Proofs.Model.Messages
import NetlinkFamily.Proofs.Model.RootSets
import NetlinkFamily.Proofs.Nesting.Usage
import NetlinkFamily.Proofs.Decoding.Fidelity
import NetlinkFamily.Proofs.Encoding.Length
import NetlinkFamily.Proofs.Encoding.Acceptance
import NetlinkFamily.Proofs.Output.Enumerations
import NetlinkFamily.Proofs.Nesting.Naming
import NetlinkFamily.Proofs.Model.Selection
import NetlinkFamily.Proofs.Output.Listing
import NetlinkFamily.Proofs.Output.Linkage
import NetlinkFamily.Proofs.Output.Notifications
import NetlinkFamily.Proofs.Output.Spelling
import NetlinkFamily.Proofs.Output.PolicyTables
import NetlinkFamily.Proofs.Output.PolicyNames
import NetlinkFamily.Proofs.Message.Agreement
import NetlinkFamily.Proofs.Model.Exclusion
import NetlinkFamily.Proofs.Encoding.Content
import NetlinkFamily.Proofs.Wire.Bounds
import NetlinkFamily.Proofs.Encoding.Failure
import NetlinkFamily.Proofs.RoundTrip.Decoded
import NetlinkFamily.Proofs.RoundTrip.Canonical
import NetlinkFamily.Proofs.RoundTrip.Repetition
import NetlinkFamily.Proofs.Output.Calling
import NetlinkFamily.Proofs.Output.Parsing
import NetlinkFamily.Proofs.Nesting.Inheritance
import NetlinkFamily.Proofs.Output.ParserArguments
import NetlinkFamily.Proofs.Output.Structures
import NetlinkFamily.Proofs.Output.Embedding
import NetlinkFamily.Proofs.Wire.Padding
import NetlinkFamily.Proofs.Wire.Segments
import NetlinkFamily.Proofs.Wire.Forests
import NetlinkFamily.Proofs.Encoding.Layout
import NetlinkFamily.Proofs.Decoding.Extent
import NetlinkFamily.Proofs.Model.Subsets
import NetlinkFamily.Proofs.Model.References
import NetlinkFamily.Proofs.Decoding.Vetting
import NetlinkFamily.Proofs.Decoding.Indifference
import NetlinkFamily.Proofs.Decoding.Projection
import NetlinkFamily.Proofs.Decoding.Concatenation
import NetlinkFamily.Proofs.Decoding.Permission
import NetlinkFamily.Proofs.Output.Failure
import NetlinkFamily.Proofs.Output.References
import NetlinkFamily.Proofs.Output.ValidationTables
import NetlinkFamily.Proofs.Distinct
import NetlinkFamily.Proofs.Nesting.Failure
import NetlinkFamily.Proofs.Nesting.BreadthFirst
import NetlinkFamily.Proofs.Nesting.Cycles
import NetlinkFamily.Proofs.Model.Ranges
import NetlinkFamily.Proofs.Model.Masks
import NetlinkFamily.Proofs.Decoding.EnumPolicies
import NetlinkFamily.Proofs.Message.Integers
import NetlinkFamily.Proofs.Decoding.FlagPolicies
import NetlinkFamily.Proofs.Model.Counting
import NetlinkFamily.Proofs.Model.Lookups
import NetlinkFamily.Proofs.Model.Numbering
import NetlinkFamily.Proofs.Output.NotificationValues
import NetlinkFamily.Proofs.Model.Layouts
import NetlinkFamily.Proofs.Output.PolicyEntries
import NetlinkFamily.Proofs.Output.OperationTables
import NetlinkFamily.Proofs.Output.SetterWays
import NetlinkFamily.Proofs.Output.Setters
import NetlinkFamily.Proofs.Output.SetterNames
import NetlinkFamily.Proofs.C.Printing
import NetlinkFamily.Proofs.C.Columns
import NetlinkFamily.Proofs.C.Prototypes
import NetlinkFamily.Proofs.C.Comments
import NetlinkFamily.Proofs.Output.Callbacks
import NetlinkFamily.Proofs.Output.Serving
import NetlinkFamily.Proofs.C.Alignment
import NetlinkFamily.Proofs.C.Chains
import NetlinkFamily.Proofs.Output.Dispatch
import NetlinkFamily.Proofs.C.Placement
import NetlinkFamily.Proofs.Output.Rendering
import NetlinkFamily.Proofs.Output.Standing
import NetlinkFamily.Proofs.Output.Bodies
import NetlinkFamily.Proofs.Output.Members
