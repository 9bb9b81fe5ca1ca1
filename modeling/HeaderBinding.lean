import HeaderBinding.NameMap
import HeaderBinding.Text.Blank
import HeaderBinding.Text.Search
import HeaderBinding.Text.Decimal
import HeaderBinding.Text.Utf8
import HeaderBinding.Text.Quoted
import HeaderBinding.Json.Value
import HeaderBinding.Json.Number
import HeaderBinding.Json.Reader
import HeaderBinding.Sha1
import HeaderBinding.Path.Basic
import HeaderBinding.Path.Pattern
import HeaderBinding.Files.Tree
import HeaderBinding.Files.System
import HeaderBinding.Files.Match
import HeaderBinding.Decl.Type
import HeaderBinding.Decl.Node
import HeaderBinding.Decl.Tree
import HeaderBinding.Text.Affix
import HeaderBinding.Spelling.Shape
import HeaderBinding.Spelling.Sequence
import HeaderBinding.Spelling.Identifier
import HeaderBinding.Registry.Entry
import HeaderBinding.Registry.Basic
import HeaderBinding.Registry.Builtin
import HeaderBinding.Override.Table
import HeaderBinding.Override.Document
import HeaderBinding.Registry.Discovery
import HeaderBinding.Classification
import HeaderBinding.Api.Class
import HeaderBinding.Api.Scan
import HeaderBinding.Wrapper.Code
import HeaderBinding.Wrapper.Class
import HeaderBinding.Wrapper.Naming
import HeaderBinding.Writer
import HeaderBinding.Wrapper.Text
import HeaderBinding.Wrapper.Shared
import HeaderBinding.Wrapper.Conversion
import HeaderBinding.Wrapper.OfClass
import HeaderBinding.Wrapper.Files
import HeaderBinding.Clang.FunctionType
import HeaderBinding.Clang.Node
import HeaderBinding.Clang.Declarations
import HeaderBinding.FrontEnd
import HeaderBinding.Clang.Tool
import HeaderBinding.Path.Include
import HeaderBinding.Settings.Basic
import HeaderBinding.Settings.CommandLine
import HeaderBinding.Generation
import HeaderBinding.Program
import HeaderBinding.Clang.Recorded
import HeaderBinding.Main
import HeaderBinding.Proofs.Text.Blank
import HeaderBinding.Proofs.Text.Bracket
import HeaderBinding.Proofs.Text.Pair
import HeaderBinding.Proofs.Text.Word
import HeaderBinding.Proofs.Text.Piece
import HeaderBinding.Proofs.Text.Apart
import HeaderBinding.Proofs.Registry.History
import HeaderBinding.Proofs.Registry.Discovery
import HeaderBinding.Proofs.Registry.Parallel
import HeaderBinding.Proofs.Classification.Alias
import HeaderBinding.Proofs.Spelling.Shape
import HeaderBinding.Proofs.Wrapper.Alias
import HeaderBinding.Proofs.Wrapper.Naming
import HeaderBinding.Proofs.Wrapper.Members
import HeaderBinding.Proofs.Wrapper.Body
import HeaderBinding.Proofs.Wrapper.Locals
import HeaderBinding.Proofs.Classification.Support
import HeaderBinding.Proofs.Layout.Lines
import HeaderBinding.Proofs.Layout.Call
import HeaderBinding.Proofs.Wrapper.Layout
import HeaderBinding.Proofs.Wrapper.Indentation
import HeaderBinding.Proofs.Wrapper.Returns
import HeaderBinding.Proofs.Wrapper.Execution
import HeaderBinding.Proofs.Wrapper.Effect
import HeaderBinding.Proofs.Wrapper.Incomplete
import HeaderBinding.Proofs.Wrapper.Lifecycle
import HeaderBinding.Proofs.Spelling.Mark
import HeaderBinding.Proofs.Classification.Indirection
import HeaderBinding.Proofs.Api.Site
import HeaderBinding.Proofs.Api.Hidden
import HeaderBinding.Proofs.Api.Template
import HeaderBinding.Proofs.Clang.Growth
import HeaderBinding.Proofs.Decl.Reach
import HeaderBinding.Proofs.Decl.Scope
import HeaderBinding.Proofs.Decl.Traversal
import HeaderBinding.Proofs.Decl.SourceOrder
import HeaderBinding.Proofs.Registry.Declared
import HeaderBinding.Proofs.Api.Complete
import HeaderBinding.Proofs.Classification.Cycle
import HeaderBinding.Proofs.Classification.Sibling
import HeaderBinding.Proofs.Decl.Summary
import HeaderBinding.Proofs.Clang.Document
import HeaderBinding.Proofs.Clang.Origin
import HeaderBinding.Proofs.Wrapper.Forwarding
import HeaderBinding.Proofs.Clang.Reading
import HeaderBinding.Proofs.Api.Kept
import HeaderBinding.Proofs.Classification.Restart
import HeaderBinding.Proofs.Wrapper.Registration
import HeaderBinding.Proofs.Wrapper.Files
import HeaderBinding.Proofs.Decl.Contents
import HeaderBinding.Proofs.Clang.Constants
import HeaderBinding.Proofs.Clang.Enumeration
import HeaderBinding.Proofs.Wrapper.Reserved
import HeaderBinding.Proofs.Wrapper.Script
import HeaderBinding.Proofs.Decl.Order
import HeaderBinding.Proofs.Clang.Steps
import HeaderBinding.Proofs.Clang.Order
import HeaderBinding.Proofs.Clang.Linking
import HeaderBinding.Proofs.Clang.Relinking
import HeaderBinding.Proofs.Api.Parameter
import HeaderBinding.Proofs.Clang.Descent
import HeaderBinding.Proofs.Spelling.Peeling
import HeaderBinding.Proofs.Spelling.Written
import HeaderBinding.Proofs.Spelling.Sequence
import HeaderBinding.Proofs.Clang.FunctionType
import HeaderBinding.Proofs.Wrapper.Embedded
import HeaderBinding.Proofs.Path.Pattern
import HeaderBinding.Proofs.Path.Normal
import HeaderBinding.Proofs.Wrapper.Agreement
import HeaderBinding.Proofs.Spelling.Base
import HeaderBinding.Proofs.Text.Decimal
import HeaderBinding.Proofs.Settings.Group
import HeaderBinding.Proofs.Settings.Written
import HeaderBinding.Proofs.Path.Join
import HeaderBinding.Proofs.Path.Include
import HeaderBinding.Proofs.Text.Bytes
import HeaderBinding.Proofs.Wrapper.Overload
