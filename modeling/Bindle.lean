import Bindle.Build.Dialogue
import Bindle.Build.Error
import Bindle.Build.Extract
import Bindle.Build.Resolve
import Bindle.Bundle
import Bindle.Chunk
import Bindle.Cli.Arguments
import Bindle.Cli.Context
import Bindle.Cli.Log
import Bindle.Cli.Run
import Bindle.Compilation
import Bindle.Compiler.Assemble
import Bindle.Compiler.Basic
import Bindle.Compiler.Options
import Bindle.Compiler.Stages
import Bindle.Component.Basic
import Bindle.Component.Create
import Bindle.Component.Loader
import Bindle.Component.Plugin
import Bindle.Config.Basic
import Bindle.Config.Error
import Bindle.Config.Reader
import Bindle.Emission
import Bindle.Files.Content
import Bindle.Files.Disk
import Bindle.Files.Host
import Bindle.Files.Memory
import Bindle.Graph.Basic
import Bindle.Graph.Grow
import Bindle.Hook.Basic
import Bindle.Hook.Taps
import Bindle.Json.Error
import Bindle.Json.Print
import Bindle.Json.Reader
import Bindle.Json.Scan
import Bindle.Json.Value
import Bindle.Main
import Bindle.Number.Binary64
import Bindle.Number.Shortest
import Bindle.Path.Basic
import Bindle.Path.Bytes
import Bindle.Path.Id
import Bindle.Path.Normal
import Bindle.Pattern.Basic
import Bindle.Pattern.CharSet
import Bindle.Pattern.Meaning
import Bindle.Pattern.Parser
import Bindle.Pattern.Property
import Bindle.Pattern.Regex
import Bindle.Pattern.Syntax
import Bindle.Phase
import Bindle.Project
import Bindle.Rule
import Bindle.Script.Call
import Bindle.Script.Fault
import Bindle.Script.Grammar.Basic
import Bindle.Script.Grammar.Expression
import Bindle.Script.Grammar.Function
import Bindle.Script.Grammar.Module
import Bindle.Script.Grammar.Pattern
import Bindle.Script.Grammar.Statement
import Bindle.Script.Lexer
import Bindle.Script.Literal
import Bindle.Script.NumberValue
import Bindle.Script.Parse
import Bindle.Script.Program
import Bindle.Script.Shown
import Bindle.Script.StringValue
import Bindle.Script.Token
import Bindle.Script.Tree
import Bindle.Table
import Bindle.Text.Blank
import Bindle.Text.Bytes
import Bindle.Text.Digits
import Bindle.Text.Identifier
import Bindle.Text.Lines
import Bindle.Text.Lowercase
import Bindle.Text.Position
import Bindle.Text.Quoted
import Bindle.Text.Replace
import Bindle.Text.Shown
import Bindle.Text.Unicode.Categories
import Bindle.Text.Unicode.Folding
import Bindle.Text.Unicode.Lowercase
import Bindle.Text.Unicode.Properties
import Bindle.Text.Unicode.Scripts
import Bindle.Text.Utf8
import Bindle.Proofs.Build.Endings
import Bindle.Proofs.Graph.Growth
import Bindle.Proofs.Graph.ChunkNames
import Bindle.Proofs.Graph.Closure
import Bindle.Proofs.Script.Literal
import Bindle.Proofs.Bundle.Registry
import Bindle.Proofs.Emission.Memory
import Bindle.Proofs.Compiler.Failure
import Bindle.Proofs.Path.Bytes
import Bindle.Proofs.Path.Components
import Bindle.Proofs.Path.Ids
import Bindle.Proofs.Compiler.Lifecycle
import Bindle.Proofs.Script.Rewriting
import Bindle.Proofs.Bundle.Program
import Bindle.Proofs.Compiler.Assets
import Bindle.Proofs.Compiler.Locality
import Bindle.Proofs.Build.Resolve
import Bindle.Proofs.Path.Plain
import Bindle.Proofs.Graph.Success
import Bindle.Proofs.Compiler.EntryOrder
import Bindle.Proofs.Path.Below
import Bindle.Proofs.Files.Moved
import Bindle.Proofs.Graph.Relocation
import Bindle.Proofs.Compiler.Relocation
import Bindle.Proofs.Graph.History
import Bindle.Proofs.Build.Failures
import Bindle.Proofs.Graph.Stopping
import Bindle.Proofs.Graph.Leftovers
import Bindle.Proofs.Compiler.Blame
import Bindle.Proofs.Build.Transcript
import Bindle.Proofs.Compiler.Once
import Bindle.Proofs.Compiler.Extensions
import Bindle.Proofs.Path.Parts
import Bindle.Proofs.Files.Spellings
import Bindle.Proofs.Graph.OneFile
import Bindle.Proofs.Graph.Termination
import Bindle.Proofs.Files.KeyOrder
import Bindle.Proofs.Files.Directories
import Bindle.Proofs.Path.Joining
import Bindle.Proofs.Script.Quoting
import Bindle.Proofs.Cli.Context
import Bindle.Proofs.Script.Pieces
import Bindle.Proofs.Script.Values
import Bindle.Proofs.Component.Comments
import Bindle.Proofs.Script.CallOrder
import Bindle.Proofs.Bundle.Requests
import Bindle.Proofs.Rule.Composition
import Bindle.Proofs.Build.Extraction
import Bindle.Proofs.Text.Replace
import Bindle.Proofs.Compiler.Conflicts
import Bindle.Proofs.Text.ByteOrder
import Bindle.Proofs.Emission.Effect
import Bindle.Proofs.Graph.Spreading
import Bindle.Proofs.Script.Rendering
import Bindle.Proofs.Text.Position
import Bindle.Proofs.Config.Entries
