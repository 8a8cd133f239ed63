import RegisterMachine.Assembly.Operand
import RegisterMachine.Assembly.Source
import RegisterMachine.Bytes
import RegisterMachine.Calendar
import RegisterMachine.Cbor.Basic
import RegisterMachine.Cbor.Reading
import RegisterMachine.Cbor.Record
import RegisterMachine.CodecError
import RegisterMachine.CommandLine.Batch
import RegisterMachine.CommandLine.Commands
import RegisterMachine.CommandLine.Flags
import RegisterMachine.Cursor
import RegisterMachine.Debugger.Command
import RegisterMachine.Debugger.Console
import RegisterMachine.Debugger.Message
import RegisterMachine.Debugger.Session
import RegisterMachine.Debugger.Symbols
import RegisterMachine.Digest.Sha256
import RegisterMachine.Digest.Xxh3
import RegisterMachine.Engine.Arithmetic
import RegisterMachine.Engine.Batch
import RegisterMachine.Engine.Conversion
import RegisterMachine.Engine.Fault
import RegisterMachine.Engine.Heap
import RegisterMachine.Engine.Native
import RegisterMachine.Engine.Profiler
import RegisterMachine.Engine.Recorders
import RegisterMachine.Engine.Registers
import RegisterMachine.Engine.Resolve
import RegisterMachine.Engine.Run
import RegisterMachine.Engine.Stack
import RegisterMachine.Engine.Step
import RegisterMachine.Engine.Thread
import RegisterMachine.Files.Path
import RegisterMachine.Files.Tree
import RegisterMachine.Instruction.Arch
import RegisterMachine.Instruction.Basic
import RegisterMachine.Instruction.Draft
import RegisterMachine.Instruction.Mnemonic
import RegisterMachine.Instruction.Mode
import RegisterMachine.Instruction.Operand
import RegisterMachine.Journal.Basic
import RegisterMachine.Journal.Listing
import RegisterMachine.Journal.RunId
import RegisterMachine.Main
import RegisterMachine.Manifest.Basic
import RegisterMachine.Manifest.Loading
import RegisterMachine.Manifest.Reading
import RegisterMachine.Number.Decimal
import RegisterMachine.Number.FloatOps
import RegisterMachine.Number.FloatReading
import RegisterMachine.Number.Ieee
import RegisterMachine.Number.Integer
import RegisterMachine.Number.Shortest
import RegisterMachine.Program.Basic
import RegisterMachine.Program.File
import RegisterMachine.Program.Listing
import RegisterMachine.Proofs.Assembly.CutLiteral
import RegisterMachine.Proofs.Assembly.Functions
import RegisterMachine.Proofs.Assembly.InstructionText
import RegisterMachine.Proofs.Assembly.IntegerLiterals
import RegisterMachine.Proofs.Assembly.Line
import RegisterMachine.Proofs.Assembly.Literal
import RegisterMachine.Proofs.Assembly.LiteralRoundTrip
import RegisterMachine.Proofs.Assembly.LiteralText
import RegisterMachine.Proofs.Assembly.Names
import RegisterMachine.Proofs.Assembly.Nesting
import RegisterMachine.Proofs.Assembly.Source
import RegisterMachine.Proofs.Assembly.Splitting
import RegisterMachine.Proofs.Codec.AcceptedFile
import RegisterMachine.Proofs.Codec.Canonical
import RegisterMachine.Proofs.Codec.Cbor
import RegisterMachine.Proofs.Codec.Instruction
import RegisterMachine.Proofs.Codec.Limits
import RegisterMachine.Proofs.Codec.Payloads
import RegisterMachine.Proofs.Codec.ProgramFile
import RegisterMachine.Proofs.Codec.Record
import RegisterMachine.Proofs.Codec.Rereading
import RegisterMachine.Proofs.Codec.Streams
import RegisterMachine.Proofs.Codec.Value
import RegisterMachine.Proofs.Codec.ValueForms
import RegisterMachine.Proofs.Debugger.Breakpoints
import RegisterMachine.Proofs.Debugger.Operations
import RegisterMachine.Proofs.Debugger.Running
import RegisterMachine.Proofs.Debugger.Stops
import RegisterMachine.Proofs.Debugger.SymbolFiles
import RegisterMachine.Proofs.Debugger.SymbolLines
import RegisterMachine.Proofs.Engine.Announcements
import RegisterMachine.Proofs.Engine.Architectures
import RegisterMachine.Proofs.Engine.Atomicity
import RegisterMachine.Proofs.Engine.Batches
import RegisterMachine.Proofs.Engine.CallReturn
import RegisterMachine.Proofs.Engine.Calls
import RegisterMachine.Proofs.Engine.Comparison
import RegisterMachine.Proofs.Engine.Conversions
import RegisterMachine.Proofs.Engine.DeepCopies
import RegisterMachine.Proofs.Engine.Effect
import RegisterMachine.Proofs.Engine.Elements
import RegisterMachine.Proofs.Engine.Exhaustion
import RegisterMachine.Proofs.Engine.Faults
import RegisterMachine.Proofs.Engine.FlatThreads
import RegisterMachine.Proofs.Engine.Headers
import RegisterMachine.Proofs.Engine.HotFunctions
import RegisterMachine.Proofs.Engine.IntegerArithmetic
import RegisterMachine.Proofs.Engine.Lifecycle
import RegisterMachine.Proofs.Engine.Literals
import RegisterMachine.Proofs.Engine.LiveReferences
import RegisterMachine.Proofs.Engine.Lockstep
import RegisterMachine.Proofs.Engine.NativeCalls
import RegisterMachine.Proofs.Engine.NormalForm
import RegisterMachine.Proofs.Engine.Panics
import RegisterMachine.Proofs.Engine.ParallelRuns
import RegisterMachine.Proofs.Engine.ProfilerCounts
import RegisterMachine.Proofs.Engine.ProfilerTally
import RegisterMachine.Proofs.Engine.Profiling
import RegisterMachine.Proofs.Engine.Ranges
import RegisterMachine.Proofs.Engine.Reclaiming
import RegisterMachine.Proofs.Engine.Renaming
import RegisterMachine.Proofs.Engine.Resuming
import RegisterMachine.Proofs.Engine.Runs
import RegisterMachine.Proofs.Engine.Safety
import RegisterMachine.Proofs.Engine.Stack
import RegisterMachine.Proofs.Engine.StackLayout
import RegisterMachine.Proofs.Engine.StaleReferences
import RegisterMachine.Proofs.Engine.Start
import RegisterMachine.Proofs.Engine.Turnover
import RegisterMachine.Proofs.Engine.Unobservable
import RegisterMachine.Proofs.Fallible
import RegisterMachine.Proofs.Journal.Recording
import RegisterMachine.Proofs.Memory.Collection
import RegisterMachine.Proofs.Memory.CopyShape
import RegisterMachine.Proofs.Memory.Copying
import RegisterMachine.Proofs.Memory.Filling
import RegisterMachine.Proofs.Memory.Flatness
import RegisterMachine.Proofs.Memory.Generations
import RegisterMachine.Proofs.Memory.Heap
import RegisterMachine.Proofs.Memory.Histories
import RegisterMachine.Proofs.Memory.Interning
import RegisterMachine.Proofs.Memory.Marking
import RegisterMachine.Proofs.Memory.References
import RegisterMachine.Proofs.Memory.Renaming
import RegisterMachine.Proofs.Memory.Separation
import RegisterMachine.Proofs.Number.Decimal
import RegisterMachine.Proofs.Number.Numerals
import RegisterMachine.Proofs.Text.Quoted
import RegisterMachine.Proofs.Text.Separators
import RegisterMachine.Proofs.Text.Utf8
import RegisterMachine.Proofs.Text.WellFormed
import RegisterMachine.Proofs.Text.Words
import RegisterMachine.Proofs.Wire.Policy
import RegisterMachine.Proofs.Wire.Records
import RegisterMachine.Proofs.Wire.Reports
import RegisterMachine.Proofs.Wire.Values
import RegisterMachine.Text.Base64
import RegisterMachine.Text.Classes
import RegisterMachine.Text.Columns
import RegisterMachine.Text.Digits
import RegisterMachine.Text.Json
import RegisterMachine.Text.Letters
import RegisterMachine.Text.Printables
import RegisterMachine.Text.Quoted
import RegisterMachine.Text.Utf8
import RegisterMachine.Text.Words
import RegisterMachine.Toml.Statement
import RegisterMachine.Toml.Table
import RegisterMachine.Value.Basic
import RegisterMachine.Value.Codec
import RegisterMachine.Value.Literal
import RegisterMachine.Wire.Policy
import RegisterMachine.Wire.Report
import RegisterMachine.Wire.Snapshot
import RegisterMachine.Yaml.Meaning
import RegisterMachine.Yaml.Node
import RegisterMachine.Yaml.Scalar
import RegisterMachine.Yaml.Source
import RegisterMachine.Yaml.Token
import RegisterMachine.Yaml.TokenStream
