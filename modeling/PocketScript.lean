import PocketScript.Command
import PocketScript.Command.Arguments
import PocketScript.Command.Folder
import PocketScript.Configuration
import PocketScript.Console
import PocketScript.Console.Journal
import PocketScript.Console.Lines
import PocketScript.Console.Script
import PocketScript.Display
import PocketScript.Display.Cell
import PocketScript.Display.Frame
import PocketScript.Display.Key
import PocketScript.Display.Request
import PocketScript.Display.Screen
import PocketScript.Fault
import PocketScript.Machine.Block
import PocketScript.Machine.Builtin
import PocketScript.Machine.Call
import PocketScript.Machine.Evaluation
import PocketScript.Machine.Literal
import PocketScript.Machine.Operator
import PocketScript.Machine.Run
import PocketScript.Machine.State
import PocketScript.Main
import PocketScript.Memory.Collection
import PocketScript.Memory.Error
import PocketScript.Memory.Handle
import PocketScript.Memory.Heap
import PocketScript.Memory.Region
import PocketScript.Memory.Root
import PocketScript.Memory.Scope
import PocketScript.Memory.Sequence
import PocketScript.Number.Arithmetic
import PocketScript.Number.Binary32
import PocketScript.Number.Count
import PocketScript.Number.Reading
import PocketScript.Number.Writing
import PocketScript.Proofs.Heap.Allocation
import PocketScript.Proofs.Heap.Invariant
import PocketScript.Proofs.Heap.Links
import PocketScript.Proofs.Heap.Spacing
import PocketScript.Proofs.Heap.Sweeping
import PocketScript.Proofs.Heap.Views
import PocketScript.Proofs.Machine.Blocks
import PocketScript.Proofs.Machine.Builtins
import PocketScript.Proofs.Machine.Calls
import PocketScript.Proofs.Machine.Evaluations
import PocketScript.Proofs.Machine.Expressions
import PocketScript.Proofs.Machine.Keeping
import PocketScript.Proofs.Machine.Literals
import PocketScript.Proofs.Machine.Operators
import PocketScript.Proofs.Machine.Runs
import PocketScript.Proofs.Memory.Collector
import PocketScript.Proofs.Memory.Contents
import PocketScript.Proofs.Memory.Layout
import PocketScript.Proofs.Memory.Outcome
import PocketScript.Proofs.Memory.Partition
import PocketScript.Proofs.Memory.Reachability
import PocketScript.Proofs.Memory.Registration
import PocketScript.Proofs.Memory.Safety
import PocketScript.Proofs.Memory.Scopes
import PocketScript.Proofs.Memory.Soundness
import PocketScript.Proofs.Memory.Survival
import PocketScript.Proofs.Memory.Variables
import PocketScript.Random
import PocketScript.Store
import PocketScript.Store.File
import PocketScript.Symbol
import PocketScript.Symbol.Encoding
import PocketScript.Text.Blank
import PocketScript.Text.Cluster
import PocketScript.Text.Property
import PocketScript.Text.Property.Break
import PocketScript.Text.Property.Visible
import PocketScript.Text.Property.Width
import PocketScript.Text.Shown
import PocketScript.Text.Utf8
import PocketScript.Text.Width
import PocketScript.Text.Wrap
import PocketScript.Value
import PocketScript.Proofs.Flow.GlobalScope
import PocketScript.Proofs.Flow.Program
import PocketScript.Proofs.Flow.Progress
import PocketScript.Proofs.Flow.Formulas
import PocketScript.Proofs.Flow.Simulation
import PocketScript.Proofs.Flow.Structured
import PocketScript.Proofs.Flow.Arms
import PocketScript.Proofs.Flow.Precedence
import PocketScript.Proofs.Machine.Operands
import PocketScript.Proofs.Machine.Targets
import PocketScript.Proofs.Memory.Separation
import PocketScript.Proofs.Memory.Sequences
import PocketScript.Proofs.Memory.Lists
import PocketScript.Proofs.Heap.Aging
import PocketScript.Proofs.Memory.Aging
import PocketScript.Proofs.Memory.Mirroring
import PocketScript.Proofs.Memory.Tallying
import PocketScript.Proofs.Schedule.Spending
import PocketScript.Proofs.Schedule.Tallying
import PocketScript.Proofs.Schedule.Operands
import PocketScript.Proofs.Schedule.Expressions
import PocketScript.Proofs.Schedule.Calls
import PocketScript.Proofs.Schedule.Builtins
import PocketScript.Proofs.Schedule.Evaluations
import PocketScript.Proofs.Heeding.Erasing
import PocketScript.Proofs.Heeding.Evaluations
import PocketScript.Proofs.Heeding.Runs
import PocketScript.Proofs.Schedule.Runs
import PocketScript.Proofs.Symbol.RoundTrip
import PocketScript.Proofs.Symbol.LineEnds
import PocketScript.Proofs.Store.Names
import PocketScript.Proofs.Witness.Faults
import PocketScript.Proofs.Frame.Discipline
import PocketScript.Proofs.Copies.Clearing
import PocketScript.Proofs.Imports.Blocks
import PocketScript.Proofs.Imports.Levelling
import PocketScript.Proofs.Imports.Staying
import PocketScript.Proofs.Heap.Lifetimes
import PocketScript.Proofs.Memory.Refusals
import PocketScript.Proofs.Store.Refusals
import PocketScript.Proofs.Renaming.Expressions
import PocketScript.Proofs.Renaming.Runs
import PocketScript.Proofs.Store.Contents
import PocketScript.Proofs.Symbol.Quoting
import PocketScript.Proofs.Number.Rounding
import PocketScript.Proofs.Number.Finite
import PocketScript.Proofs.Number.Scientific
import PocketScript.Proofs.Metering.Meter
import PocketScript.Proofs.Metering.Loops
import PocketScript.Proofs.Metering.Passing
import PocketScript.Proofs.Metering.Measuring
import PocketScript.Proofs.Metering.Advancing
import PocketScript.Proofs.Metering.Expressions
import PocketScript.Proofs.Metering.Statements
import PocketScript.Proofs.Metering.Evaluations
import PocketScript.Proofs.Metering.Runs
import PocketScript.Proofs.Machine.Drawing
import PocketScript.Proofs.Heap.FirstFit
import PocketScript.Proofs.Memory.Holding
import PocketScript.Proofs.Memory.Capacity
import PocketScript.Proofs.Number.Nearest
import PocketScript.Proofs.Number.Digits
import PocketScript.Proofs.Number.Spelling
import PocketScript.Proofs.Number.Beginning
import PocketScript.Proofs.Number.Decimals
import PocketScript.Proofs.Number.Rereading
import PocketScript.Proofs.Memory.Lookup
import PocketScript.Proofs.Flow.Matching
import PocketScript.Proofs.Memory.Appending
import PocketScript.Proofs.Flow.Locating
import PocketScript.Proofs.Flow.Updating
import PocketScript.Proofs.Store.SourceLines
import PocketScript.Proofs.Display.Wrapping
import PocketScript.Proofs.Display.Scrolling
