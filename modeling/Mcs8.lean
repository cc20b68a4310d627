import Mcs8.Adder
import Mcs8.Alu
import Mcs8.Board
import Mcs8.Board.Breakpoints
import Mcs8.Board.Error
import Mcs8.Board.Interrupter
import Mcs8.Board.Messages
import Mcs8.Board.Run
import Mcs8.Board.Snapshot
import Mcs8.Board.Trace
import Mcs8.Bus
import Mcs8.Code
import Mcs8.Disassembly
import Mcs8.Document
import Mcs8.Document.Codec
import Mcs8.Document.Library
import Mcs8.Document.Parser
import Mcs8.Document.Ports
import Mcs8.Document.Printer
import Mcs8.Document.Processor
import Mcs8.Document.Snapshot
import Mcs8.Flags
import Mcs8.Instruction
import Mcs8.Instruction.Decode
import Mcs8.Instruction.Printer
import Mcs8.MachineCycle
import Mcs8.Ports
import Mcs8.Processor
import Mcs8.Processor.Trace
import Mcs8.Proofs.Access.Board
import Mcs8.Proofs.Access.Log
import Mcs8.Proofs.Access.Processor
import Mcs8.Proofs.Alu.LongArithmetic
import Mcs8.Proofs.Alu.LongShift
import Mcs8.Proofs.Alu.Sweep
import Mcs8.Proofs.Board.Action
import Mcs8.Proofs.Board.Addressing
import Mcs8.Proofs.Board.Alignment
import Mcs8.Proofs.Board.Delivery
import Mcs8.Proofs.Board.Handshake
import Mcs8.Proofs.Board.Latch
import Mcs8.Proofs.Board.Marks
import Mcs8.Proofs.Board.Operations
import Mcs8.Proofs.Board.Outputs
import Mcs8.Proofs.Board.Ownership
import Mcs8.Proofs.Board.Periphery
import Mcs8.Proofs.Board.Precision
import Mcs8.Proofs.Board.Reachable
import Mcs8.Proofs.Board.Restore
import Mcs8.Proofs.Board.Run
import Mcs8.Proofs.Board.Slices
import Mcs8.Proofs.Board.Tick
import Mcs8.Proofs.Board.Traces
import Mcs8.Proofs.Board.Waits
import Mcs8.Proofs.Board.Watched
import Mcs8.Proofs.Disassembly.ByteColumn
import Mcs8.Proofs.Disassembly.Tiling
import Mcs8.Proofs.Document.Library
import Mcs8.Proofs.Document.NormalForm
import Mcs8.Proofs.Document.Ranges
import Mcs8.Proofs.Document.RoundTrip
import Mcs8.Proofs.Execution.Abstraction
import Mcs8.Proofs.Execution.Arithmetic
import Mcs8.Proofs.Execution.Calls
import Mcs8.Proofs.Execution.Completion
import Mcs8.Proofs.Execution.Datapath
import Mcs8.Proofs.Execution.Fetches
import Mcs8.Proofs.Execution.Frames
import Mcs8.Proofs.Execution.Instruction
import Mcs8.Proofs.Execution.Itinerary
import Mcs8.Proofs.Execution.Listing
import Mcs8.Proofs.Execution.Machine
import Mcs8.Proofs.Execution.Operands
import Mcs8.Proofs.Execution.Refinement
import Mcs8.Proofs.Execution.Ring
import Mcs8.Proofs.Execution.Schedule
import Mcs8.Proofs.Execution.Tick
import Mcs8.Proofs.Execution.Timetable
import Mcs8.Proofs.Processor.Acknowledge
import Mcs8.Proofs.Processor.Core
import Mcs8.Proofs.Processor.Edges
import Mcs8.Proofs.Processor.Encoding
import Mcs8.Proofs.Processor.Pins
import Mcs8.Proofs.Processor.Reachable
import Mcs8.Proofs.Processor.Step
import Mcs8.Proofs.Processor.WellFormed
import Mcs8.Proofs.Text.Columns
import Mcs8.Proofs.Text.Fields
import Mcs8.Proofs.Text.Instruction
import Mcs8.Proofs.Text.Meaning
import Mcs8.Proofs.Text.StepLine
import Mcs8.ReturnStack
import Mcs8.Scratchpad
import Mcs8.Script.Board
import Mcs8.Script.Catalogue
import Mcs8.Script.Class
import Mcs8.Script.Instruction
import Mcs8.Script.Processor
import Mcs8.Script.Session
import Mcs8.Script.Value
import Mcs8.Sequencer
import Mcs8.Synchronizer
import Mcs8.Text.Pen
