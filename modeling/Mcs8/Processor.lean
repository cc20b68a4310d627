import Mcs8.ReturnStack
import Mcs8.Bus
import Mcs8.Instruction.Decode
import Mcs8.Synchronizer

/-!
# The processor

One step of the processor is one clock state. It samples its pins, does the work of the state that
it is in (take a byte from the bus in `T3`, execute in `T4` and `T5`), lets the sequencer choose the
next state, and sets up the next machine cycle when that state begins one. Two temporary registers
carry bytes from one state to a later one: `a` the high byte of an address, `b` data or a low byte.
-/

namespace Mcs8

/-- All that a processor remembers from one clock state to the next. -/
structure ProcessorState where
  state : TState := .stopped
  /-- The kind of the running machine cycle. -/
  cycleKind : CycleKind := .pci
  /-- The byte last sampled on the bus. -/
  busSample : UInt8 := 0
  /-- The ready line as last sampled. -/
  readySample : Bool := true
  /-- The interrupt line as last sampled. -/
  interruptSample : Bool := false
  registers : Scratchpad := {}
  flags : Flags := {}
  /-- The program counter, 14 bits. -/
  pc : UInt16 := 0
  stack : ReturnStack := {}
  /-- The instruction register. -/
  ir : UInt8 := 0
  /-- Temporary register `a`. -/
  tempA : UInt8 := 0
  /-- Temporary register `b`. -/
  tempB : UInt8 := 0
  /-- The number of the running machine cycle within its instruction. -/
  cycleNumber : Int32 := 0
  /-- The running machine cycle goes on to `T4` and `T5`. -/
  executes : Bool := false
  /-- The condition of the instruction, as found in `T3`. -/
  conditionHeld : Bool := false
  /-- The running machine cycle acknowledges an interrupt. -/
  isAcknowledge : Bool := false
  /-- The next machine cycle acknowledges an interrupt. -/
  accepted : Bool := false
  synchronizer : Synchronizer := {}
  /-- The number of steps made. -/
  cycles : UInt64 := 0
  deriving DecidableEq

namespace ProcessorState

variable (s : ProcessorState)

/-- Set a register. -/
def setRegister (r : Register) (value : UInt8) : ProcessorState :=
  { s with registers := s.registers.write r value }

/-- Set the program counter, modulo the address space. -/
def setPc (pc : UInt16) : ProcessorState := { s with pc := pc % addressSpace }

/-- Move the program counter on by one byte. -/
def advancePc : ProcessorState := s.setPc (s.pc + 1)

/-- The address that the running machine cycle sends out: the program counter in a fetch, the
memory pointer in a read or write, and in an input or output cycle the accumulator below the low
six bits of the instruction register. -/
def sentAddress : UInt16 :=
  if s.state = .t1i then s.pc
  else
    match s.cycleKind with
    | .pci => s.pc
    | .pcr | .pcw => s.registers.pointer
    | .pcc => addressOf s.ir (s.registers.read .A)

end ProcessorState

/-- A processor: its state, the decoded instruction register, and whether it announces its steps. -/
structure Processor extends ProcessorState where
  /-- What the instruction register holds, decoded. -/
  decoded : Descriptor := decode 0
  announces : Bool := false

namespace Processor

variable (p : Processor)

/-- Take over a state and decode its instruction register. -/
def load (s : ProcessorState) : Processor :=
  { p with toProcessorState := s, decoded := decode s.ir }

/-- Go back to the state after power is switched on, which waits in `STOPPED` for an interrupt. -/
def reset : Processor := p.load {}

/-- Set and decode the instruction register. -/
def setIr (ir : UInt8) : Processor := { p with ir, decoded := decode ir }

/-- The operation in the instruction register. -/
def operation : Operation := p.decoded.operation

/-! ### The bus -/

/-- The byte that the processor stores to memory. -/
def storeValue : UInt8 :=
  match p.operation with
  | .moveImmediate _ => p.tempB
  | o => p.registers.read o.src

/-- What the processor puts on the bus: the halves of the address, the second one with the kind of
the machine cycle, and the byte of a store. -/
def offer : BusOffer :=
  match p.state with
  | .t1 | .t1i => ⟨true, (p.sentAddress % 256).toUInt8⟩
  | .t2 => ⟨true, UInt8.ofNat p.cycleKind.code * 64 + (p.sentAddress / 256).toUInt8 % 64⟩
  | .t3 => if p.cycleKind = .pcw then ⟨true, p.storeValue⟩ else {}
  | _ => {}

/-! ### The work of a state -/

/-- Sample the pins. -/
def sample (bus : UInt8) (ready interrupt : Bool) : Processor :=
  { p with
    synchronizer := p.synchronizer.clock interrupt
    busSample := bus
    readySample := ready
    interruptSample := interrupt }

/-- Take the opcode. An opcode that answers an interrupt acknowledge does not come from memory,
and the program counter stays. -/
def takeOpcode (bus : UInt8) : Processor :=
  let p := p.setIr bus
  if p.isAcknowledge then p else { p with toProcessorState := p.advancePc }

/-- Take a byte that follows the opcode: the first one into `b`, the second one into `a`. -/
def takeOperand (bus : UInt8) : Processor :=
  let s := if p.cycleNumber = 1 then { p.toProcessorState with tempB := bus }
    else { p.toProcessorState with tempA := bus }
  { p with toProcessorState := s.advancePc }

/-- Take the byte on the bus, as the machine cycle asks. -/
def latchByte (bus : UInt8) : Processor :=
  match p.cycleKind with
  | .pci => if p.cycleNumber = 0 then p.takeOpcode bus else p.takeOperand bus
  | .pcr => { p with tempB := bus }
  | .pcw => p
  | .pcc =>
    match p.operation with
    | .input _ => { p with tempB := bus }
    | _ => p

/-- Find out whether the condition holds and whether there is an execute phase. -/
def resolveCondition : Processor :=
  let met := p.operation.condition.holds p.flags
  { p with
    conditionHeld := met
    executes := p.operation.hasExecutePhase p.cycleNumber.toInt met }

/-- The fetch of a halt instruction ends. -/
def halts : Bool :=
  p.state = .t3 && p.cycleKind = .pci && p.cycleNumber = 0 && p.operation = .halt

/-- The last machine cycle of an instruction is a fetch, and an interrupt waits at its `T3`. -/
def accepts : Bool :=
  p.cycleKind = .pci && p.cycleNumber.toInt + 1 = p.operation.cycleCount && p.synchronizer.pending

/-- The work of `T3`: take the byte, decide about the execute phase, and accept an interrupt at the
end of an instruction. -/
def takeByte (bus : UInt8) : Processor :=
  let p := (p.latchByte bus).resolveCondition
  if p.halts then p
  else if p.accepts then { p with accepted := true }
  else p

/-- The work of `T4`: bring an operand into `b`, or exchange an address with the stack. -/
def prepareResult : Processor :=
  match p.operation with
  | .move _ src | .alu _ src =>
    if src = .M then p else { p with tempB := p.registers.read src }
  | .increment reg | .decrement reg => { p with tempB := p.registers.read reg }
  | .call _ | .restart _ => { p with stack := p.stack.push p.pc }
  | .ret _ =>
    { p with
      stack := p.stack.pop
      tempB := (p.stack.top % 256).toUInt8
      tempA := (p.stack.top / 256).toUInt8 % 64 }
  | _ => p

/-- Store the flags of a result, and its byte if it is to be written back. -/
def storeOutput (r : AluOutput) (dst : Register) : Processor :=
  { p with
    flags := r.flags
    registers := if r.isStored then p.registers.write dst r.value else p.registers }

/-- The work of `T5`: store the result of the instruction. -/
def storeResult : Processor :=
  match p.operation with
  | .move dst _ | .moveImmediate dst => { p with registers := p.registers.write dst p.tempB }
  | .increment reg => p.storeOutput (Alu.increment p.tempB p.flags) reg
  | .decrement reg => p.storeOutput (Alu.decrement p.tempB p.flags) reg
  | .alu op _ | .aluImmediate op =>
    p.storeOutput (Alu.apply op (p.registers.read .A) p.tempB p.flags) .A
  | .rotate op => p.storeOutput (Alu.rotate op (p.registers.read .A) p.flags) .A
  | .jump _ | .call _ | .ret _ => { p with pc := addressOf p.tempA p.tempB }
  | .restart vector => { p with pc := vector.toUInt16 * 8 }
  | .input _ => { p with registers := p.registers.write .A p.tempB }
  | .halt | .output _ | .undefined => p

/-- The work of the state that the processor is in. -/
def work (bus : UInt8) : Processor :=
  match p.state with
  | .t3 => p.takeByte bus
  | .t4 => p.prepareResult
  | .t5 => p.storeResult
  | _ => p

/-! ### Steps -/

/-- Start an interrupt acknowledge: a machine cycle of its own, numbered 0. -/
def startAcknowledge : Processor :=
  { p with
    executes := false
    conditionHeld := false
    synchronizer := p.synchronizer.acknowledge
    isAcknowledge := true
    accepted := false
    cycleNumber := 0
    cycleKind := .pci }

/-- Start the next machine cycle of the instruction, or the first one of the next instruction. -/
def startCycle : Processor :=
  let last := p.operation.cycleCount ≤ p.cycleNumber.toInt + 1
  let next := if last then 0 else p.cycleNumber + 1
  { p with
    executes := false
    conditionHeld := false
    isAcknowledge := false
    cycleNumber := next
    cycleKind := p.operation.cycleKind next.toInt }

/-- What the sequencer looks at after the work of a state. -/
def boundarySignals (ready : Bool) : BoundarySignals where
  ready := ready
  interrupt := p.synchronizer.pending
  executes := p.executes
  halt := p.halts
  acknowledge := p.accepted

/-- Enter a state. -/
def enter (next : TState) : Processor :=
  let p :=
    match next with
    | .t1i => p.startAcknowledge
    | .t1 => p.startCycle
    | _ => p
  { p with state := next, cycles := p.cycles + 1 }

/-- One clock state, with the byte on the bus and the levels of the ready and interrupt lines. -/
def step (bus : UInt8) (ready interrupt : Bool) : Processor :=
  let p := (p.sample bus ready interrupt).work bus
  p.enter (p.state.next (p.boundarySignals ready))

end Processor

end Mcs8
