import Mcs8.Proofs.Board.Handshake

/-!
# The datapath

What instructions work on, without clock states, bus and interrupts. An instruction is here a
sequence of machine cycles, each of which takes or stores a byte and may have an execute phase;
`Datapath.instruction` puts them together. The work of the execute phase is that of the processor,
which looks at nothing but the datapath and the operation (`prepare_withProcessor`,
`store_withProcessor`).
-/

namespace Mcs8

/-- The registers of the processor that instructions work on, memory and ports. -/
structure Datapath where
  registers : Scratchpad
  flags : Flags
  pc : UInt16
  stack : ReturnStack
  tempA : UInt8
  tempB : UInt8
  memory : Vector UInt8 memoryCapacity
  inputs : Vector UInt8 8
  outputs : Vector UInt8 24
  /-- Every byte written to an output port, with the port, the oldest first. -/
  written : List (Int32 × UInt8)

namespace Datapath

variable (d : Datapath) (o : Operation)

/-- The memory byte at an address, 0 outside of memory. -/
def byteAt (address : UInt16) : UInt8 := d.memory[address.toNat]?.getD 0

/-- Move the program counter on by one byte. -/
def advance : Datapath := { d with pc := (d.pc + 1) % addressSpace }

/-- Take the registers of a processor. -/
def withProcessor (p : Processor) : Datapath :=
  { d with
    registers := p.registers
    flags := p.flags
    pc := p.pc
    stack := p.stack
    tempA := p.tempA
    tempB := p.tempB }

/-- A processor with an operation and the registers of the datapath. -/
def toProcessor : Processor where
  registers := d.registers
  flags := d.flags
  pc := d.pc
  stack := d.stack
  tempA := d.tempA
  tempB := d.tempB
  decoded := ⟨0, o⟩

/-- The work of `T4`. -/
def prepare : Datapath := d.withProcessor (d.toProcessor o).prepareResult

/-- The work of `T5`. -/
def store : Datapath := d.withProcessor (d.toProcessor o).storeResult

theorem prepare_withProcessor (p : Processor) :
    (d.withProcessor p).prepare p.operation = d.withProcessor p.prepareResult := by
  have hoperation : ((d.withProcessor p).toProcessor p.operation).operation = p.operation := rfl
  rw [prepare, Processor.prepareResult, Processor.prepareResult, hoperation]
  cases p.operation with
  | move dst src | alu op src =>
    by_cases h : src = .M
    · simp only [h, if_true]
      rfl
    · simp only [h, if_false]
      rfl
  | _ => rfl

theorem store_withProcessor (p : Processor) :
    (d.withProcessor p).store p.operation = d.withProcessor p.storeResult := by
  have hoperation : ((d.withProcessor p).toProcessor p.operation).operation = p.operation := rfl
  rw [store, Processor.storeResult, Processor.storeResult, hoperation]
  cases p.operation <;> rfl

/-! ### Machine cycles -/

/-- Take an opcode; a jammed one does not come from memory. -/
def takeOpcode (jammed : Bool) : Datapath :=
  { d with pc := if jammed then d.pc else (d.pc + 1) % addressSpace }

/-- The byte that is stored to memory. -/
def storeValue : UInt8 :=
  match o with
  | .moveImmediate _ => d.tempB
  | o => d.registers.read o.src

/-- Read an input port into `b`, or write the accumulator to an output port. -/
def transfer : Datapath :=
  match o with
  | .input port => { d with tempB := d.inputs[port.toNat]?.getD 0 }
  | .output port =>
    { d with
      outputs := d.outputs.setIfInBounds (port.toNat - 8) (d.registers.read .A)
      written := d.written ++ [(.ofInt port.toNat, d.registers.read .A)] }
  | _ => d

/-- What a machine cycle after the first one does in `T3`: fetch an operand, read or write the
memory byte at the pointer, or read or write a port. -/
def access (cycle : Int) : Datapath :=
  match o.cycleKind cycle with
  | .pci =>
    if cycle = 1 then { d.advance with tempB := d.byteAt d.pc }
    else { d.advance with tempA := d.byteAt d.pc }
  | .pcr => { d with tempB := d.byteAt d.registers.pointer }
  | .pcw =>
    { d with memory := d.memory.setIfInBounds d.registers.pointer.toNat (d.storeValue o) }
  | .pcc => d.transfer o

/-- The rest of a machine cycle after its `T3`: the execute phase, if it has one. -/
def finish (cycle : Int) : Datapath :=
  if o.hasExecutePhase cycle (o.condition.holds d.flags) then (d.prepare o).store o else d

/-- The last machine cycles of an instruction, as many as the given number. -/
def lastCycles (o : Operation) : Nat → Datapath → Datapath
  | 0, d => d
  | n + 1, d =>
    let cycle := o.cycleCount - (n + 1 : Int)
    lastCycles o n ((d.access o cycle).finish o cycle)

/-- All that follows the `T3` of a machine cycle. -/
def continuation (cycle : Nat) : Datapath :=
  lastCycles o (o.cycleCount - (cycle + 1)) (d.finish o cycle)

/-- A whole instruction. -/
def instruction (jammed : Bool) : Datapath := (d.takeOpcode jammed).continuation o 0

/-! ### Parts of an instruction -/

/-- A machine cycle without an execute phase ends with `T3`. -/
theorem finish_of_not_executes {cycle : Int}
    (h : o.hasExecutePhase cycle (o.condition.holds d.flags) = false) : d.finish o cycle = d := by
  rw [finish, h, if_neg Bool.false_ne_true]

theorem finish_of_executes {cycle : Int}
    (h : o.hasExecutePhase cycle (o.condition.holds d.flags) = true) :
    d.finish o cycle = (d.prepare o).store o := by
  rw [finish, h, if_pos rfl]

/-- Nothing follows the last machine cycle. -/
theorem continuation_of_last {cycle : Nat} (h : o.cycleCount ≤ cycle + 1) :
    d.continuation o cycle = d.finish o cycle := by
  rw [continuation, Nat.sub_eq_zero_of_le h]
  rfl

/-- The last machine cycles begin with the first one of them. -/
theorem lastCycles_of_lt {cycle : Nat} (h : cycle < o.cycleCount) :
    lastCycles o (o.cycleCount - cycle) d = (d.access o cycle).continuation o cycle := by
  have hlast : o.cycleCount - cycle = o.cycleCount - (cycle + 1) + 1 := by omega
  have hcycle : (o.cycleCount : Int) - ((o.cycleCount - (cycle + 1) : Nat) + 1 : Int) = cycle := by
    omega
  rw [hlast, lastCycles]
  simp only [hcycle]
  rfl

end Datapath

end Mcs8
