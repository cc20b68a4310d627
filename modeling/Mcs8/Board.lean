import Mcs8.Board.Breakpoints
import Mcs8.Board.Error
import Mcs8.Board.Interrupter
import Mcs8.Board.Trace
import Mcs8.Ports
import Mcs8.Processor

/-!
# The board

A processor with 16384 bytes of memory, ports, an interrupting device and an address latch on one
bus. One tick settles the bus, collects the address, clocks the processor, and carries out what the
machine cycle asks for: a memory byte is written and a port is latched in `T3`, and a request is
withdrawn when its acknowledge begins.
-/

namespace Mcs8

/-- The number of bytes of memory. -/
abbrev memoryCapacity : Nat := 0x4000

/-- A board with what helps to observe it: breakpoints, a trace of the bus, and the level of its
messages. -/
structure Board where
  cpu : Processor := {}
  ports : Ports := {}
  memory : Vector UInt8 memoryCapacity := .replicate memoryCapacity 0
  latch : BusLatch := {}
  interrupter : Interrupter := {}
  /-- The byte on the bus. -/
  bus : UInt8 := 0
  /-- The device whose byte is on the bus. -/
  owner : BusOwner := .none
  readyLevel : Bool := true
  /-- The number of ticks since the last reset. -/
  ticks : UInt64 := 0
  breakpoints : Breakpoints := {}
  /-- Stop at the next instruction. -/
  breakOnNext : Bool := false
  tracing : Bool := false
  trace : Array BusRecord := #[]
  messageLevel : Int := 0

namespace Board

variable (b : Board)

/-! ### Ticks -/

/-- The memory byte at the collected address. -/
def addressedByte : UInt8 :=
  have := b.latch.address_lt
  b.memory[b.latch.address.toNat]

/-- The port of the machine cycle. -/
def addressedPort : Int := b.latch.port.toNat

/-- What the devices offer: memory answers fetches and reads, an input port answers its input
cycle, and the interrupting device answers the fetch of an acknowledge, each in `T3`. -/
def offers : BusOffers :=
  let cpu := b.cpu.offer
  if b.cpu.state = .t3 then
    match b.latch.kind with
    | .pci =>
      { cpu
        interrupt := if b.latch.acknowledge then ⟨true, b.interrupter.answer⟩ else {}
        memory := ⟨true, b.addressedByte⟩ }
    | .pcr => { cpu, memory := ⟨true, b.addressedByte⟩ }
    | .pcw => { cpu }
    | .pcc =>
      if PortBank.isInput b.addressedPort then
        { cpu, io := ⟨true, b.ports.read b.addressedPort⟩ }
      else { cpu }
  else { cpu }

/-- Settle the bus and collect the address. -/
def settle : Board :=
  let (owner, bus) := b.offers.resolve b.bus
  { b with owner, bus, latch := b.latch.update b.cpu.state bus }

/-- The record of a settled bus. -/
def busRecord : BusRecord where
  tick := b.ticks
  state := b.cpu.state
  cycleKind := b.cpu.cycleKind
  bus := b.bus
  owner := b.owner

/-- Record the settled bus if the trace is on. -/
def record : Board :=
  if b.tracing then { b with trace := b.trace.push b.busRecord } else b

/-- Clock the processor with the settled bus. -/
def clock : Board :=
  let interrupter := b.interrupter.raiseLine
  { b with
    cpu := b.cpu.step b.bus b.readyLevel interrupter.line
    interrupter := interrupter.arm }

/-- Carry out the write of a machine cycle that is in `T3`: store the byte on the bus, or latch the
byte that was sent as the low half of the address. -/
def writeCycle : Board :=
  match b.latch.kind with
  | .pcw =>
    have := b.latch.address_lt
    { b with memory := b.memory.set b.latch.address.toNat b.bus }
  | .pcc =>
    if PortBank.isInput b.addressedPort then b
    else
      let state := b.ports.write b.addressedPort b.latch.low b.ticks
      { b with ports := b.ports.load state }
  | .pci | .pcr => b

/-- Carry out what a tick that began in `state` asks of the board. -/
def carryOut (state : TState) : Board :=
  match state with
  | .t3 => b.writeCycle
  | .t1i => { b with interrupter := b.interrupter.withdraw }
  | _ => b

/-- One clock state of the board. -/
def tick : Board :=
  let state := b.cpu.state
  let b := b.settle.record.clock.carryOut state
  { b with ticks := b.ticks + 1 }

/-! ### Memory -/

/-- Store bytes one after the other from an address on. -/
def storeBytes (memory : Vector UInt8 memoryCapacity) (address : Nat) :
    List UInt8 → Vector UInt8 memoryCapacity
  | [] => memory
  | byte :: rest => storeBytes (memory.setIfInBounds address byte) (address + 1) rest

/-- Copy bytes into memory from the address `origin` on. -/
def load (bytes : List UInt8) (origin : UInt16) : Except BoardError Board :=
  if memoryCapacity ≤ origin.toNat then .error .noSuchAddress
  else if memoryCapacity - origin.toNat < bytes.length then .error .doesNotFit
  else .ok { b with memory := storeBytes b.memory origin.toNat bytes }

/-- The memory byte at an address. -/
def peek (address : UInt16) : Except BoardError UInt8 :=
  if h : address.toNat < memoryCapacity then .ok b.memory[address.toNat]
  else .error .noSuchAddress

/-- Change the memory byte at an address. -/
def poke (address : UInt16) (value : UInt8) : Except BoardError Board :=
  if h : address.toNat < memoryCapacity then
    .ok { b with memory := b.memory.set address.toNat value }
  else .error .noSuchAddress

/-! ### Pins and devices -/

/-- Request an interrupt that is answered with an opcode. -/
def requestInterrupt (opcode : UInt8) : Board :=
  { b with interrupter := b.interrupter.request opcode }

/-- The opcode of the restart with the vector in the low three bits of a number. -/
def restartOpcode (vector : Int) : UInt8 := .ofInt (vector % 8 * 8 + 5)

/-- Request an interrupt that is answered with a restart. -/
def requestRestart (vector : Int) : Board := b.requestInterrupt (restartOpcode vector)

/-- Set the level of the ready line. -/
def setReady (ready : Bool) : Board := { b with readyLevel := ready }

/-- Set the byte at an input port. -/
def setInput (port : Int) (value : UInt8) : Board :=
  { b with ports := b.ports.load (b.ports.setInput port value) }

/-- Switch the power on: processor, ports and devices are cleared, and so is the trace. Memory is
kept. -/
def reset : Board :=
  { b with
    cpu := b.cpu.reset
    ports := b.ports.reset
    latch := {}
    interrupter := {}
    bus := 0
    owner := .none
    readyLevel := true
    ticks := 0
    trace := #[] }

/-! ### Observation -/

/-- Set a breakpoint. -/
def setBreakpoint (address : UInt16) (temporary : Bool) : Board :=
  { b with breakpoints := b.breakpoints.set address temporary }

/-- Clear a breakpoint. -/
def clearBreakpoint (address : UInt16) (temporary : Bool) : Board :=
  { b with breakpoints := b.breakpoints.clear address temporary }

/-- Set the level of the messages: from 1 on the board announces its events, from 2 on also writes
to ports, from 3 on also the steps of the processor. -/
def setMessageLevel (level : Int) : Board :=
  { b with
    messageLevel := level
    ports := { b.ports with announces := 2 ≤ level }
    cpu := { b.cpu with announces := 3 ≤ level } }

end Board

end Mcs8
