import Mcs8.Board

/-!
# Saved boards

A snapshot holds what a board needs to go on running: processor, ports, memory, latch, interrupting
device, bus and tick count. Breakpoints, trace and messages are not part of it. A snapshot can be
taken apart, so its processor and its ports may be missing and its memory may have any size; such a
snapshot is refused when a board is to take it over.
-/

namespace Mcs8

/-- A saved board. -/
structure Snapshot where
  cpu : Option ProcessorState := some {}
  ports : Option PortBank := some {}
  memory : Array UInt8 := .replicate memoryCapacity 0
  latch : BusLatch := {}
  interrupter : Interrupter := {}
  bus : UInt8 := 0
  owner : BusOwner := .none
  readyLevel : Bool := true
  ticks : UInt64 := 0
  deriving DecidableEq

namespace Snapshot

/-- A memory with another number of bytes; bytes that are added are 0. -/
def resizeMemory (size : Nat) (memory : Array UInt8) : Array UInt8 :=
  memory.take size ++ .replicate (size - memory.size) 0

/-- Change the number of bytes of memory. -/
def resize (s : Snapshot) (size : Nat) : Snapshot :=
  { s with memory := resizeMemory size s.memory }

end Snapshot

namespace Board

/-- Save a board. -/
def snapshot (b : Board) : Snapshot where
  cpu := some b.cpu.toProcessorState
  ports := some b.ports.toPortBank
  memory := b.memory.toArray
  latch := b.latch
  interrupter := b.interrupter
  bus := b.bus
  owner := b.owner
  readyLevel := b.readyLevel
  ticks := b.ticks

/-- Take over a snapshot; breakpoints, trace and messages stay. -/
def restore (b : Board) (s : Snapshot) : Except BoardError Board :=
  match s.cpu, s.ports with
  | some cpu, some ports =>
    if h : s.memory.size = memoryCapacity then
      .ok { b with
        cpu := b.cpu.load cpu
        ports := b.ports.load ports
        memory := ⟨s.memory, h⟩
        latch := s.latch
        interrupter := s.interrupter
        bus := s.bus
        owner := s.owner
        readyLevel := s.readyLevel
        ticks := s.ticks }
    else .error .unusable
  | _, _ => .error .unusable

end Board

end Mcs8
