import Mcs8.Proofs.Execution.Refinement
import Mcs8.Proofs.Execution.Schedule

/-!
# Boards execute instructions

From the first state of an instruction to the next boundary a board makes one step of the reference
machine, whatever interrupts are requested and however long it waits on the way. The two halves of
the proof meet at `Datapath.instruction`: `datapath_driveAll` leads from the ticks to it, and
`machine_continuation` leads from it to the reference machine.
-/

namespace Mcs8

namespace Board

variable {b : Board}

/-- The board as a reference machine. -/
def machine (b : Board) : Machine := b.datapath.machine

/-- The board with another memory. -/
def withMemory (b : Board) (memory : Vector UInt8 memoryCapacity) : Board := { b with memory }

theorem bounded_datapath (h : b.cpu.Aligned) : b.datapath.Bounded := ⟨h.pc_lt, h.slots_lt⟩

/-- A schedule that takes a consistent board to its next boundary makes it do one instruction. -/
theorem machine_driveAll_of_consistent (h : b.Consistent) (hs : b.startsInstruction)
    {schedule : List Stimulus} (hreach : b.ReachesBoundary schedule) :
    (b.driveAll schedule).machine =
      if b.cpu.state = .t1i then b.machine.interrupt b.interrupter.opcode.toNat
      else b.machine.step := by
  have hbounded := bounded_datapath h.wellFormed.toAligned
  rw [machine, datapath_driveAll h hs.state_ne_stopped hreach, completion_of_startsInstruction h hs]
  split
  next => exact b.datapath.machine_continuation hbounded b.interrupter.opcode
  next =>
    have hstep := b.datapath.advance.machine_continuation hbounded.advance
      (b.datapath.byteAt b.datapath.pc)
    rw [Datapath.machine_advance, ← Datapath.nextByte_machine] at hstep
    exact hstep

/-- **Boards execute the matrix of instructions.** After any history of host actions, with any
memory, and whatever requests and waits come in on the way, a board that starts an instruction has
made one step of the reference machine at the next boundary. The instruction is the one at the
program counter, or in `T1I` the one that the raised interrupt request brings. -/
theorem machine_driveAll {actions : List Action} (ha : ∀ a ∈ actions, a.setsIr = false)
    {memory : Vector UInt8 memoryCapacity} {b : Board}
    (hb : b = (performAll {} actions).withMemory memory) (hs : b.startsInstruction)
    {schedule : List Stimulus} (hreach : b.ReachesBoundary schedule) :
    (b.driveAll schedule).machine =
      if b.cpu.state = .t1i then b.machine.interrupt b.interrupter.opcode.toNat
      else b.machine.step := by
  have hconsistent : b.Consistent := by
    rw [hb]
    exact invariant_consistent.congr (consistent_performAll ha) rfl rfl rfl
  exact machine_driveAll_of_consistent hconsistent hs hreach

/-- A halted board, with a memory of equal bytes, that is about to answer an interrupt with the
opcode of an immediate move to the accumulator. -/
def jammedMove : Board :=
  (performAll {} [.requestInterrupt 0x06, .tick, .tick]).withMemory (.replicate memoryCapacity 0x2a)

/-- Memory is not ready at first, and another interrupt is requested while the processor waits. -/
def waits : List Stimulus :=
  [{}, { ready := false }, { requests := [0x05] }, {}, {}, {}, {}, {}, {}]

theorem jammedMove_executed : jammedMove.ReachesBoundary waits ∧
    (jammedMove.driveAll waits).machine = jammedMove.machine.interrupt 0x06 := by
  have hstate : jammedMove.cpu.state = .t1i := by decide +kernel
  have hopcode : jammedMove.interrupter.opcode.toNat = 0x06 := by decide +kernel
  have hreach : jammedMove.ReachesBoundary waits := by
    constructor <;> decide +kernel
  have hexecuted := machine_driveAll (b := jammedMove) (by decide) rfl (by decide +kernel) hreach
  rw [if_pos hstate, hopcode] at hexecuted
  exact ⟨hreach, hexecuted⟩

end Board

end Mcs8
