import Mcs8.Board.Run
import Mcs8.Proofs.Processor.Step

/-!
# One tick of the board

A tick settles the bus, clocks the processor and carries out a write or an acknowledge. The
equations here say field by field what it leaves; processor, latch and interrupting device, the
parts that the protocol of the bus is about, are each a function of what the tick begins with.
-/

namespace Mcs8

namespace Board

variable (b : Board)

/-- What the processor finds at its pins in a tick. -/
def pins : Pins where
  bus := b.settle.bus
  ready := b.readyLevel
  interrupt := b.interrupter.raiseLine.line

theorem settle_bus : b.settle.bus = (b.offers.resolve b.bus).2 := rfl

theorem settle_owner : b.settle.owner = (b.offers.resolve b.bus).1 := rfl

theorem settle_latch : b.settle.latch = b.latch.update b.cpu.state b.settle.bus := rfl

theorem record_frame : b.record = { b with trace := b.record.trace } := by
  unfold record
  split <;> rfl

theorem writeCycle_frame :
    b.writeCycle = { b with memory := b.writeCycle.memory, ports := b.writeCycle.ports } := by
  unfold writeCycle
  split
  · rfl
  · split <;> rfl
  · rfl
  · rfl

theorem carryOut_frame (state : TState) : b.carryOut state =
    { b with
      memory := (b.carryOut state).memory
      ports := (b.carryOut state).ports
      interrupter := (b.carryOut state).interrupter } := by
  unfold carryOut
  split
  · rw [writeCycle_frame]
  · rfl
  · rfl

theorem interrupter_carryOut (state : TState) : (b.carryOut state).interrupter =
    if state = .t1i then b.interrupter.withdraw else b.interrupter := by
  cases state with
  | t3 =>
    show b.writeCycle.interrupter = b.interrupter
    rw [writeCycle_frame]
  | _ => rfl

/-- The board of a tick with the bus settled and the processor clocked. -/
def clocked : Board := b.settle.record.clock

theorem clocked_frame : b.clocked =
    { b.settle with
      cpu := b.cpu.stepWith b.pins
      interrupter := b.interrupter.raiseLine.arm
      trace := b.settle.record.trace } := by
  rw [clocked, clock, record_frame]
  rfl

@[simp] theorem cpu_clocked : b.clocked.cpu = b.cpu.stepWith b.pins := by rw [clocked_frame]

@[simp] theorem latch_clocked : b.clocked.latch = b.latch.update b.cpu.state b.settle.bus := by
  rw [clocked_frame, settle_latch]

@[simp] theorem interrupter_clocked :
    b.clocked.interrupter = b.interrupter.raiseLine.arm := by rw [clocked_frame]

theorem tick_eq : b.tick =
    { b.clocked.carryOut b.cpu.state with ticks := (b.clocked.carryOut b.cpu.state).ticks + 1 } :=
  rfl

@[simp] theorem cpu_tick : b.tick.cpu = b.cpu.stepWith b.pins := by
  rw [tick_eq, carryOut_frame, cpu_clocked]

@[simp] theorem latch_tick : b.tick.latch = b.latch.update b.cpu.state b.settle.bus := by
  rw [tick_eq, carryOut_frame, latch_clocked]

@[simp] theorem bus_tick : b.tick.bus = b.settle.bus := by
  rw [tick_eq, carryOut_frame, clocked_frame]

@[simp] theorem owner_tick : b.tick.owner = b.settle.owner := by
  rw [tick_eq, carryOut_frame, clocked_frame]

@[simp] theorem ticks_tick : b.tick.ticks = b.ticks + 1 := by
  rw [tick_eq, carryOut_frame, clocked_frame]
  rfl

/-- The device raises its line before the clock, arms itself after it, and withdraws its request in
`T1I`. -/
theorem interrupter_tick : b.tick.interrupter =
    if b.cpu.state = .t1i then b.interrupter.raiseLine.arm.withdraw
    else b.interrupter.raiseLine.arm := by
  rw [tick_eq, ← interrupter_clocked]
  exact b.clocked.interrupter_carryOut b.cpu.state

end Board

end Mcs8
