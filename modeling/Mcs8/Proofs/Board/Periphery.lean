import Mcs8.Proofs.Execution.Schedule
import Mcs8.Proofs.Processor.Core

/-!
# The periphery of the processor

Memory, ports, bus, address latch and the answer of the interrupting device are what a board has
around its processor. A tick changes them by what they are and by the core of the processor alone
(`SamePeriphery.tick`), so two boards whose cores go the same way have the same periphery for good,
whenever their ticks happen and whatever comes from the ready and interrupt lines.

The ticks themselves show in one place, the record of writes, where each write has its tick;
`Ports.untimed` leaves them out.
-/

namespace Mcs8

namespace Ports

/-- The ports with all writes recorded at tick 0. -/
def untimed (p : Ports) : Ports :=
  { p with log := p.log.map fun record ↦ { record with tick := 0 } }

theorem untimed_write (p : Ports) (port : Int) (value : UInt8) (tick : UInt64) :
    (p.load (p.write port value tick)).untimed =
      p.untimed.load (p.untimed.write port value 0) := by
  unfold PortBank.write
  split
  · simp [untimed, load]
  · rfl

/-- The bytes written to output ports, with the ports, do not depend on the times. -/
theorem log_untimed (p : Ports) :
    (p.untimed.log.toList.map fun record ↦ (record.port, record.value)) =
      p.log.toList.map fun record ↦ (record.port, record.value) := by
  simp [untimed]

end Ports

namespace Board

variable {x y z : Board}

/-- The boards differ in nothing that surrounds their processors and takes part in the work. -/
structure SamePeriphery (x y : Board) : Prop where
  memory_eq : x.memory = y.memory
  ports_eq : x.ports.untimed = y.ports.untimed
  latch_eq : x.latch = y.latch
  bus_eq : x.bus = y.bus
  answer_eq : x.interrupter.answer = y.interrupter.answer

namespace SamePeriphery

theorem refl (x : Board) : x.SamePeriphery x := ⟨rfl, rfl, rfl, rfl, rfl⟩

theorem symm (h : x.SamePeriphery y) : y.SamePeriphery x :=
  ⟨h.1.symm, h.2.symm, h.3.symm, h.4.symm, h.5.symm⟩

theorem trans (h : x.SamePeriphery y) (h' : y.SamePeriphery z) : x.SamePeriphery z :=
  ⟨h.1.trans h'.1, h.2.trans h'.2, h.3.trans h'.3, h.4.trans h'.4, h.5.trans h'.5⟩

theorem inputs_eq (h : x.SamePeriphery y) : x.ports.inputs = y.ports.inputs :=
  show x.ports.untimed.inputs = y.ports.untimed.inputs by rw [h.ports_eq]

theorem outputs_eq (h : x.SamePeriphery y) : x.ports.outputs = y.ports.outputs :=
  show x.ports.untimed.outputs = y.ports.untimed.outputs by rw [h.ports_eq]

theorem written_eq (h : x.SamePeriphery y) : x.datapath.written = y.datapath.written := by
  have hlog := x.ports.log_untimed
  rw [h.ports_eq, Ports.log_untimed] at hlog
  exact hlog.symm

theorem addressedPort_eq (h : x.SamePeriphery y) : x.addressedPort = y.addressedPort := by
  rw [addressedPort, addressedPort, h.latch_eq]

/-- What the devices offer depends on the periphery and the core of the processor. -/
theorem offers_eq (h : x.SamePeriphery y) (hcore : x.cpu.core = y.cpu.core) :
    x.offers = y.offers := by
  have hoffer : x.cpu.offer = y.cpu.offer := by
    rw [← x.cpu.offer_core, hcore, y.cpu.offer_core]
  have hstate : x.cpu.state = y.cpu.state := congrArg (·.state) hcore
  have hbyte : x.addressedByte = y.addressedByte := by
    simp only [addressedByte, h.memory_eq, h.latch_eq]
  have hread : x.ports.read x.addressedPort = y.ports.read y.addressedPort := by
    rw [PortBank.read, PortBank.read, h.inputs_eq, h.addressedPort_eq]
  rw [offers, offers, hoffer, hstate, h.latch_eq, h.answer_eq, hbyte, hread, h.addressedPort_eq]

theorem settle_bus_eq (h : x.SamePeriphery y) (hcore : x.cpu.core = y.cpu.core) :
    x.settle.bus = y.settle.bus := by
  rw [settle_bus, settle_bus, h.offers_eq hcore, h.bus_eq]

theorem settle_owner_eq (h : x.SamePeriphery y) (hcore : x.cpu.core = y.cpu.core) :
    x.settle.owner = y.settle.owner := by
  rw [settle_owner, settle_owner, h.offers_eq hcore, h.bus_eq]

/-- Ticks keep peripheries equal, as long as both devices have the same answer. -/
theorem tick (h : x.SamePeriphery y) (hcore : x.cpu.core = y.cpu.core)
    (hanswer : x.tick.interrupter.answer = y.tick.interrupter.answer) :
    x.tick.SamePeriphery y.tick where
  memory_eq := by
    have hstate : x.cpu.state = y.cpu.state := congrArg (·.state) hcore
    rw [memory_tick, memory_tick, h.latch_eq, h.memory_eq, hstate, h.settle_bus_eq hcore]
  ports_eq := by
    have hstate : x.cpu.state = y.cpu.state := congrArg (·.state) hcore
    rw [ports_tick, ports_tick, h.addressedPort_eq, h.latch_eq, hstate]
    split
    · rw [Ports.untimed_write, Ports.untimed_write, h.ports_eq]
    · exact h.ports_eq
  latch_eq := by
    have hstate : x.cpu.state = y.cpu.state := congrArg (·.state) hcore
    rw [latch_tick, latch_tick, h.latch_eq, hstate, h.settle_bus_eq hcore]
  bus_eq := by
    rw [bus_tick, bus_tick, h.settle_bus_eq hcore]
  answer_eq := hanswer

end SamePeriphery

/-- A tick does to the core what the bus and the state that is entered ask for. -/
theorem core_tick_eq (h : x.SamePeriphery y) (hcore : x.cpu.core = y.cpu.core)
    (hstate : x.tick.cpu.state = y.tick.cpu.state) : x.tick.cpu.core = y.tick.cpu.core := by
  have hbus : x.pins.bus = y.pins.bus := h.settle_bus_eq hcore
  rw [cpu_tick, cpu_tick] at hstate ⊢
  rw [Processor.core_stepWith, Processor.core_stepWith, hcore, hbus, hstate]

/-! ### Boards without interrupts -/

/-- No interrupt is on its way to the processor: none waits or is on the line, none is in the
flip-flops or latched, and none is accepted. -/
structure Idle (b : Board) : Prop where
  line_eq : b.interrupter.line = false
  waiting_eq : b.interrupter.waiting = false
  first_eq : b.cpu.synchronizer.first = false
  second_eq : b.cpu.synchronizer.second = false
  request_eq : b.cpu.synchronizer.request = false
  accepted_eq : b.cpu.accepted = false

instance (b : Board) : Decidable b.Idle :=
  decidable_of_iff
    (b.interrupter.line = false ∧ b.interrupter.waiting = false ∧ b.cpu.synchronizer.first = false ∧
      b.cpu.synchronizer.second = false ∧ b.cpu.synchronizer.request = false ∧
      b.cpu.accepted = false)
    ⟨fun ⟨h₁, h₂, h₃, h₄, h₅, h₆⟩ ↦ ⟨h₁, h₂, h₃, h₄, h₅, h₆⟩,
      fun ⟨h₁, h₂, h₃, h₄, h₅, h₆⟩ ↦ ⟨h₁, h₂, h₃, h₄, h₅, h₆⟩⟩

namespace Idle

variable {b : Board}

theorem raiseLine_eq (h : b.Idle) : b.interrupter.raiseLine = b.interrupter := by
  rw [Interrupter.raiseLine, h.waiting_eq]
  rfl

theorem interrupt_pins (h : b.Idle) : b.pins.interrupt = false := by
  rw [pins, h.raiseLine_eq, h.line_eq]

theorem clock_eq (h : b.Idle) : b.cpu.synchronizer.clock b.pins.interrupt = {} := by
  rw [Synchronizer.clock, h.interrupt_pins, h.first_eq, h.second_eq, h.request_eq]
  rfl

theorem accepted_worked (h : b.Idle) : (b.cpu.worked b.pins).accepted = false :=
  Processor.accepted_worked_of_not_pending h.accepted_eq (by rw [h.clock_eq]; rfl)

/-- Without interrupts, the ready line and the core decide where a tick leads. -/
theorem state_tick (h : b.Idle) : b.tick.cpu.state = b.cpu.state.next
    { ready := b.readyLevel
      executes := (b.cpu.core.work b.settle.bus).executes
      halt := (b.cpu.core.work b.settle.bus).halts } := by
  rw [cpu_tick, Processor.state_stepWith, h.clock_eq, h.accepted_worked]
  rfl

theorem synchronizer_tick (h : b.Idle) : b.tick.cpu.synchronizer = {} := by
  rw [cpu_tick, Processor.synchronizer_stepWith, h.clock_eq]
  split <;> rfl

theorem interrupter_tick (h : b.Idle) : b.tick.interrupter = b.interrupter.arm := by
  have hline : b.interrupter.arm.line = false := by
    unfold Interrupter.arm
    split <;> exact h.line_eq
  rw [Board.interrupter_tick, h.raiseLine_eq, Interrupter.withdraw, hline]
  split <;> rfl

theorem answer_tick (h : b.Idle) : b.tick.interrupter.answer = b.interrupter.answer := by
  rw [h.interrupter_tick, Interrupter.answer_arm]

theorem tick (h : b.Idle) : b.tick.Idle := by
  have haccepted : b.tick.cpu.accepted = false := by
    rw [cpu_tick, Processor.stepWith_eq, Processor.accepted_enter, h.accepted_worked]
    exact Bool.and_false _
  constructor
  · rw [h.interrupter_tick, Interrupter.arm]
    split <;> exact h.line_eq
  · rw [h.interrupter_tick, Interrupter.arm]
    split <;> exact h.waiting_eq
  · rw [h.synchronizer_tick]
  · rw [h.synchronizer_tick]
  · rw [h.synchronizer_tick]
  · exact haccepted

end Idle

end Board

end Mcs8
