import Mathlib.Data.List.Induction
import Mcs8.Proofs.Board.Periphery
import Mcs8.Proofs.Board.Reachable

/-!
# Precise interrupts

A request goes through the interrupt logic of the processor while the processor works on. Two boards
that start alike, one that meets requests and one that meets none, differ in nothing but the
interrupt logic until the first acknowledge begins (`Unnoticed.tick`), and there the other one is
between two instructions (`Unnoticed.betweenInstructions`). So what the acknowledge finds is what
the instructions before it have left, and what the instruction after it would have found.
-/

namespace Mcs8

namespace TState

/-- Without an acknowledge the sequencer goes where it goes without interrupts. -/
theorem next_of_ne_t1i {s : TState} {g : BoundarySignals} (h : s.next g ≠ .t1i) :
    s.next g = s.next { ready := g.ready, executes := g.executes, halt := g.halt } := by
  cases s <;> simp only [next, cycleStart] at h ⊢ <;> grind

end TState

namespace Board

variable {x y : Board}

/-- The boards agree on all that is not interrupt logic: on the processor but for its synchronizer,
its sample of the interrupt line and the flag of an accepted interrupt, on memory, ports, address
latch and bus, and on the number of ticks. -/
structure AgreeButForInterrupts (x y : Board) : Prop where
  cpu_eq : { x.cpu with
    synchronizer := y.cpu.synchronizer
    interruptSample := y.cpu.interruptSample
    accepted := y.cpu.accepted } = y.cpu
  memory_eq : x.memory = y.memory
  ports_eq : x.ports = y.ports
  latch_eq : x.latch = y.latch
  bus_eq : x.bus = y.bus
  owner_eq : x.owner = y.owner
  ticks_eq : x.ticks = y.ticks

/-- A program cannot tell the boards apart. -/
structure SameProgramState (x y : Board) : Prop where
  registers_eq : x.cpu.registers = y.cpu.registers
  flags_eq : x.cpu.flags = y.cpu.flags
  pc_eq : x.cpu.pc = y.cpu.pc
  stack_eq : x.cpu.stack = y.cpu.stack
  memory_eq : x.memory = y.memory
  ports_eq : x.ports = y.ports

/-- Requests have come to the board `x`, but not to the board `y`, and have not been noticed by the
instructions. -/
structure Unnoticed (x y : Board) : Prop extends AgreeButForInterrupts x y where
  answer_eq : x.interrupter.answer = y.interrupter.answer
  consistent_requested : x.Consistent
  consistent_idle : y.Consistent
  idle : y.Idle

namespace AgreeButForInterrupts

theorem refl (x : Board) : x.AgreeButForInterrupts x := ⟨rfl, rfl, rfl, rfl, rfl, rfl, rfl⟩

theorem core_eq (h : x.AgreeButForInterrupts y) : x.cpu.core = y.cpu.core := by
  have hcore := congrArg Processor.core h.cpu_eq
  exact hcore

theorem state_eq (h : x.AgreeButForInterrupts y) : x.cpu.state = y.cpu.state :=
  congrArg (·.state) h.cpu_eq

end AgreeButForInterrupts

/-- After a tick the program state is as the work of the tick has left it. -/
theorem program_tick (b : Board) : b.tick.cpu.registers = (b.cpu.worked b.pins).registers ∧
    b.tick.cpu.flags = (b.cpu.worked b.pins).flags ∧ b.tick.cpu.pc = (b.cpu.worked b.pins).pc ∧
    b.tick.cpu.stack = (b.cpu.worked b.pins).stack := by
  rw [cpu_tick, Processor.stepWith_eq]
  cases b.cpu.state.next _ <;> exact ⟨rfl, rfl, rfl, rfl⟩

/-- No acknowledge has begun where no interrupt is on its way. -/
theorem Idle.state_ne_t1i {b : Board} (h : b.Idle) (hconsistent : b.Consistent) :
    b.cpu.state ≠ .t1i := by
  intro hs
  have hline := (hconsistent.handshake.line_of_t1i hs).1
  rw [h.line_eq] at hline
  contradiction

namespace Unnoticed

/-- Requests come to one board, and the ready line of both is set. -/
theorem meet (h : Unnoticed x y) (stimulus : Stimulus) :
    Unnoticed (x.meet stimulus) (y.meet { ready := stimulus.ready }) := by
  have hanswer : (x.meet stimulus).interrupter.answer = x.interrupter.answer := by
    rw [meet_eq]
    show (stimulus.requests.foldl Interrupter.request x.interrupter).answer = _
    generalize x.interrupter = d
    induction stimulus.requests generalizing d with
    | nil => rfl
    | cons opcode opcodes ih => exact (ih _).trans (d.answer_request opcode)
  have hconsistent := (meet_frame h.consistent_requested stimulus).1
  have hconsistent' := (meet_frame h.consistent_idle { ready := stimulus.ready }).1
  rw [meet_eq] at hanswer hconsistent ⊢
  exact
    { cpu_eq := h.cpu_eq, memory_eq := h.memory_eq, ports_eq := h.ports_eq, latch_eq := h.latch_eq,
      bus_eq := h.bus_eq, owner_eq := h.owner_eq, ticks_eq := h.ticks_eq
      answer_eq := hanswer.trans h.answer_eq
      consistent_requested := hconsistent
      consistent_idle := hconsistent'
      idle := { h.idle with } }

section

variable (h : Unnoticed x y)

include h

theorem samePeriphery : x.SamePeriphery y where
  memory_eq := h.memory_eq
  ports_eq := by rw [h.ports_eq]
  latch_eq := h.latch_eq
  bus_eq := h.bus_eq
  answer_eq := h.answer_eq

theorem answer_tick : x.tick.interrupter.answer = y.tick.interrupter.answer := by
  have hs : x.cpu.state ≠ .t1i := by
    rw [h.state_eq]
    exact h.idle.state_ne_t1i h.consistent_idle
  rw [h.consistent_requested.answer_tick, if_neg hs, h.idle.answer_tick, h.answer_eq]

theorem samePeriphery_tick : x.tick.SamePeriphery y.tick :=
  h.samePeriphery.tick h.core_eq h.answer_tick

theorem ports_tick : x.tick.ports = y.tick.ports := by
  rw [Board.ports_tick, Board.ports_tick, h.samePeriphery.addressedPort_eq, h.latch_eq, h.state_eq,
    h.ports_eq, h.ticks_eq]

theorem worked_core : (x.cpu.worked x.pins).core = (y.cpu.worked y.pins).core := by
  have hbus : x.pins.bus = y.pins.bus := h.samePeriphery.settle_bus_eq h.core_eq
  rw [Processor.core_worked, Processor.core_worked, h.core_eq, hbus]

/-- Where an acknowledge begins, the other board is between two instructions. -/
theorem betweenInstructions (hs : x.tick.cpu.state = .t1i) :
    y.tick.cpu.state = .t1 ∧ y.tick.cpu.cycleNumber = 0 ∨ y.tick.cpu.state = .stopped := by
  have hexecutes : (x.cpu.worked x.pins).executes = (y.cpu.worked y.pins).executes :=
    congrArg (·.executes) h.worked_core
  have hhalts : (x.cpu.worked x.pins).halts = (y.cpu.worked y.pins).halts := by
    have hcore := congrArg Processor.halts h.worked_core
    exact hcore
  have hoperation : (x.cpu.worked x.pins).operation = (y.cpu.worked y.pins).operation :=
    congrArg (·.decoded.operation) h.worked_core
  have hnumber : x.cpu.cycleNumber = y.cpu.cycleNumber := congrArg (·.cycleNumber) h.core_eq
  rw [Board.state_tick, TState.next_eq_t1i_iff] at hs
  rcases hs with ⟨hstopped, -⟩ | ⟨hends, haccepted⟩
  · -- an acknowledge that wakes the processor up
    right
    rw [h.idle.state_tick, ← h.state_eq, hstopped]
    rfl
  · -- an acknowledge that was accepted in the last machine cycle of an instruction
    left
    have hends' : y.cpu.state.endsCycle ((y.cpu.worked y.pins).boundarySignals y.pins.ready) := by
      rw [← h.state_eq]
      refine hends.imp_right fun hfetch ↦ ⟨hfetch.1, ?_, ?_⟩
      · exact hhalts.symm.trans hfetch.2.1
      · exact hexecutes.symm.trans hfetch.2.2
    have hlast : y.tick.cpu.operation.cycleCount ≤ y.cpu.cycleNumber.toInt + 1 := by
      have hcount := h.consistent_requested.wellFormed.cycleCount_of_accepted_worked haccepted
      rw [cpu_tick, Processor.operation_stepWith, ← hoperation, ← hnumber]
      exact Int.le_of_eq hcount
    refine ⟨?_, (startsInstruction_tick h.consistent_idle hends' hlast).2⟩
    rw [Board.state_tick]
    exact TState.next_eq_t1_iff.mpr ⟨hends', h.idle.accepted_worked⟩

/-- A tick makes the same of both boards for a program, whether or not an acknowledge begins. -/
theorem sameProgramState_tick : x.tick.SameProgramState y.tick := by
  have hwork := h.worked_core
  obtain ⟨hregisters₁, hflags₁, hpc₁, hstack₁⟩ := x.program_tick
  obtain ⟨hregisters₂, hflags₂, hpc₂, hstack₂⟩ := y.program_tick
  exact
    { registers_eq := by rw [hregisters₁, hregisters₂]; exact congrArg (·.registers) hwork
      flags_eq := by rw [hflags₁, hflags₂]; exact congrArg (·.flags) hwork
      pc_eq := by rw [hpc₁, hpc₂]; exact congrArg (·.pc) hwork
      stack_eq := by rw [hstack₁, hstack₂]; exact congrArg (·.stack) hwork
      memory_eq := h.samePeriphery_tick.memory_eq
      ports_eq := h.ports_tick }

variable (hready : x.readyLevel = y.readyLevel)

include hready

/-- Until an acknowledge begins, a tick leads both boards to the same state. -/
theorem state_tick (hs : x.tick.cpu.state ≠ .t1i) : x.tick.cpu.state = y.tick.cpu.state := by
  have hbus : x.pins.bus = y.settle.bus := h.samePeriphery.settle_bus_eq h.core_eq
  rw [cpu_tick, Processor.state_stepWith] at hs ⊢
  have hpins : x.pins.ready = y.readyLevel := hready
  rw [TState.next_of_ne_t1i hs, h.idle.state_tick, h.state_eq, h.core_eq, hbus, hpins]

/-- Until an acknowledge begins, requests stay unnoticed. -/
theorem tick (hs : x.tick.cpu.state ≠ .t1i) : Unnoticed x.tick y.tick := by
  have hperiphery := h.samePeriphery_tick
  have hcore := core_tick_eq h.samePeriphery h.core_eq (h.state_tick hready hs)
  have hbus : x.pins.bus = y.pins.bus := h.samePeriphery.settle_bus_eq h.core_eq
  obtain ⟨hbus₁, hready₁, -, hcycles₁, hannounces₁⟩ := x.cpu.samples_stepWith (x := x.pins)
  obtain ⟨hbus₂, hready₂, -, hcycles₂, hannounces₂⟩ := y.cpu.samples_stepWith (x := y.pins)
  rw [← cpu_tick] at hbus₁ hready₁ hcycles₁ hannounces₁ hbus₂ hready₂ hcycles₂ hannounces₂
  have hcycles : x.cpu.cycles = y.cpu.cycles := congrArg (·.cycles) h.cpu_eq
  have hannounces : x.cpu.announces = y.cpu.announces := congrArg (·.announces) h.cpu_eq
  refine
    { cpu_eq := ?_, memory_eq := hperiphery.memory_eq, ports_eq := h.ports_tick
      latch_eq := hperiphery.latch_eq, bus_eq := hperiphery.bus_eq, owner_eq := ?_, ticks_eq := ?_
      answer_eq := h.answer_tick, consistent_requested := h.consistent_requested.tick
      consistent_idle := h.consistent_idle.tick, idle := h.idle.tick }
  · refine Processor.eq_of_core hcore ⟨?_, ?_, rfl⟩ ⟨rfl, rfl⟩ ?_ ?_
    · exact (hbus₁.trans hbus).trans hbus₂.symm
    · exact (hready₁.trans hready).trans hready₂.symm
    · exact hcycles₁.trans ((congrArg (· + 1) hcycles).trans hcycles₂.symm)
    · exact hannounces₁.trans (hannounces.trans hannounces₂.symm)
  · rw [owner_tick, owner_tick, h.samePeriphery.settle_owner_eq h.core_eq]
  · rw [ticks_tick, ticks_tick, h.ticks_eq]

end

end Unnoticed

/-- Requests stay unnoticed for as long as no acknowledge begins. -/
theorem unnoticed_driveAll {b : Board} (h : b.Consistent) (hidle : b.Idle)
    {schedule : List Stimulus}
    (hfirst : ∀ n ≤ schedule.length, (b.driveAll (schedule.take n)).cpu.state ≠ .t1i) :
    Unnoticed (b.driveAll schedule) (b.driveReady (schedule.map (·.ready))) := by
  -- the next tick is at the end of the schedule, so the induction is from there
  induction schedule using List.reverseRecOn with
  | nil => exact { AgreeButForInterrupts.refl b with
      answer_eq := rfl, consistent_requested := h, consistent_idle := h, idle := hidle }
  | append_singleton schedule stimulus ih =>
    have hbefore : Unnoticed (b.driveAll schedule) (b.driveReady (schedule.map (·.ready))) := by
      refine ih fun n hn ↦ ?_
      have hne := hfirst n (by rw [List.length_append]; omega)
      rwa [List.take_append_of_le_length hn] at hne
    have hstate := hfirst (schedule.length + 1) (by simp)
    rw [List.take_of_length_le (by simp), driveAll_append] at hstate
    rw [driveAll_append, List.map_append, List.map_singleton, driveReady_concat]
    exact (hbefore.meet stimulus).tick rfl hstate

/-- **Interrupts are precise.** Let no interrupt be on its way in a reachable board, and compare a
run that meets any requests with the run that meets none but has the same levels of the ready line.
Up to the first acknowledge the boards agree after each tick on all that is not interrupt logic.
When the acknowledge begins, the board without requests has just come to the start of an
instruction, or is stopped, with the same registers, flags, program counter, stack, memory and
ports. -/
theorem interrupts_precise {b : Board} (h : b.Reachable) (hidle : b.Idle)
    {schedule : List Stimulus}
    (hfirst : ∀ n < schedule.length, 0 < n → (b.driveAll (schedule.take n)).cpu.state ≠ .t1i) :
    ((b.driveAll schedule).cpu.state ≠ .t1i →
      (b.driveAll schedule).AgreeButForInterrupts (b.driveReady (schedule.map (·.ready)))) ∧
    ((b.driveAll schedule).cpu.state = .t1i →
      ((b.driveReady (schedule.map (·.ready))).cpu.state = .t1 ∧
        (b.driveReady (schedule.map (·.ready))).cpu.cycleNumber = 0 ∨
        (b.driveReady (schedule.map (·.ready))).cpu.state = .stopped) ∧
      (b.driveAll schedule).SameProgramState (b.driveReady (schedule.map (·.ready)))) := by
  have hstart : b.cpu.state ≠ .t1i := hidle.state_ne_t1i h.consistent
  have hbefore (n : Nat) (hn : n < schedule.length) :
      (b.driveAll (schedule.take n)).cpu.state ≠ .t1i := by
    rcases n.eq_zero_or_pos with rfl | hpos
    · exact hstart
    · exact hfirst n hn hpos
  constructor
  · intro hs
    refine (unnoticed_driveAll h.consistent hidle fun n hn ↦ ?_).toAgreeButForInterrupts
    rcases Nat.lt_or_eq_of_le hn with hlt | rfl
    · exact hbefore n hlt
    · rwa [List.take_length]
  · intro hs
    rcases List.eq_nil_or_concat schedule with rfl | ⟨earlier, stimulus, rfl⟩
    · exact absurd hs hstart
    rw [List.concat_eq_append] at hs hbefore ⊢
    have hearlier : Unnoticed (b.driveAll earlier) (b.driveReady (earlier.map (·.ready))) := by
      refine unnoticed_driveAll h.consistent hidle fun n hn ↦ ?_
      have hne := hbefore n (by rw [List.length_append, List.length_singleton]; omega)
      rwa [List.take_append_of_le_length hn] at hne
    rw [driveAll_append] at hs ⊢
    rw [List.map_append, List.map_singleton, driveReady_concat]
    exact ⟨(hearlier.meet stimulus).betweenInstructions hs,
      (hearlier.meet stimulus).sameProgramState_tick⟩

/-- A board that has started on the jump of an endless loop. -/
def looping : Board :=
  performAll {} [.load [0x06, 0x2a, 0x44, 0x00, 0x00] 0, .requestRestart 0, .run 16]

/-- Two interrupts are requested while the processor waits for the opcode of the jump. -/
def requestsInJump : List Stimulus :=
  [{ ready := false }, { requests := [0x0d, 0x15] }, {}, {}, {}, {}, {}, {}, {}, {}, {}]

theorem looping_interrupted : looping.Idle ∧ (looping.driveAll requestsInJump).cpu.state = .t1i ∧
    ((looping.driveReady (requestsInJump.map (·.ready))).cpu.state = .t1 ∧
      (looping.driveReady (requestsInJump.map (·.ready))).cpu.cycleNumber = 0 ∨
      (looping.driveReady (requestsInJump.map (·.ready))).cpu.state = .stopped) ∧
    (looping.driveAll requestsInJump).SameProgramState
      (looping.driveReady (requestsInJump.map (·.ready))) := by
  have hreachable : looping.Reachable := Reachable.fresh.performAll (by decide)
  obtain ⟨hidle, hstate, hfirst⟩ : looping.Idle ∧
      (looping.driveAll requestsInJump).cpu.state = .t1i ∧
      ∀ n < requestsInJump.length, 0 < n →
        (looping.driveAll (requestsInJump.take n)).cpu.state ≠ .t1i := by decide +kernel
  exact ⟨hidle, hstate, (interrupts_precise hreachable hidle hfirst).2 hstate⟩

end Board

end Mcs8
