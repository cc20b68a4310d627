import Mcs8.Proofs.Board.Watched

/-!
# The two traces of a tick

The trace of the bus records a tick as the bus has settled, before the processor moves. The line of
the processor is written behind its step, and remembers of what was before it the program counter
and the state only. Kind and number of the machine cycle in it are those that the step leaves. So
the two tell the same, except where the step goes on to another machine cycle with another number:
at the end of a machine cycle of an instruction that has several
(`Processor.Coherent.cycleNumber_stepWith_iff`, `Board.traces_agree_iff`).
-/

namespace Mcs8

namespace Processor

variable {p : Processor} {x : Pins}

theorem Aligned.worked (h : p.Aligned) (x : Pins) : (p.worked x).Aligned :=
  (h.sample x.bus x.ready x.interrupt).work x.bus

/-- The next machine cycle has another number, unless the instruction has a single one. -/
theorem Aligned.cycleNumber_startCycle_iff (h : p.Aligned) :
    p.startCycle.cycleNumber = p.cycleNumber ↔ p.operation.cycleCount = 1 := by
  have h₀ := h.number_nonneg
  have hlt := h.number_lt
  rw [← Int32.toInt_inj, h.number_startCycle]
  split <;> omega

/-- An acknowledge has number 0, and so has the machine cycle before it if it is the only one. -/
theorem cycleNumber_startAcknowledge_iff (h : p.operation.cycleCount = p.cycleNumber.toInt + 1) :
    p.startAcknowledge.cycleNumber = p.cycleNumber ↔ p.operation.cycleCount = 1 := by
  have hdef : p.startAcknowledge.cycleNumber = 0 := rfl
  rw [hdef, eq_comm, cycleNumber_eq_zero_iff]
  omega

/-- The state that is entered changes the number of the machine cycle if it begins one and the
instruction has several of them. -/
theorem Aligned.cycleNumber_enter_iff (h : p.Aligned) {next : TState}
    (hacknowledge : next = .t1i → p.operation.cycleCount = p.cycleNumber.toInt + 1) :
    (p.enter next).cycleNumber = p.cycleNumber ↔
      (next.startsCycle = true → p.operation.cycleCount = 1) := by
  cases next with
  | t1 =>
    show p.startCycle.cycleNumber = p.cycleNumber ↔ (true = true → p.operation.cycleCount = 1)
    simpa using h.cycleNumber_startCycle_iff
  | t1i =>
    show p.startAcknowledge.cycleNumber = p.cycleNumber ↔
      (true = true → p.operation.cycleCount = 1)
    simpa using cycleNumber_startAcknowledge_iff (hacknowledge rfl)
  | _ => exact iff_of_true rfl nofun

/-- An acknowledge follows the last machine cycle of an instruction. -/
theorem Coherent.cycleCount_of_acknowledge (h : p.Coherent)
    (hnext : p.state.next ((p.worked x).boundarySignals x.ready) = .t1i) :
    (p.worked x).operation.cycleCount = p.cycleNumber.toInt + 1 := by
  obtain ⟨hwas, -⟩ | ⟨-, haccepted⟩ := TState.next_eq_t1i_iff.mp hnext
  · have hne : p.state ≠ .t3 := by simp [hwas]
    have h₀ := h.number_nonneg
    have hlt := h.number_lt
    rw [h.operation_of_stopped hwas, Operation.cycleCount_halt] at hlt
    rw [(worked_of_ne_t3 hne).2.1, h.operation_of_stopped hwas, Operation.cycleCount_halt]
    omega
  · exact h.cycleCount_of_accepted_worked haccepted

/-- A step changes the number of the machine cycle where it goes on to another one, and the
instruction has several. -/
theorem Coherent.cycleNumber_stepWith_iff (h : p.Coherent) (x : Pins) :
    (p.stepWith x).cycleNumber = p.cycleNumber ↔
      ((p.stepWith x).state.startsCycle = true → (p.stepWith x).operation.cycleCount = 1) := by
  have hnumber : (p.worked x).cycleNumber = p.cycleNumber := cycleNumber_worked
  rw [operation_stepWith, stepWith_eq, state_enter, ← hnumber]
  refine (h.toAligned.worked x).cycleNumber_enter_iff fun hnext ↦ ?_
  rw [hnumber]
  exact h.cycleCount_of_acknowledge hnext

/-- Within the plan of an instruction the number tells the kind, so a step that keeps the number
keeps the kind. -/
theorem Coherent.cycleKind_stepWith (h : p.Coherent) (x : Pins)
    (hnumber : (p.stepWith x).cycleNumber = p.cycleNumber) :
    (p.stepWith x).cycleKind = p.cycleKind := by
  have hplan := (h.toAligned.worked x).cycleKind_eq
  rw [cycleKind_worked, cycleNumber_worked] at hplan
  rw [(h.stepWith x).cycleKind_eq, hnumber, operation_stepWith, hplan]

end Processor

namespace Board

/-- **The two traces of a tick.** While the trace is on and the level of the messages is 3 or
higher, a tick is recorded, and its messages begin with a line for the step of the processor.
Record and line name the same state, the one before the tick. Kind and number of the machine cycle
in the line are those after the tick. They are those of the record, and of the processor before the
tick, unless the tick goes on to another machine cycle and the instruction has several. -/
theorem traces_agree_iff {b : Board} (h : b.Watched) (hlevel : 3 ≤ b.messageLevel)
    (htracing : b.tracing = true) :
    b.tick.trace = b.trace.push b.settle.busRecord ∧
    (∃ more, b.tickMessages = b.stepLine ++ more) ∧
    StepLine.state b.stepLine = leftField 7 b.settle.busRecord.state.name ∧
    StepLine.kind b.stepLine = b.tick.cpu.cycleKind.name ∧
    StepLine.number b.stepLine = toString b.tick.cpu.cycleNumber.toInt ∧
    (StepLine.kind b.stepLine = b.settle.busRecord.cycleKind.name ∧
        StepLine.number b.stepLine = toString b.cpu.cycleNumber.toInt ↔
      (b.tick.cpu.state.startsCycle = true → b.tick.cpu.operation.cycleCount = 1)) := by
  have hannounces : b.cpu.announces = true := by rw [h.announces_eq, decide_eq_true hlevel]
  have hcoherent := h.coherent
  have hafter := h.tick.coherent
  have hkind : StepLine.kind b.stepLine = b.tick.cpu.cycleKind.name := StepLine.kind_traceLine ..
  have hnumber : StepLine.number b.stepLine = toString b.tick.cpu.cycleNumber.toInt :=
    StepLine.number_traceLine _ _ _ _ hafter.toAligned
  refine ⟨trace_tick htracing, tickMessages_eq hannounces, StepLine.state_traceLine .., hkind,
    hnumber, ?_⟩
  have hiff := hcoherent.cycleNumber_stepWith_iff b.pins
  have hkept := hcoherent.cycleKind_stepWith b.pins
  rw [← cpu_tick] at hiff hkept
  rw [hkind, hnumber, ← hiff]
  constructor
  · rintro ⟨-, hsame⟩
    exact Int32.toInt_inj.mp (toString_inj_of_lt_three hafter.number_nonneg hafter.number_lt_three
      hcoherent.number_nonneg hcoherent.number_lt_three hsame)
  · intro hsame
    exact ⟨congrArg CycleKind.name (hkept hsame), congrArg (fun n : Int32 ↦ toString n.toInt) hsame⟩

/-- The `T3` that takes a move from memory is recorded in the fetch, and its line tells the read
that comes next. -/
theorem requestMove_traces :
    let b := observed.performAll requestMove
    3 ≤ b.messageLevel ∧ b.tracing = true ∧ b.tick.trace = b.trace.push b.settle.busRecord ∧
    b.settle.busRecord.cycleKind = .pci ∧ b.cpu.cycleNumber = 0 ∧
    StepLine.kind b.stepLine = "PCR" ∧ StepLine.number b.stepLine = "1" := by
  intro b
  have hlevel : 3 ≤ b.messageLevel := by decide +kernel
  have htracing : b.tracing = true := by decide +kernel
  have hnext : b.tick.cpu.cycleKind = .pcr ∧ b.tick.cpu.cycleNumber = 1 := by decide +kernel
  obtain ⟨htrace, -, -, hkind, hnumber, -⟩ :=
    traces_agree_iff (b := b) watched_requestMove hlevel htracing
  rw [hnext.1] at hkind
  rw [hnext.2] at hnumber
  exact ⟨hlevel, htracing, htrace, by decide +kernel, by decide +kernel, hkind, hnumber⟩

/-- So the line does not always name the machine cycle that the trace records. -/
theorem traces_disagree :
    ¬∀ b : Board, b.Watched → 3 ≤ b.messageLevel → b.tracing = true →
      StepLine.state b.stepLine = leftField 7 b.settle.busRecord.state.name ∧
      StepLine.kind b.stepLine = b.settle.busRecord.cycleKind.name ∧
      StepLine.number b.stepLine = toString b.cpu.cycleNumber.toInt := by
  intro hagree
  have hkind := (hagree _ watched_requestMove (by decide +kernel) (by decide +kernel)).2.1
  rw [stepLine, StepLine.kind_traceLine] at hkind
  revert hkind
  decide +kernel

end Board

end Mcs8
