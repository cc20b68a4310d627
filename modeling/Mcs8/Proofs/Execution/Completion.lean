import Mcs8.Proofs.Execution.Tick

/-!
# Instructions take their ticks

Whatever tick an instruction is in, the datapath that it will leave is settled: `Board.completion`
computes it from the board. A tick does what the completion says comes next, so it leaves the
completion as it is, and where it ends the instruction the datapath is what the completion was
(`outcome_tick`). There is one lemma for each way to leave a state.
-/

namespace Mcs8

namespace Processor

/-- The machine cycle that follows the end of another one: the next of the instruction, or the
first of another instruction. -/
theorem WellFormed.number_stepWith_of_endsCycle {p : Processor} {x : Pins} (h : p.WellFormed)
    (hends : p.state.endsCycle ((p.worked x).boundarySignals x.ready))
    (haccepted : (p.worked x).accepted = true →
      (p.worked x).operation.cycleCount ≤ p.cycleNumber.toInt + 1) :
    (p.stepWith x).cycleNumber.toInt =
      if (p.worked x).operation.cycleCount ≤ p.cycleNumber.toInt + 1 then 0
      else p.cycleNumber.toInt + 1 := by
  rw [stepWith_eq]
  cases ha : (p.worked x).accepted with
  | true =>
    rw [TState.next_eq_t1i_iff.mpr (.inr ⟨hends, ha⟩), if_pos (haccepted ha)]
    rfl
  | false =>
    have hnumber := (h.aligned_worked (x := x)).number_startCycle
    rw [cycleNumber_worked] at hnumber
    rw [TState.next_eq_t1_iff.mpr ⟨hends, ha⟩, ← hnumber]
    rfl

end Processor

namespace Board

variable (b : Board)

/-- The opcode that the first machine cycle of an instruction takes: the answer to an acknowledge,
or the byte at the program counter. -/
def incoming : UInt8 :=
  if b.cpu.isAcknowledge then
    if b.cpu.state = .t1i then b.interrupter.opcode else b.interrupter.answer
  else b.datapath.byteAt b.cpu.pc

/-- What the machine cycles from the running one on make of the datapath. -/
def throughCycles : Datapath :=
  if b.cpu.cycleNumber = 0 then b.datapath.instruction (.ofOpcode b.incoming) b.cpu.isAcknowledge
  else
    .lastCycles b.cpu.operation (b.cpu.operation.cycleCount - b.cpu.cycleNumber.toInt.toNat)
      b.datapath

/-- What the rest of an instruction makes of the datapath. -/
def completion : Datapath :=
  match b.cpu.state with
  | .stopped => b.datapath
  | .t4 => (b.datapath.prepare b.cpu.operation).store b.cpu.operation
  | .t5 => b.datapath.store b.cpu.operation
  | .t1 | .t1i | .t2 | .wait | .t3 => b.throughCycles

/-- The first state of an instruction. -/
def startsInstruction : Prop := b.cpu.state.startsCycle = true ∧ b.cpu.cycleNumber = 0

/-- No instruction is under way: one is about to start, or the processor is stopped. -/
def atBoundary : Prop := b.startsInstruction ∨ b.cpu.state = .stopped

instance : Decidable b.startsInstruction := inferInstanceAs (Decidable (_ ∧ _))

instance : Decidable b.atBoundary := inferInstanceAs (Decidable (_ ∨ _))

/-- What the instruction under way, if there is one, makes of the datapath. -/
def outcome : Datapath := if b.atBoundary then b.datapath else b.completion

variable {b}

/-- The number of a machine cycle is not negative. -/
theorem Consistent.toNat_number (h : b.Consistent) :
    (b.cpu.cycleNumber.toInt.toNat : Int) = b.cpu.cycleNumber.toInt :=
  Int.toNat_of_nonneg h.wellFormed.number_nonneg

theorem not_atBoundary (h : (b.cpu.state.startsCycle || b.cpu.state == .stopped) = false) :
    ¬b.atBoundary := by
  rintro (⟨hs, -⟩ | hs) <;> rw [hs] at h <;> contradiction

theorem startsInstruction.state_ne_stopped (h : b.startsInstruction) : b.cpu.state ≠ .stopped := by
  intro hstopped
  have hstarts := h.1
  rw [hstopped] at hstarts
  contradiction

/-! ### Ticks before `T3` -/

/-- Before `T3` a tick leaves alone what the instruction works on. -/
theorem datapath_tick_of_precedesT3 (h : b.cpu.state.precedesT3 = true) :
    b.tick.datapath = b.datapath := by
  have hne : b.cpu.state ≠ .t3 := by intro hs; rw [hs] at h; contradiction
  rw [datapath_tick_of_ne_t3 hne, ← Datapath.withProcessor_stepWith,
    Processor.stepWith_of_precedesT3 h]
  rfl

theorem incoming_tick_of_precedesT3 (h : b.Consistent) (hs : b.cpu.state.precedesT3 = true) :
    b.tick.incoming = b.incoming := by
  -- after `T1I` the request has moved from the line to the answer
  have hstate : b.tick.cpu.state ≠ .t1i := by
    rw [cpu_tick, Processor.stepWith_of_precedesT3 hs]
    cases hstate : b.cpu.state <;> rw [hstate] at hs <;>
      first | contradiction | (simp only [TState.next]; grind)
  rw [incoming, incoming, if_neg hstate, h.answer_tick, datapath_tick_of_precedesT3 hs, cpu_tick,
    Processor.stepWith_of_precedesT3 hs]
  rfl

theorem completion_of_precedesT3 (h : b.cpu.state.precedesT3 = true) :
    b.completion = b.throughCycles := by
  cases hs : b.cpu.state <;> rw [hs] at h <;> first | contradiction | rw [completion, hs]

theorem completion_tick_of_precedesT3 (h : b.Consistent) (hs : b.cpu.state.precedesT3 = true) :
    b.tick.completion = b.completion := by
  have hcycles : b.tick.throughCycles = b.throughCycles := by
    rw [throughCycles, incoming_tick_of_precedesT3 h hs, datapath_tick_of_precedesT3 hs, cpu_tick,
      Processor.stepWith_of_precedesT3 hs]
    rfl
  rw [completion_of_precedesT3 hs, ← hcycles, completion, cpu_tick,
    Processor.stepWith_of_precedesT3 hs]
  cases hstate : b.cpu.state with
  | t1 | t1i => rfl
  | t2 | wait => cases hready : b.pins.ready <;> rfl
  | _ => rw [hstate] at hs; contradiction

/-! ### The tick of `T3` -/

/-- In `T3` the byte on the bus in the first machine cycle is the opcode. -/
theorem ir_tick_of_t3 (h : b.Consistent) (hs : b.cpu.state = .t3) :
    b.tick.cpu.ir = if b.cpu.cycleNumber = 0 then b.incoming else b.cpu.ir := by
  have hfetch := h.wellFormed.fetchesOpcode_iff
  have hir : b.tick.cpu.ir = if b.cpu.fetchesOpcode then b.settle.bus else b.cpu.ir := by
    have hlatch := (b.cpu.sample b.pins.bus b.pins.ready b.pins.interrupt).ir_latchByte b.pins.bus
    rw [cpu_tick, Processor.stepWith_eq, Processor.ir_enter, Processor.worked_of_t3 hs,
      Processor.takeByte_eq]
    exact hlatch
  rw [hir]
  by_cases hn : b.cpu.cycleNumber = 0
  · have hstate : b.cpu.state ≠ .t1i := by rw [hs]; decide
    rw [if_pos (hfetch.mpr hn), if_pos hn, settle_bus_of_t3 h hs, (hfetch.mpr hn).1, incoming,
      if_neg hstate]
    rfl
  · rw [if_neg (hfetch.not.mpr hn), if_neg hn]

theorem operation_tick_of_t3 (h : b.Consistent) (hs : b.cpu.state = .t3) :
    b.tick.cpu.operation =
      if b.cpu.cycleNumber = 0 then .ofOpcode b.incoming else b.cpu.operation := by
  rw [h.tick.wellFormed.operation_eq, ir_tick_of_t3 h hs, h.wellFormed.operation_eq]
  exact apply_ite Operation.ofOpcode _ _ _

/-- What is left of the instruction after the work of `T3`. -/
theorem completion_of_t3 (h : b.Consistent) (hs : b.cpu.state = .t3) : b.completion =
    b.tick.datapath.continuation b.tick.cpu.operation b.cpu.cycleNumber.toInt.toNat := by
  have hlt := h.wellFormed.number_lt
  rw [completion, hs, operation_tick_of_t3 h hs, datapath_tick_of_t3 h hs]
  show b.throughCycles = _
  rw [throughCycles]
  by_cases hn : b.cpu.cycleNumber = 0
  · simp only [hn, if_true]
    rfl
  · have hnumber := h.toNat_number
    rw [if_neg hn, if_neg hn, if_neg hn, Datapath.lastCycles_of_lt _ _ (by omega), hnumber]

theorem flags_datapath_tick_of_t3 (hs : b.cpu.state = .t3) :
    b.tick.datapath.flags = b.cpu.flags := by
  show b.tick.cpu.flags = b.cpu.flags
  have hworked : (b.cpu.worked b.pins).flags = b.cpu.flags := by
    rw [Processor.worked_of_t3 hs, Processor.takeByte_eq, Processor.latchByte_frame]
    rfl
  rw [cpu_tick, Processor.stepWith_eq, ← hworked]
  cases b.cpu.state.next ((b.cpu.worked b.pins).boundarySignals b.pins.ready) <;> rfl

/-- The processor goes on to `T4` exactly if the rest of the machine cycle executes. -/
theorem executes_worked_of_t3 (hs : b.cpu.state = .t3) : (b.cpu.worked b.pins).executes =
    b.tick.cpu.operation.hasExecutePhase b.cpu.cycleNumber.toInt
      (b.tick.cpu.operation.condition.holds b.tick.datapath.flags) := by
  rw [flags_datapath_tick_of_t3 hs, cpu_tick, Processor.operation_stepWith,
    Processor.executes_worked hs]

theorem state_tick : b.tick.cpu.state =
    b.cpu.state.next ((b.cpu.worked b.pins).boundarySignals b.pins.ready) := by
  rw [cpu_tick, Processor.stepWith_eq, Processor.state_enter]

/-- The end of the last machine cycle is the end of the instruction. -/
theorem startsInstruction_tick (h : b.Consistent)
    (hends : b.cpu.state.endsCycle ((b.cpu.worked b.pins).boundarySignals b.pins.ready))
    (hlast : b.tick.cpu.operation.cycleCount ≤ b.cpu.cycleNumber.toInt + 1) :
    b.tick.startsInstruction := by
  rw [cpu_tick, Processor.operation_stepWith] at hlast
  constructor
  · rw [state_tick]
    exact TState.startsCycle_next_of_endsCycle hends
  · rw [cpu_tick, Processor.cycleNumber_eq_zero_iff,
      h.wellFormed.number_stepWith_of_endsCycle hends fun _ ↦ hlast, if_pos hlast]

/-- The end of any other machine cycle is the start of the next one. -/
theorem number_tick_of_not_last (h : b.Consistent) (hs : b.cpu.state = .t3)
    (hends : b.cpu.state.endsCycle ((b.cpu.worked b.pins).boundarySignals b.pins.ready))
    (hmore : ¬b.tick.cpu.operation.cycleCount ≤ b.cpu.cycleNumber.toInt + 1) :
    b.tick.cpu.state.startsCycle = true ∧
      b.tick.cpu.cycleNumber.toInt = b.cpu.cycleNumber.toInt + 1 := by
  -- an interrupt is accepted in the last machine cycle only
  have haccepted : (b.cpu.worked b.pins).accepted = true →
      (b.cpu.worked b.pins).operation.cycleCount ≤ b.cpu.cycleNumber.toInt + 1 := fun ha ↦
    Int.le_of_eq ((h.wellFormed.accepted_worked_of_t3 hs).mp ha).2.1.symm
  have hnumber := h.wellFormed.number_stepWith_of_endsCycle hends haccepted
  rw [← Processor.operation_stepWith, ← cpu_tick, if_neg hmore] at hnumber
  refine ⟨?_, hnumber⟩
  rw [state_tick]
  exact TState.startsCycle_next_of_endsCycle hends

/-- Where a machine cycle ends with `T3`, the next one goes on with the instruction, if it is not
over. -/
theorem outcome_tick_of_not_executes (h : b.Consistent) (hs : b.cpu.state = .t3)
    (hhalts : (b.cpu.worked b.pins).halts = false)
    (hexecutes : (b.cpu.worked b.pins).executes = false) : b.tick.outcome = b.completion := by
  have hends : b.cpu.state.endsCycle ((b.cpu.worked b.pins).boundarySignals b.pins.ready) :=
    .inr ⟨hs, hhalts, hexecutes⟩
  have hnonneg := h.wellFormed.number_nonneg
  have hfinish := Datapath.finish_of_not_executes b.tick.datapath b.tick.cpu.operation
    ((executes_worked_of_t3 hs).symm.trans hexecutes)
  rw [completion_of_t3 h hs]
  by_cases hlast : b.tick.cpu.operation.cycleCount ≤ b.cpu.cycleNumber.toInt + 1
  · rw [outcome, if_pos (.inl (startsInstruction_tick h hends hlast)),
      Datapath.continuation_of_last _ _ (by omega), h.toNat_number, hfinish]
  · obtain ⟨hstarts, hnumber⟩ := number_tick_of_not_last h hs hends hlast
    have hnot : ¬b.tick.cpu.cycleNumber = 0 := by
      rw [Processor.cycleNumber_eq_zero_iff]
      omega
    have hprecedes := TState.precedesT3_of_startsCycle hstarts
    have hboundary : ¬b.tick.atBoundary := by
      rintro (hstart | hstopped)
      · exact hnot hstart.2
      · rw [hstopped] at hstarts
        contradiction
    have hnext : (b.cpu.cycleNumber.toInt + 1).toNat = b.cpu.cycleNumber.toInt.toNat + 1 := by
      omega
    rw [outcome, if_neg hboundary, completion_of_precedesT3 hprecedes, throughCycles, if_neg hnot,
      hnumber, hnext, Datapath.continuation, h.toNat_number, hfinish]

/-- No other machine cycle follows one with an execute phase. -/
theorem cycleCount_tick_of_executes (h : b.Consistent) (hs : b.cpu.state = .t3)
    (hexecutes : (b.cpu.worked b.pins).executes = true) :
    b.cpu.cycleNumber.toInt + 1 = b.tick.cpu.operation.cycleCount := by
  have hphase := (executes_worked_of_t3 hs).symm.trans hexecutes
  have hlt := (h.wellFormed.aligned_worked (x := b.pins)).number_lt
  rw [Processor.cycleNumber_worked, ← Processor.operation_stepWith, ← cpu_tick] at hlt
  exact Operation.cycleCount_of_hasExecutePhase hphase h.wellFormed.number_nonneg hlt

/-- A machine cycle with an execute phase goes on to `T4`, and no other one follows it. -/
theorem outcome_tick_of_executes (h : b.Consistent) (hs : b.cpu.state = .t3)
    (hhalts : (b.cpu.worked b.pins).halts = false)
    (hexecutes : (b.cpu.worked b.pins).executes = true) : b.tick.outcome = b.completion := by
  have hstate : b.tick.cpu.state = .t4 := by
    rw [state_tick]
    exact TState.next_eq_t4_iff.mpr ⟨hs, hhalts, hexecutes⟩
  have hphase := (executes_worked_of_t3 hs).symm.trans hexecutes
  have hlast := cycleCount_tick_of_executes h hs hexecutes
  rw [completion_of_t3 h hs, Datapath.continuation_of_last _ _ (by omega), h.toNat_number,
    Datapath.finish_of_executes _ _ hphase, outcome,
    if_neg (not_atBoundary (by rw [hstate]; decide)), completion, hstate]

theorem outcome_tick_of_halts (h : b.Consistent) (hs : b.cpu.state = .t3)
    (hhalts : (b.cpu.worked b.pins).halts = true) : b.tick.outcome = b.completion := by
  have hstopped : b.tick.cpu.state = .stopped := by
    rw [state_tick]
    exact TState.next_eq_stopped_iff.mpr (.inr ⟨hs, hhalts⟩)
  have hoperation : b.tick.cpu.operation = .halt := by
    rw [cpu_tick, Processor.operation_stepWith, Processor.operation_of_halts _ hhalts]
  rw [completion_of_t3 h hs, hoperation, outcome, if_pos (.inr hstopped),
    Datapath.continuation_of_last _ _ (Nat.le_add_left 1 _), Datapath.finish_of_not_executes]
  exact Operation.hasExecutePhase_halt

theorem outcome_tick_of_t3 (h : b.Consistent) (hs : b.cpu.state = .t3) :
    b.tick.outcome = b.completion := by
  cases hhalts : (b.cpu.worked b.pins).halts with
  | true => exact outcome_tick_of_halts h hs hhalts
  | false =>
    cases hexecutes : (b.cpu.worked b.pins).executes with
    | false => exact outcome_tick_of_not_executes h hs hhalts hexecutes
    | true => exact outcome_tick_of_executes h hs hhalts hexecutes

/-! ### The execute phase -/

theorem outcome_tick_of_t4 (hs : b.cpu.state = .t4) : b.tick.outcome = b.completion := by
  have hstate : b.tick.cpu.state = .t5 := by rw [state_tick, hs, TState.next]
  have hoperation : b.tick.cpu.operation = b.cpu.operation := by
    rw [cpu_tick, Processor.operation_stepWith, Processor.worked_of_t4 hs,
      Processor.prepareResult_frame]
    rfl
  have hdatapath : b.tick.datapath = b.datapath.prepare b.cpu.operation := by
    rw [datapath_tick_of_ne_t3 (by rw [hs]; decide), Processor.worked_of_t4 hs]
    exact (Datapath.prepare_withProcessor b.datapath
      (b.cpu.sample b.pins.bus b.pins.ready b.pins.interrupt)).symm
  rw [outcome, if_neg (not_atBoundary (by rw [hstate]; decide)), completion, hstate, completion, hs,
    hoperation, hdatapath]

theorem operation_tick_of_t5 (hs : b.cpu.state = .t5) :
    b.tick.cpu.operation = b.cpu.operation := by
  rw [cpu_tick, Processor.operation_stepWith, Processor.worked_of_t5 hs,
    Processor.storeResult_frame]
  rfl

/-- Only the last machine cycle of an instruction comes to `T5`. -/
theorem startsInstruction_tick_of_t5 (h : b.Consistent) (hs : b.cpu.state = .t5) :
    b.tick.startsInstruction := by
  have hlast := h.wellFormed.cycleCount_of_executes (h.wellFormed.executes_iff.mpr (.inr hs))
  refine startsInstruction_tick h (.inl hs) ?_
  rw [operation_tick_of_t5 hs]
  exact Int.le_of_eq hlast.symm

theorem outcome_tick_of_t5 (h : b.Consistent) (hs : b.cpu.state = .t5) :
    b.tick.outcome = b.completion := by
  have hdatapath : b.tick.datapath = b.datapath.store b.cpu.operation := by
    rw [datapath_tick_of_ne_t3 (by rw [hs]; decide), Processor.worked_of_t5 hs]
    exact (Datapath.store_withProcessor b.datapath
      (b.cpu.sample b.pins.bus b.pins.ready b.pins.interrupt)).symm
  rw [outcome, if_pos (.inl (startsInstruction_tick_of_t5 h hs)), completion, hs, hdatapath]

/-- A tick brings an instruction closer to what it will make of the datapath, and an end of the
instruction there. -/
theorem outcome_tick (h : b.Consistent) (hs : b.cpu.state ≠ .stopped) :
    b.tick.outcome = b.completion := by
  cases hstate : b.cpu.state with
  | stopped => exact absurd hstate hs
  | t3 => exact outcome_tick_of_t3 h hstate
  | t4 => exact outcome_tick_of_t4 hstate
  | t5 => exact outcome_tick_of_t5 h hstate
  | t1 | t1i | t2 | wait =>
    have hprecedes : b.cpu.state.precedesT3 = true := by rw [hstate]; rfl
    have hnot : ¬b.tick.atBoundary := by
      refine not_atBoundary ?_
      rw [cpu_tick, Processor.stepWith_of_precedesT3 hprecedes]
      simp only [hstate, TState.next]
      first | rfl | cases b.pins.ready <;> rfl
    rw [outcome, if_neg hnot, completion_tick_of_precedesT3 h hprecedes]

end Board

end Mcs8
