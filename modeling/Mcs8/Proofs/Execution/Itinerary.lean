import Mcs8.Proofs.Board.Reachable
import Mcs8.Proofs.Execution.Instruction
import Mcs8.Proofs.Execution.Timetable
import Mcs8.Proofs.Processor.Core

/-!
# Instructions keep to the timetable

A board in the middle of an instruction has the rest of the itinerary ahead of it, which depends on
the opcode, the condition and the levels of the ready line (`Board.ahead`). A tick makes the first
state of what is ahead, and leaves the rest of it (`ahead_tick`), until at the next boundary nothing
is left. So from the first state of an instruction on a board goes through the itinerary of the
timetable.
-/

namespace Mcs8

namespace Board

variable (b : Board)

/-- The opcode of the running instruction has not been taken yet. -/
def awaitsOpcode : Prop :=
  (b.cpu.state.precedesT3 = true ∨ b.cpu.state = .t3) ∧ b.cpu.cycleNumber = 0

instance : Decidable b.awaitsOpcode := inferInstanceAs (Decidable (_ ∧ _))

/-- The opcode of the running instruction. -/
def runningOpcode : UInt8 := if b.awaitsOpcode then b.incoming else b.cpu.ir

/-- The running operation. -/
def runningOperation : Operation := .ofOpcode b.runningOpcode

/-- The machine cycles of the running instruction. -/
def runningCycles : List TimedCycle :=
  b.runningOperation.cycles (b.runningOperation.condition.holds b.cpu.flags)

/-- The machine cycles from the running one on. -/
def cyclesLeft : List TimedCycle := b.runningCycles.drop b.cpu.cycleNumber.toInt.toNat

/-- The state with the kind of its machine cycle. -/
def place : TState × CycleKind := (b.cpu.state, b.cpu.cycleKind)

/-- The states from this one to the end of the instruction, with the levels of the ready line from
this one on. -/
def ahead (levels : List Bool) : List (TState × CycleKind) :=
  match b.cpu.state with
  | .stopped => []
  | .t1 | .t1i => Timetable.itinerary b.cpu.state b.cyclesLeft levels
  | .t2 | .wait => b.place :: Timetable.afterLook b.cyclesLeft levels
  | .t3 => Timetable.fromT3 b.cyclesLeft levels
  | .t4 => [b.place, (.t5, b.cpu.cycleKind)]
  | .t5 => [b.place]

variable {b}

/-! ### The running instruction -/

theorem runningOperation_eq (h : b.Consistent) :
    b.runningOperation = if b.awaitsOpcode then .ofOpcode b.incoming else b.cpu.operation := by
  rw [runningOperation, runningOpcode, h.wellFormed.operation_eq]
  exact apply_ite Operation.ofOpcode _ _ _

/-- The running machine cycle is one of the running instruction, which tells its kind. -/
theorem cycleKind_running (h : b.Consistent) :
    b.cpu.cycleNumber.toInt.toNat < b.runningOperation.cycleCount ∧
      b.runningOperation.cycleKind b.cpu.cycleNumber.toInt = b.cpu.cycleKind := by
  have hlt := h.wellFormed.number_lt
  have hnumber := h.toNat_number
  rw [runningOperation_eq h]
  by_cases hawaits : b.awaitsOpcode
  · have hpos := (Operation.ofOpcode b.incoming).cycleCount_pos
    have hkind := (h.wellFormed.fetchesOpcode_iff.mpr hawaits.2).1
    rw [if_pos hawaits, hawaits.2, hkind]
    exact ⟨hpos, rfl⟩
  · rw [if_neg hawaits]
    exact ⟨by omega, h.wellFormed.cycleKind_eq.symm⟩

/-- The running machine cycle, and those after it. -/
theorem cyclesLeft_eq (h : b.Consistent) : b.cyclesLeft =
    ⟨b.cpu.cycleKind, b.runningOperation.hasExecutePhase b.cpu.cycleNumber.toInt
      (b.runningOperation.condition.holds b.cpu.flags)⟩ ::
    b.runningCycles.drop (b.cpu.cycleNumber.toInt.toNat + 1) := by
  obtain ⟨hlt, hkind⟩ := cycleKind_running h
  rw [cyclesLeft, runningCycles, Operation.drop_cycles _ _ hlt, Operation.cycle, h.toNat_number,
    hkind]

/-- A tick that starts no machine cycle leaves the place in the plan. -/
theorem place_tick (hs : b.tick.cpu.state.startsCycle = false) :
    b.tick.cpu.cycleKind = b.cpu.cycleKind ∧ b.tick.cpu.cycleNumber = b.cpu.cycleNumber ∧
      b.tick.cpu.isAcknowledge = b.cpu.isAcknowledge ∧
      b.tick.cpu.executes = (b.cpu.worked b.pins).executes := by
  rw [state_tick] at hs
  rw [cpu_tick, Processor.stepWith_eq, Processor.enter_of_not_startsCycle _ _ hs]
  exact ⟨Processor.cycleKind_worked, Processor.cycleNumber_worked, Processor.isAcknowledge_worked,
    rfl⟩

/-- A machine cycle keeps its kind. -/
theorem cycleKind_tick (hs : b.tick.cpu.state.startsCycle = false) :
    b.tick.cpu.cycleKind = b.cpu.cycleKind := (place_tick hs).1

/-! ### Ticks before `T3` -/

section

variable (h : b.Consistent) (hs : b.cpu.state.precedesT3 = true)

include hs

/-- Before `T3` a tick only moves on. -/
theorem cpu_tick_of_precedesT3 :
    b.tick.cpu.state = b.cpu.state.next { ready := b.readyLevel } ∧
      b.tick.cpu.cycleKind = b.cpu.cycleKind ∧ b.tick.cpu.cycleNumber = b.cpu.cycleNumber ∧
      b.tick.cpu.ir = b.cpu.ir ∧ b.tick.cpu.flags = b.cpu.flags := by
  rw [cpu_tick, Processor.stepWith_of_precedesT3 hs]
  exact ⟨rfl, rfl, rfl, rfl, rfl⟩

theorem reaches_tick_of_precedesT3 :
    (b.tick.cpu.state.precedesT3 = true ∨ b.tick.cpu.state = .t3) ∧ ¬b.tick.atBoundary := by
  rw [atBoundary, startsInstruction, (cpu_tick_of_precedesT3 hs).1]
  cases hstate : b.cpu.state <;> rw [hstate] at hs <;> first
    | contradiction
    | (cases b.readyLevel <;> simp [TState.next, TState.precedesT3, TState.startsCycle])

include h

theorem runningOpcode_tick_of_precedesT3 : b.tick.runningOpcode = b.runningOpcode := by
  obtain ⟨-, -, hnumber, hir, -⟩ := cpu_tick_of_precedesT3 hs
  have hawaits : b.tick.awaitsOpcode ↔ b.awaitsOpcode := by
    rw [awaitsOpcode, awaitsOpcode, hnumber, and_iff_right (reaches_tick_of_precedesT3 hs).1,
      and_iff_right (.inl hs)]
  simp only [runningOpcode, hawaits, incoming_tick_of_precedesT3 h hs, hir]

theorem cyclesLeft_tick_of_precedesT3 : b.tick.cyclesLeft = b.cyclesLeft := by
  obtain ⟨-, -, hnumber, -, hflags⟩ := cpu_tick_of_precedesT3 hs
  rw [cyclesLeft, cyclesLeft, runningCycles, runningCycles, runningOperation, runningOperation,
    runningOpcode_tick_of_precedesT3 h hs, hnumber, hflags]

theorem ahead_tick_of_precedesT3 (levels : List Bool) :
    b.ahead (b.readyLevel :: levels) = b.place :: b.tick.ahead levels := by
  obtain ⟨hstate, hkind, -⟩ := cpu_tick_of_precedesT3 hs
  have hcycles := cyclesLeft_tick_of_precedesT3 h hs
  rw [cyclesLeft_eq h] at hcycles
  cases hp : b.cpu.state with
  | t1 | t1i =>
    rw [hp, TState.next] at hstate
    simp only [ahead, hp, hstate, place, hkind, hcycles, cyclesLeft_eq h,
      Timetable.itinerary_cons]
  | t2 | wait =>
    rw [hp, TState.next] at hstate
    cases hready : b.readyLevel with
    | true =>
      rw [hready, if_pos rfl] at hstate
      simp only [ahead, hp, hstate, place, hcycles, cyclesLeft_eq h,
        Timetable.afterLook_of_ready]
    | false =>
      rw [hready, if_neg Bool.false_ne_true] at hstate
      simp only [ahead, hp, hstate, place, hkind, hcycles, cyclesLeft_eq h,
        Timetable.afterLook_of_not_ready]
  | _ => rw [hp] at hs; contradiction

end

/-! ### The tick of `T3` -/

section

variable (h : b.Consistent) (hs : b.cpu.state = .t3)

include h hs

/-- The opcode is in the instruction register after `T3`. -/
theorem ir_tick_eq_runningOpcode : b.tick.cpu.ir = b.runningOpcode := by
  rw [ir_tick_of_t3 h hs, runningOpcode]
  simp only [awaitsOpcode, hs, or_true, true_and]

theorem operation_tick_eq_runningOperation : b.tick.cpu.operation = b.runningOperation := by
  rw [h.tick.wellFormed.operation_eq, ir_tick_eq_runningOpcode h hs, runningOperation]

/-- Whether the running machine cycle is a long one. -/
theorem executes_eq : (b.cpu.worked b.pins).executes =
    b.runningOperation.hasExecutePhase b.cpu.cycleNumber.toInt
      (b.runningOperation.condition.holds b.cpu.flags) := by
  rw [executes_worked_of_t3 hs, operation_tick_eq_runningOperation h hs,
    flags_datapath_tick_of_t3 hs]

/-- The last machine cycle of an instruction has none after it. -/
theorem cyclesLeft_of_last (hlast : b.tick.cpu.operation.cycleCount ≤ b.cpu.cycleNumber.toInt + 1) :
    b.cyclesLeft = [⟨b.cpu.cycleKind, (b.cpu.worked b.pins).executes⟩] := by
  have hnumber := h.toNat_number
  rw [operation_tick_eq_runningOperation h hs] at hlast
  rw [cyclesLeft_eq h, executes_eq h hs, runningCycles, Operation.drop_cycles_of_last _ _ (by omega)]

theorem ahead_tick_of_halts (hhalts : (b.cpu.worked b.pins).halts = true) (levels : List Bool) :
    b.tick.atBoundary ∧ b.ahead (b.readyLevel :: levels) = [b.place] := by
  have hstopped : b.tick.cpu.state = .stopped := by
    rw [state_tick]
    exact TState.next_eq_stopped_iff.mpr (.inr ⟨hs, hhalts⟩)
  have hoperation : b.tick.cpu.operation = .halt := by
    rw [cpu_tick, Processor.operation_stepWith, Processor.operation_of_halts _ hhalts]
  have hexecutes : (b.cpu.worked b.pins).executes = false := by
    rw [executes_worked_of_t3 hs, hoperation, Operation.hasExecutePhase_halt]
  have hlast : b.tick.cpu.operation.cycleCount ≤ b.cpu.cycleNumber.toInt + 1 := by
    have := h.wellFormed.number_nonneg
    rw [hoperation, Operation.cycleCount_halt]
    omega
  refine ⟨.inr hstopped, ?_⟩
  simp only [ahead, hs, cyclesLeft_of_last h hs hlast, hexecutes, place,
    Timetable.fromT3_of_short]
  rfl

theorem ahead_tick_of_executes (hhalts : (b.cpu.worked b.pins).halts = false)
    (hexecutes : (b.cpu.worked b.pins).executes = true) (levels : List Bool) :
    ¬b.tick.atBoundary ∧ b.ahead (b.readyLevel :: levels) = b.place :: b.tick.ahead levels := by
  have hstate : b.tick.cpu.state = .t4 := by
    rw [state_tick]
    exact TState.next_eq_t4_iff.mpr ⟨hs, hhalts, hexecutes⟩
  have hkind := cycleKind_tick (b := b) (by rw [hstate]; rfl)
  have hlast := cycleCount_tick_of_executes h hs hexecutes
  refine ⟨not_atBoundary (by rw [hstate]; rfl), ?_⟩
  simp only [ahead, hs, hstate, place, hkind, cyclesLeft_of_last h hs (Int.le_of_eq hlast.symm),
    hexecutes, Timetable.fromT3_of_long]

theorem cyclesLeft_tick_of_not_last
    (hends : b.cpu.state.endsCycle ((b.cpu.worked b.pins).boundarySignals b.pins.ready))
    (hmore : ¬b.tick.cpu.operation.cycleCount ≤ b.cpu.cycleNumber.toInt + 1) :
    b.tick.cpu.state = .t1 ∧ b.tick.cpu.cycleNumber ≠ 0 ∧
      b.tick.cyclesLeft = b.runningCycles.drop (b.cpu.cycleNumber.toInt.toNat + 1) := by
  obtain ⟨hstarts, hnumber⟩ := number_tick_of_not_last h hs hends hmore
  have hnonneg := h.wellFormed.number_nonneg
  have hne : b.tick.cpu.cycleNumber ≠ 0 := by
    rw [ne_eq, Processor.cycleNumber_eq_zero_iff]
    omega
  have hstate : b.tick.cpu.state = .t1 := by
    refine (TState.startsCycle_iff.mp hstarts).resolve_right fun hacknowledge ↦ hne ?_
    have hwellFormed := h.tick.wellFormed
    exact hwellFormed.number_of_isAcknowledge (hwellFormed.isAcknowledge_of_t1i hacknowledge)
  have hopcode : b.tick.runningOpcode = b.runningOpcode := by
    rw [runningOpcode, if_neg fun hawaits ↦ hne hawaits.2, ir_tick_eq_runningOpcode h hs]
  have hflags : b.tick.cpu.flags = b.cpu.flags := flags_datapath_tick_of_t3 hs
  refine ⟨hstate, hne, ?_⟩
  rw [cyclesLeft, runningCycles, runningOperation, hopcode, hflags, hnumber, runningCycles,
    runningOperation]
  congr 1
  omega

theorem ahead_tick_of_not_executes (hhalts : (b.cpu.worked b.pins).halts = false)
    (hexecutes : (b.cpu.worked b.pins).executes = false) (levels : List Bool) :
    b.ahead (b.readyLevel :: levels) =
      b.place :: if b.tick.atBoundary then [] else b.tick.ahead levels := by
  have hends : b.cpu.state.endsCycle ((b.cpu.worked b.pins).boundarySignals b.pins.ready) :=
    .inr ⟨hs, hhalts, hexecutes⟩
  by_cases hlast : b.tick.cpu.operation.cycleCount ≤ b.cpu.cycleNumber.toInt + 1
  · rw [if_pos (.inl (startsInstruction_tick h hends hlast))]
    simp only [ahead, hs, cyclesLeft_of_last h hs hlast, hexecutes, place,
      Timetable.fromT3_of_short]
    rfl
  · obtain ⟨hstate, hne, hcycles⟩ := cyclesLeft_tick_of_not_last h hs hends hlast
    have hnot : ¬b.tick.atBoundary := by
      rintro (hstart | hstopped)
      · exact hne hstart.2
      · rw [hstate] at hstopped
        contradiction
    rw [if_neg hnot]
    simp only [ahead, hs, hstate, place, hcycles, cyclesLeft_eq h, ← executes_eq h hs, hexecutes,
      Timetable.fromT3_of_short]

theorem ahead_tick_of_t3 (levels : List Bool) : b.ahead (b.readyLevel :: levels) =
    b.place :: if b.tick.atBoundary then [] else b.tick.ahead levels := by
  cases hhalts : (b.cpu.worked b.pins).halts with
  | true =>
    obtain ⟨hboundary, hahead⟩ := ahead_tick_of_halts h hs hhalts levels
    rw [if_pos hboundary, hahead]
  | false =>
    cases hexecutes : (b.cpu.worked b.pins).executes with
    | false => exact ahead_tick_of_not_executes h hs hhalts hexecutes levels
    | true =>
      obtain ⟨hnot, hahead⟩ := ahead_tick_of_executes h hs hhalts hexecutes levels
      rw [if_neg hnot, hahead]

end

/-! ### The execute phase -/

theorem ahead_tick_of_t4 (hs : b.cpu.state = .t4) (levels : List Bool) :
    ¬b.tick.atBoundary ∧ b.ahead (b.readyLevel :: levels) = b.place :: b.tick.ahead levels := by
  have hstate : b.tick.cpu.state = .t5 := by rw [state_tick, hs, TState.next]
  have hkind := cycleKind_tick (b := b) (by rw [hstate]; rfl)
  refine ⟨not_atBoundary (by rw [hstate]; rfl), ?_⟩
  simp only [ahead, hs, hstate, place, hkind]

/-- A tick makes the first state of what is ahead, and leaves the rest of it. -/
theorem ahead_tick (h : b.Consistent) (hs : b.cpu.state ≠ .stopped) (levels : List Bool) :
    b.ahead (b.readyLevel :: levels) =
      b.place :: if b.tick.atBoundary then [] else b.tick.ahead levels := by
  cases hstate : b.cpu.state with
  | stopped => exact absurd hstate hs
  | t3 => exact ahead_tick_of_t3 h hstate levels
  | t4 =>
    obtain ⟨hnot, hahead⟩ := ahead_tick_of_t4 hstate levels
    rw [if_neg hnot, hahead]
  | t5 =>
    rw [if_pos (.inl (startsInstruction_tick_of_t5 h hstate)), ahead, hstate]
  | t1 | t1i | t2 | wait =>
    have hprecedes : b.cpu.state.precedesT3 = true := by rw [hstate]; rfl
    rw [if_neg (reaches_tick_of_precedesT3 hprecedes).2, ahead_tick_of_precedesT3 h hprecedes]

/-! ### The end of an instruction -/

/-- The board has just finished the instruction with an opcode, which halts it or not. -/
structure Finished (b : Board) (opcode : UInt8) : Prop where
  atBoundary : b.atBoundary
  ir_eq : b.cpu.ir = opcode
  stopped_iff : b.cpu.state = .stopped ↔ opcode.toNat ∈ [0, 1, 255]

/-- The instruction that a tick finishes halts exactly if it is a halt instruction. -/
theorem stopped_tick_iff (h : b.Consistent) (hs : b.cpu.state ≠ .stopped)
    (hboundary : b.tick.atBoundary) :
    b.tick.cpu.state = .stopped ↔ b.tick.cpu.operation = .halt := by
  constructor
  · intro hstopped
    rw [state_tick, TState.next_eq_stopped_iff] at hstopped
    obtain ⟨-, hhalts⟩ := hstopped.resolve_left fun hwas ↦ hs hwas.1
    rw [cpu_tick, Processor.operation_stepWith, Processor.operation_of_halts _ hhalts]
  · intro hoperation
    refine hboundary.resolve_left fun hstarts ↦ ?_
    have hends : b.cpu.state.endsCycle ((b.cpu.worked b.pins).boundarySignals b.pins.ready) := by
      have hstarts := hstarts.1
      rw [TState.startsCycle_iff, state_tick, TState.next_eq_t1_iff,
        TState.next_eq_t1i_iff] at hstarts
      rcases hstarts with ⟨hends, -⟩ | ⟨hwas, -⟩ | ⟨hends, -⟩
      · exact hends
      · exact absurd hwas hs
      · exact hends
    rw [cpu_tick] at hoperation
    exact (h.wellFormed.endsCycle_iff.mp hends).2 hoperation

/-- After `T3` the opcode has been taken, unless the instruction is over. -/
theorem not_awaitsOpcode_tick (hs : b.cpu.state.precedesT3 = false) (hnot : ¬b.tick.atBoundary) :
    ¬b.tick.awaitsOpcode := by
  rintro ⟨hstate, hnumber⟩
  refine hnot (.inl ⟨?_, hnumber⟩)
  rw [state_tick] at hstate ⊢
  cases hp : b.cpu.state <;> rw [hp] at hs hstate <;> first
    | contradiction
    | (simp only [TState.next, TState.cycleStart] at hstate ⊢; grind [TState.precedesT3])

/-- The running opcode stays the same, and is in the instruction register in the end. -/
theorem runningOpcode_tick (h : b.Consistent) :
    (if b.tick.atBoundary then b.tick.cpu.ir else b.tick.runningOpcode) = b.runningOpcode := by
  by_cases hprecedes : b.cpu.state.precedesT3 = true
  · rw [if_neg (reaches_tick_of_precedesT3 hprecedes).2]
    exact runningOpcode_tick_of_precedesT3 h hprecedes
  rw [Bool.not_eq_true] at hprecedes
  have hir : b.tick.cpu.ir = b.runningOpcode := by
    by_cases hs₃ : b.cpu.state = .t3
    · exact ir_tick_eq_runningOpcode h hs₃
    · have hawaits : ¬b.awaitsOpcode := by
        rintro ⟨hstate | hstate, -⟩
        · rw [hstate] at hprecedes
          contradiction
        · exact hs₃ hstate
      rw [runningOpcode, if_neg hawaits, cpu_tick, Processor.stepWith_eq, Processor.ir_enter,
        (Processor.worked_of_ne_t3 hs₃).2.2]
  split
  next => exact hir
  next hnot => rw [runningOpcode, if_neg (not_awaitsOpcode_tick hprecedes hnot), hir]

theorem finished_tick (h : b.Consistent) (hs : b.cpu.state ≠ .stopped)
    (hboundary : b.tick.atBoundary) : b.tick.Finished b.runningOpcode := by
  have hir := runningOpcode_tick h
  rw [if_pos hboundary] at hir
  refine ⟨hboundary, hir, ?_⟩
  rw [stopped_tick_iff h hs hboundary, h.tick.wellFormed.operation_eq, hir,
    Timetable.ofOpcode_eq_halt_iff]

/-! ### Schedules -/

theorem ahead_ne_nil (h : b.Consistent) (hs : b.cpu.state ≠ .stopped) (levels : List Bool) :
    b.ahead levels ≠ [] := by
  rw [ahead, cyclesLeft_eq h]
  cases hstate : b.cpu.state with
  | stopped => exact absurd hstate hs
  | t1 | t1i => exact Timetable.itinerary_ne_nil _ _ _ _
  | t3 => exact Timetable.fromT3_ne_nil _ _ _
  | t2 | wait | t4 | t5 => exact List.cons_ne_nil _ _

/-- A stimulus does not change the way ahead. -/
theorem ahead_meet (h : b.Consistent) (x : Stimulus) :
    (b.meet x).runningOpcode = b.runningOpcode ∧
      ∀ levels, (b.meet x).ahead levels = b.ahead levels := by
  obtain ⟨-, hcpu, hincoming⟩ := meet_frame h x
  have hawaits : (b.meet x).awaitsOpcode ↔ b.awaitsOpcode := by
    rw [awaitsOpcode, awaitsOpcode, hcpu]
  have hopcode : (b.meet x).runningOpcode = b.runningOpcode := by
    simp only [runningOpcode, hawaits, hcpu, hincoming]
  refine ⟨hopcode, fun levels ↦ ?_⟩
  simp only [ahead, place, cyclesLeft, runningCycles, runningOperation, hcpu, hopcode]

theorem ahead_drive (h : b.Consistent) (hs : b.cpu.state ≠ .stopped) (x : Stimulus)
    (levels : List Bool) :
    b.ahead (x.ready :: levels) =
      b.place :: if (b.drive x).atBoundary then [] else (b.drive x).ahead levels := by
  obtain ⟨hconsistent, hcpu, -⟩ := meet_frame h x
  have htick := ahead_tick hconsistent (hcpu ▸ hs) levels
  have hready : (b.meet x).readyLevel = x.ready := rfl
  have hplace : (b.meet x).place = b.place := by rw [place, place, hcpu]
  rw [(ahead_meet h x).2, hready, hplace] at htick
  exact htick

theorem runningOpcode_drive (h : b.Consistent) (x : Stimulus) :
    (if (b.drive x).atBoundary then (b.drive x).cpu.ir else (b.drive x).runningOpcode) =
      b.runningOpcode := by
  rw [← (ahead_meet h x).1]
  exact runningOpcode_tick (meet_frame h x).1

theorem finished_drive (h : b.Consistent) (hs : b.cpu.state ≠ .stopped) {x : Stimulus}
    (hboundary : (b.drive x).atBoundary) : (b.drive x).Finished b.runningOpcode := by
  obtain ⟨hconsistent, hcpu, -⟩ := meet_frame h x
  rw [← (ahead_meet h x).1]
  exact finished_tick hconsistent (hcpu ▸ hs) hboundary

/-- With any schedule a board goes the way ahead of it, and finishes its instruction where the way
ends and not before. -/
theorem goes_ahead (h : b.Consistent) (hs : b.cpu.state ≠ .stopped) (schedule : List Stimulus) :
    ((b.stages schedule).map place).take (b.ahead (schedule.map (·.ready))).length =
        (b.ahead (schedule.map (·.ready))).take schedule.length ∧
      ∀ n ≤ schedule.length, 0 < n →
        (n < (b.ahead (schedule.map (·.ready))).length →
          ¬(b.driveAll (schedule.take n)).atBoundary) ∧
        (n = (b.ahead (schedule.map (·.ready))).length →
          (b.driveAll (schedule.take n)).Finished b.runningOpcode) := by
  induction schedule generalizing b with
  | nil => exact ⟨by simp [stages], fun n hn hpos ↦ by rw [List.length_nil] at hn; omega⟩
  | cons x rest ih =>
    have hplace : (b.meet x).place = b.place := by
      rw [place, place, (meet_frame h x).2.1]
    rw [List.map_cons, ahead_drive h hs, stages, List.map_cons, hplace]
    by_cases hboundary : (b.drive x).atBoundary
    · rw [if_pos hboundary]
      refine ⟨by simp, fun n hn hpos ↦ ⟨fun hlt ↦ ?_, fun hend ↦ ?_⟩⟩
      · rw [List.length_singleton] at hlt
        omega
      · rw [hend]
        exact finished_drive h hs hboundary
    · -- the way goes on, and so does the board
      have hs' : (b.drive x).cpu.state ≠ .stopped := fun hstopped ↦ hboundary (.inr hstopped)
      obtain ⟨hvisited, hends⟩ := ih (h.drive x) hs'
      have hopcode := runningOpcode_drive h x
      have hne := List.length_pos_iff.mpr
        (ahead_ne_nil (h.drive x) hs' (rest.map (·.ready)))
      rw [if_neg hboundary] at hopcode ⊢
      rw [hopcode] at hends
      rw [List.length_cons, List.length_cons, List.take_succ_cons, List.take_succ_cons, hvisited]
      refine ⟨rfl, fun n hn hpos ↦ ?_⟩
      obtain ⟨m, rfl⟩ := Nat.exists_eq_add_of_le' hpos
      rw [List.take_succ_cons, driveAll_cons]
      rcases m.eq_zero_or_pos with rfl | hm
      · refine ⟨fun _ ↦ hboundary, fun hend ↦ ?_⟩
        omega
      · obtain ⟨hbefore, hend⟩ := hends m (by omega) hm
        exact ⟨fun hlt ↦ hbefore (by omega), fun heq ↦ hend (by omega)⟩

/-! ### Whole instructions -/

/-- The opcode of the instruction that a board starts: in `T1I` the one of the request on the line,
else the byte at the program counter. -/
def nextOpcode (b : Board) : UInt8 :=
  if b.cpu.state = .t1i then b.interrupter.opcode else b.datapath.byteAt b.cpu.pc

/-- The machine cycles that the timetable has for this instruction. -/
def timetable (b : Board) : List TimedCycle :=
  Timetable.cycles b.nextOpcode.toNat (b.machine.holds (b.nextOpcode.toNat / 8 % 8))

/-- The states that it has for this instruction with a schedule. -/
def route (b : Board) (schedule : List Stimulus) : List (TState × CycleKind) :=
  Timetable.itinerary b.cpu.state b.timetable (schedule.map (·.ready))

theorem runningOpcode_of_startsInstruction (h : b.Consistent) (hs : b.startsInstruction) :
    b.runningOpcode = b.nextOpcode := by
  obtain ⟨hstarts, hnumber⟩ := hs
  have hprecedes := TState.precedesT3_of_startsCycle hstarts
  rw [runningOpcode, if_pos ⟨.inl hprecedes, hnumber⟩, incoming, nextOpcode]
  rcases TState.startsCycle_iff.mp hstarts with hstate | hstate
  · rw [h.wellFormed.isAcknowledge_of_t1 hstate, hstate]
    rfl
  · rw [h.wellFormed.isAcknowledge_of_t1i hstate, hstate]
    rfl

/-- What is ahead of a board that starts an instruction is the route of the timetable. -/
theorem ahead_of_startsInstruction (h : b.Consistent) (hs : b.startsInstruction)
    (schedule : List Stimulus) : b.ahead (schedule.map (·.ready)) = b.route schedule := by
  have hcycles : b.cyclesLeft = b.timetable := by
    have hholds := b.datapath.holds_machine b.nextOpcode
    have hcycles := Timetable.cycles_eq b.nextOpcode b.cpu.flags
    rw [timetable, machine, ← hholds, cyclesLeft, hs.2, runningCycles, runningOperation,
      runningOpcode_of_startsInstruction h hs]
    exact hcycles.symm
  have hstarts := hs.1
  rw [ahead, route, hcycles]
  cases hstate : b.cpu.state <;> rw [hstate] at hstarts <;> first | rfl | contradiction

/-- With memory always ready the next boundary is at most eleven ticks away. -/
theorem exists_reachesBoundary (h : b.Consistent) (hs : b.startsInstruction)
    {schedule : List Stimulus} (hready : ∀ x ∈ schedule, x.ready = true)
    (hlong : 11 ≤ schedule.length) : ∃ n ≤ 11, b.ReachesBoundary (schedule.take n) := by
  have hrunning := hs.state_ne_stopped
  have hends := (goes_ahead h hrunning schedule).2
  have hpos := List.length_pos_iff.mpr (ahead_ne_nil h hrunning (schedule.map (·.ready)))
  have hle : (b.ahead (schedule.map (·.ready))).length ≤ 11 := by
    have hbound : ∀ n ∈ [3, 5, 6, 8, 9, 11], n ≤ 11 := by decide
    have hsum := Timetable.sum_stateCount_mem b.nextOpcode
      (b.machine.holds (b.nextOpcode.toNat / 8 % 8))
    rw [ahead_of_startsInstruction h hs, route, Timetable.length_itinerary_of_ready _ _ (by simpa)]
    exact hbound _ hsum
  generalize (b.ahead (schedule.map (·.ready))).length = n at hends hpos hle
  refine ⟨n, hle, ?_, ((hends n (by omega) hpos).2 rfl).atBoundary, fun m hm hmpos ↦ ?_⟩
  · rw [ne_eq, ← List.length_eq_zero_iff, List.length_take]
    omega
  · rw [List.length_take] at hm
    rw [List.take_take, Nat.min_eq_left (by omega)]
    exact (hends m (by omega) hmpos).1 (by omega)

/-- **Instructions keep to the timetable.** Take a reachable board that starts an instruction, and
any schedule of requests and levels of the ready line. The states that it goes through, each with
the kind of its machine cycle, are those of the route: those of the machine cycles that the
timetable has for the opcode, with the first one an acknowledge or not, and with a wait for each
time that the ready line is found low. The next boundary is at the end of the route, if the schedule
lasts so long, and nowhere before; the opcode is then in the instruction register, and the board is
stopped exactly if the opcode is one of those that halt. With memory always ready the length of the
route is the number of states in the timetable, one of 3, 5, 6, 8, 9 and 11. -/
theorem keeps_to_timetable {b : Board} (h : b.Reachable) (hs : b.startsInstruction)
    (schedule : List Stimulus) :
    ((b.stages schedule).map place).take (b.route schedule).length =
        (b.route schedule).take schedule.length ∧
      (∀ n ≤ schedule.length,
        b.ReachesBoundary (schedule.take n) ↔ n = (b.route schedule).length) ∧
      ((b.route schedule).length ≤ schedule.length →
        (b.driveAll (schedule.take (b.route schedule).length)).Finished b.nextOpcode) ∧
      ((∀ x ∈ schedule, x.ready = true) →
        (b.route schedule).length = (b.timetable.map TimedCycle.stateCount).sum ∧
        (b.timetable.map TimedCycle.stateCount).sum ∈ [3, 5, 6, 8, 9, 11]) := by
  have hrunning := hs.state_ne_stopped
  obtain ⟨hvisited, hends⟩ := goes_ahead h.consistent hrunning schedule
  have hpos := List.length_pos_iff.mpr
    (ahead_ne_nil h.consistent hrunning (schedule.map (·.ready)))
  rw [runningOpcode_of_startsInstruction h.consistent hs] at hends
  rw [ahead_of_startsInstruction h.consistent hs] at hvisited hends hpos
  refine ⟨hvisited, fun n hn ↦ ⟨fun hreach ↦ ?_, fun hend ↦ ?_⟩, fun hlong ↦ ?_, fun hready ↦ ?_⟩
  · have hnpos : 0 < n := by
      have hne := hreach.ne_nil
      rw [← List.length_pos_iff, List.length_take] at hne
      omega
    rcases Nat.lt_trichotomy n (b.route schedule).length with hlt | heq | hgt
    · exact absurd hreach.atBoundary ((hends n hn hnpos).1 hlt)
    · exact heq
    · -- the boundary at the end of the route would come before
      have hbefore := hreach.not_before (b.route schedule).length
        (by rw [List.length_take]; omega) hpos
      rw [List.take_take, Nat.min_eq_left (by omega)] at hbefore
      exact absurd ((hends _ (by omega) hpos).2 rfl).atBoundary hbefore
  · refine ⟨?_, ((hends n hn (by omega)).2 hend).atBoundary, fun m hm hmpos ↦ ?_⟩
    · rw [ne_eq, ← List.length_eq_zero_iff, List.length_take]
      omega
    · rw [List.length_take] at hm
      rw [List.take_take, Nat.min_eq_left (by omega)]
      exact (hends m (by omega) hmpos).1 (by omega)
  · exact (hends _ hlong hpos).2 rfl
  · refine ⟨Timetable.length_itinerary_of_ready _ _ fun ready hmem ↦ ?_,
      Timetable.sum_stateCount_mem _ _⟩
    obtain ⟨x, hx, rfl⟩ := List.mem_map.mp hmem
    exact hready x hx

/-- A board that starts a jump which is taken if there is no carry. -/
def conditionalJump : Board :=
  performAll {} [.load [0x06, 0x2a, 0x40, 0x00, 0x00] 0, .requestRestart 0, .run 15]

/-- Memory is not ready for the opcode and for the first byte of the address, and an interrupt is
requested in between. -/
def slowFetches : List Stimulus :=
  [{}, { ready := false }, { ready := false }, { requests := [0x05] }, {}, {}, { ready := false },
    {}, {}, {}, {}, {}, {}, {}]

theorem conditionalJump_states : conditionalJump.startsInstruction ∧
    conditionalJump.ReachesBoundary slowFetches ∧
    (conditionalJump.stages slowFetches).map place = conditionalJump.route slowFetches := by
  have hreachable : conditionalJump.Reachable := Reachable.fresh.performAll (by decide)
  obtain ⟨hstarts, hlength⟩ : conditionalJump.startsInstruction ∧
      (conditionalJump.route slowFetches).length = slowFetches.length := by decide +kernel
  obtain ⟨hvisited, hreach, -⟩ := keeps_to_timetable hreachable hstarts slowFetches
  have hstages : ((conditionalJump.stages slowFetches).map place).length = slowFetches.length := rfl
  rw [hlength, List.take_of_length_le (Nat.le_of_eq hstages),
    List.take_of_length_le (Nat.le_of_eq hlength)] at hvisited
  have hwhole := (hreach slowFetches.length (Nat.le_refl _)).mpr hlength.symm
  rw [List.take_length] at hwhole
  exact ⟨hstarts, hwhole, hvisited⟩

end Board

end Mcs8
