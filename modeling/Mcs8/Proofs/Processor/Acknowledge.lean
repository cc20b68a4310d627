import Mathlib.Data.List.Induction
import Mcs8.Proofs.Processor.WellFormed

/-!
# When an interrupt is acknowledged

The synchronizer latches a request at any clock state, but the processor acknowledges it at two
kinds of places only: while it is stopped, and at the end of an instruction that ends with a fetch,
if the request was latched by the `T3` of that fetch. Between that `T3` and the end there may be
`T4` and `T5`, so the decision has to be kept for two steps, in the flag `accepted`.

The invariant that carries it is `accepted_run`: in `T4` and `T5` the flag says exactly that the
running machine cycle is a fetch and that a request was latched at the latest `T3`. With it, the
places are read off the sequencer (`state_stepWith_eq_t1i_iff`, `state_stepWith_eq_t1_iff`).
-/

namespace Mcs8

/-- A step of a run: the processor before it, and the pins. -/
structure Moment where
  processor : Processor
  pins : Pins

namespace Moment

/-- A request is latched once the level of the interrupt line is clocked in. -/
def latches (m : Moment) : Bool :=
  (m.processor.synchronizer.clock m.pins.interrupt).pending

/-- Whether a request was latched at the latest `T3` of a run. -/
def latchedAtT3 (moments : List Moment) : Bool :=
  (moments.reverse.find? (·.processor.state = .t3)).any latches

theorem latchedAtT3_append_of_t3 {m : Moment} (moments : List Moment)
    (h : m.processor.state = .t3) : latchedAtT3 (moments ++ [m]) = m.latches := by
  simp [latchedAtT3, h]

theorem latchedAtT3_append_of_ne {m : Moment} (moments : List Moment)
    (h : m.processor.state ≠ .t3) : latchedAtT3 (moments ++ [m]) = latchedAtT3 moments := by
  simp [latchedAtT3, h]

end Moment

namespace Processor

/-- The steps of a run, in order. -/
def history (p : Processor) : List Pins → List Moment
  | [] => []
  | x :: rest => ⟨p, x⟩ :: (p.stepWith x).history rest

theorem history_append (p : Processor) (pins : List Pins) (x : Pins) :
    p.history (pins ++ [x]) = p.history pins ++ [⟨p.run pins, x⟩] := by
  induction pins generalizing p with
  | nil => rfl
  | cons y pins ih => rw [List.cons_append, history, ih]; rfl

variable (p : Processor) (x : Pins)

/-- The step leaves the last state of a machine cycle: `T5`, or `T3` if no execute phase follows.
The instruction is the one in the instruction register after the step, since in `T3` the opcode may
just have been taken. -/
def leavesCycle : Prop :=
  p.state = .t5 ∨ p.state = .t3 ∧
    (p.stepWith x).operation.hasExecutePhase p.cycleNumber.toInt
      ((p.stepWith x).operation.condition.holds p.flags) = false

/-- The step leaves the last state of the last machine cycle of an instruction that does not halt,
and this cycle is a fetch. -/
def leavesLastFetch : Prop :=
  p.leavesCycle x ∧ (p.stepWith x).operation ≠ .halt ∧
    p.cycleNumber.toInt + 1 = (p.stepWith x).operation.cycleCount ∧ p.cycleKind = .pci

/-! ### The accepted request -/

variable {p x}

/-- In `T3` the instruction halts exactly if it is the halt instruction. -/
theorem Aligned.halts_eq_false_iff (h : p.Aligned) (hs : p.state = .t3) :
    p.halts = false ↔ p.operation ≠ .halt := by
  rw [Bool.eq_false_iff, ne_eq, not_iff_not]
  refine ⟨operation_of_halts p, fun ho ↦ ?_⟩
  have hlt := h.number_lt
  rw [ho, Operation.cycleCount_halt] at hlt
  have hzero : p.cycleNumber = 0 := by
    have := h.number_nonneg
    exact cycleNumber_eq_zero_iff.mpr (by omega)
  have hkind := (h.fetchesOpcode_iff.mpr hzero).1
  simp [halts, hs, hkind, hzero, ho]

namespace WellFormed

theorem aligned_worked (h : p.WellFormed) : (p.worked x).Aligned :=
  (h.toAligned.sample _ _ _).work _

/-- A processor with an execute phase is in the last machine cycle of its instruction. -/
theorem cycleCount_of_executes (h : p.WellFormed) (he : p.executes = true) :
    p.cycleNumber.toInt + 1 = p.operation.cycleCount :=
  Operation.cycleCount_of_hasExecutePhase (h.hasExecutePhase_of_executes he) h.number_nonneg
    h.number_lt

theorem operation_ne_halt_of_executes (h : p.WellFormed) (he : p.executes = true) :
    p.operation ≠ .halt := by
  intro ho
  have hphase := h.hasExecutePhase_of_executes he
  rw [ho, Operation.hasExecutePhase_halt] at hphase
  contradiction

/-- What `T3` decides about an interrupt. -/
theorem accepted_worked_of_t3 (h : p.WellFormed) (hs : p.state = .t3) :
    (p.worked x).accepted = true ↔ (p.worked x).halts = false ∧
      p.cycleNumber.toInt + 1 = (p.worked x).operation.cycleCount ∧ p.cycleKind = .pci ∧
      (Moment.mk p x).latches = true := by
  have hwas : p.accepted = false := h.accepted_eq_false (by simp [hs]) (by simp [hs])
  rw [accepted_worked hs, hwas, Bool.false_or, Bool.and_eq_true, Bool.not_eq_true', accepts,
    Bool.and_eq_true, Bool.and_eq_true, decide_eq_true_eq, decide_eq_true_eq, cycleKind_worked,
    cycleNumber_worked, synchronizer_worked, and_assoc, and_left_comm (b := _ + 1 = _)]
  rfl

/-- The sequencer goes on to another machine cycle where the last state of one is left, but not
from the fetch of a halt instruction. -/
theorem endsCycle_iff (h : p.WellFormed) :
    p.state.endsCycle ((p.worked x).boundarySignals x.ready) ↔
      p.leavesCycle x ∧ (p.stepWith x).operation ≠ .halt := by
  rw [TState.endsCycle, leavesCycle, operation_stepWith]
  show _ ∨ _ ∧ (p.worked x).halts = false ∧ (p.worked x).executes = false ↔ _
  constructor
  · rintro (hs | ⟨hs, hh, he⟩)
    · refine ⟨.inl hs, ?_⟩
      rw [worked_of_t5 hs, storeResult_frame]
      exact h.operation_ne_halt_of_executes (h.executes_iff.mpr (.inr hs))
    · rw [executes_worked hs] at he
      have hstate : (p.worked x).state = .t3 := state_worked.trans hs
      exact ⟨.inr ⟨hs, he⟩, (h.aligned_worked.halts_eq_false_iff hstate).mp hh⟩
  · rintro ⟨hs | ⟨hs, he⟩, hne⟩
    · exact .inl hs
    · have hstate : (p.worked x).state = .t3 := state_worked.trans hs
      rw [← executes_worked hs] at he
      exact .inr ⟨hs, (h.aligned_worked.halts_eq_false_iff hstate).mpr hne, he⟩

end WellFormed

/-- The flag that keeps the decision of `T3` for the execute phase says what it should: in `T4` and
`T5` it is up exactly if the machine cycle is a fetch and its `T3` saw a latched request. -/
theorem accepted_run (p₀ : Processor) (pins : List Pins)
    (hs : (p₀.reset.run pins).state = .t4 ∨ (p₀.reset.run pins).state = .t5) :
    (p₀.reset.run pins).accepted = true ↔
      (p₀.reset.run pins).cycleKind = .pci ∧
        Moment.latchedAtT3 (p₀.reset.history pins) = true := by
  -- the latest step is at the end of the list, so the induction is from there
  induction pins using List.reverseRecOn with
  | nil => exact absurd hs (by simp [reset, load])
  | append_singleton pins x ih =>
    have hwf := (wellFormed_reset p₀).run pins
    rw [run_append, history_append] at *
    generalize p₀.reset.run pins = p at *
    have hq : (p.run [x]) = p.stepWith x := rfl
    rw [hq] at hs ⊢
    have hwf' : (p.stepWith x).WellFormed := hwf.step _ _ _
    have hlast := hwf'.cycleCount_of_executes (hwf'.executes_iff.mpr hs)
    rw [operation_stepWith] at hlast
    rw [stepWith_eq, state_enter] at hs
    have hidle : (p.state.next ((p.worked x).boundarySignals x.ready)).startsCycle = false := by
      rcases hs with hs | hs <;> rw [hs] <;> rfl
    rw [stepWith_eq, enter_of_not_startsCycle _ _ hidle] at hlast ⊢
    rw [TState.next_eq_t4_iff, TState.next_eq_t5_iff] at hs
    show (p.worked x).accepted = true ↔ (p.worked x).cycleKind = .pci ∧ _
    -- `T4` is entered from `T3`, where the flag is raised, and `T5` from `T4`, which keeps it
    rcases hs with ⟨hs, hhalts, -⟩ | hs
    · have hhalts : (p.worked x).halts = false := hhalts
      have hnumber : p.cycleNumber.toInt + 1 = (p.worked x).operation.cycleCount := by
        rw [← hlast]
        exact congrArg (·.toInt + 1) cycleNumber_worked.symm
      rw [Moment.latchedAtT3_append_of_t3 _ hs, hwf.accepted_worked_of_t3 hs, cycleKind_worked,
        and_iff_right hhalts, and_iff_right hnumber]
    · rw [Moment.latchedAtT3_append_of_ne _ (by simp [hs]), worked_of_t4 hs, prepareResult_frame]
      exact ih (.inl hs)

/-- Where a machine cycle ends, an acknowledge is due exactly if this was the last fetch of an
instruction and its `T3` saw a latched request. -/
theorem accepted_worked_iff (p₀ : Processor) (pins : List Pins) (x : Pins)
    (hleaves : (p₀.reset.run pins).leavesCycle x)
    (hne : ((p₀.reset.run pins).stepWith x).operation ≠ .halt) :
    ((p₀.reset.run pins).worked x).accepted = true ↔
      (p₀.reset.run pins).leavesLastFetch x ∧
        Moment.latchedAtT3 (p₀.reset.history (pins ++ [x])) = true := by
  have hwf := (wellFormed_reset p₀).run pins
  have hkept := accepted_run p₀ pins
  rw [leavesLastFetch, and_iff_right hleaves, and_iff_right hne, history_append, operation_stepWith]
  rw [operation_stepWith] at hne
  generalize p₀.reset.run pins = p at *
  rcases hleaves with hs | ⟨hs, -⟩
  · have hexecutes : p.executes = true := hwf.executes_iff.mpr (.inr hs)
    have hlast := hwf.cycleCount_of_executes hexecutes
    rw [Moment.latchedAtT3_append_of_ne _ (by simp [hs]), worked_of_t5 hs, storeResult_frame]
    show p.accepted = true ↔ (_ = (p.operation.cycleCount : Int) ∧ _) ∧ _
    rw [hkept (.inr hs), and_iff_right hlast]
  · have hstate : (p.worked x).state = .t3 := state_worked.trans hs
    have hhalts := (hwf.aligned_worked.halts_eq_false_iff hstate).mpr hne
    rw [Moment.latchedAtT3_append_of_t3 _ hs, hwf.accepted_worked_of_t3 hs, and_iff_right hhalts,
      and_assoc]

theorem state_stepWith_eq_t1i_iff (p₀ : Processor) (pins : List Pins) (x : Pins) :
    ((p₀.reset.run pins).stepWith x).state = .t1i ↔
      (p₀.reset.run pins).state = .stopped ∧ (Moment.mk (p₀.reset.run pins) x).latches = true ∨
      (p₀.reset.run pins).leavesLastFetch x ∧
        Moment.latchedAtT3 (p₀.reset.history (pins ++ [x])) = true := by
  have hwf := (wellFormed_reset p₀).run pins
  have haccepted := accepted_worked_iff p₀ pins x
  generalize p₀.reset.run pins = p at *
  have hrequest : (p.worked x).synchronizer.pending = (Moment.mk p x).latches :=
    congrArg Synchronizer.pending synchronizer_worked
  rw [stepWith_eq, state_enter, TState.next_eq_t1i_iff, hwf.endsCycle_iff]
  show _ ∧ (p.worked x).synchronizer.pending = true ∨ _ ∧ (p.worked x).accepted = true ↔ _
  rw [hrequest, and_assoc]
  refine or_congr_right ⟨?_, ?_⟩
  · rintro ⟨hleaves, hne, ha⟩
    exact (haccepted hleaves hne).mp ha
  · rintro ⟨hlast, hlatched⟩
    exact ⟨hlast.1, hlast.2.1, (haccepted hlast.1 hlast.2.1).mpr ⟨hlast, hlatched⟩⟩

theorem state_stepWith_eq_t1_iff (p₀ : Processor) (pins : List Pins) (x : Pins) :
    ((p₀.reset.run pins).stepWith x).state = .t1 ↔
      (p₀.reset.run pins).leavesCycle x ∧
      ((p₀.reset.run pins).stepWith x).operation ≠ .halt ∧
      ¬((p₀.reset.run pins).leavesLastFetch x ∧
        Moment.latchedAtT3 (p₀.reset.history (pins ++ [x])) = true) := by
  have hwf := (wellFormed_reset p₀).run pins
  have haccepted := accepted_worked_iff p₀ pins x
  generalize p₀.reset.run pins = p at *
  rw [← and_assoc, ← hwf.endsCycle_iff, stepWith_eq, state_enter, TState.next_eq_t1_iff,
    hwf.endsCycle_iff]
  refine and_congr_right fun hends ↦ ?_
  show (p.worked x).accepted = false ↔ _
  rw [← haccepted hends.1 hends.2, Bool.not_eq_true]

/-! ### The program counter during an acknowledge -/

/-- The program counter stays where it is in the steps of an acknowledge before `T5`. -/
theorem pc_worked_of_isAcknowledge {p : Processor} (h : p.WellFormed) (x : Pins)
    (hack : p.isAcknowledge = true) (hs : p.state ≠ .t5) : (p.worked x).pc = p.pc := by
  have hnumber := h.number_of_isAcknowledge hack
  cases hp : p.state with
  | stopped | t1 | t1i | t2 | wait =>
    rw [worked_of_idle] <;> first | rfl | simp [hp]
  | t3 =>
    rw [worked_of_t3 hp, takeByte_eq]
    refine (pc_latchByte _ _).trans (if_neg fun hmoves ↦ ?_)
    exact absurd (hack.symm.trans (hmoves.2 hnumber)) (by decide)
  | t4 => rw [worked_of_t4 hp, prepareResult_frame]; rfl
  | t5 => exact absurd hp hs

theorem pc_run_of_isAcknowledge {p : Processor} (h : p.WellFormed) (pins : List Pins)
    (hack : p.state = .t1 ∨ p.isAcknowledge = true)
    (hsteps : ∀ m ∈ p.history pins, m.processor.state ≠ .t5 ∧ m.processor.state ≠ .t1) :
    (p.run pins).pc = p.pc := by
  induction pins generalizing p with
  | nil => rfl
  | cons x pins ih =>
    obtain ⟨hs₅, hs₁⟩ := hsteps ⟨p, x⟩ List.mem_cons_self
    have hack := hack.resolve_left hs₁
    have hpc : (p.stepWith x).pc = p.pc := by
      rw [stepWith_eq, pc_enter, pc_worked_of_isAcknowledge h x hack hs₅]
    have hack' : (p.stepWith x).state = .t1 ∨ (p.stepWith x).isAcknowledge = true := by
      rw [stepWith_eq, state_enter]
      cases p.state.next ((p.worked x).boundarySignals x.ready) with
      | t1 => exact .inl rfl
      | t1i => exact .inr rfl
      | _ => exact .inr (isAcknowledge_worked.trans hack)
    rw [run_cons, ← hpc]
    exact ih (h.step _ _ _) hack' fun m hm ↦ hsteps m (List.mem_cons_of_mem _ hm)

/-! ### The points of acknowledgement -/

/-- **An interrupt is acknowledged exactly at the end of an instruction that ends with a fetch,
and while the processor is stopped.** For every run from a reset and one more step:

* the step enters `T1I` exactly if the processor is stopped and a request is latched with this
  step's level clocked in, or the step leaves the last state of the last fetch of an instruction
  that does not halt, and the request was latched at the `T3` of that fetch;
* it enters `T1` exactly if it leaves the last state of any other machine cycle, or of such a fetch
  whose `T3` saw no latched request;
* in `T1I` the request is cleared and machine cycle 0, a fetch, begins;
* from then on the program counter does not move before a step leaves `T5` or another `T1`. -/
theorem acknowledge_points (p₀ : Processor) (pins : List Pins) (x : Pins) :
    (((p₀.reset.run pins).stepWith x).state = .t1i ↔
      (p₀.reset.run pins).state = .stopped ∧ (Moment.mk (p₀.reset.run pins) x).latches = true ∨
      (p₀.reset.run pins).leavesLastFetch x ∧
        Moment.latchedAtT3 (p₀.reset.history (pins ++ [x])) = true) ∧
    (((p₀.reset.run pins).stepWith x).state = .t1 ↔
      (p₀.reset.run pins).leavesCycle x ∧
      ((p₀.reset.run pins).stepWith x).operation ≠ .halt ∧
      ¬((p₀.reset.run pins).leavesLastFetch x ∧
        Moment.latchedAtT3 (p₀.reset.history (pins ++ [x])) = true)) ∧
    (((p₀.reset.run pins).stepWith x).state = .t1i →
      ((p₀.reset.run pins).stepWith x).synchronizer.pending = false ∧
      ((p₀.reset.run pins).stepWith x).cycleNumber = 0 ∧
      ((p₀.reset.run pins).stepWith x).cycleKind = .pci ∧
      ∀ more : List Pins,
        (∀ m ∈ ((p₀.reset.run pins).stepWith x).history more,
          m.processor.state ≠ .t5 ∧ m.processor.state ≠ .t1) →
        (((p₀.reset.run pins).stepWith x).run more).pc = ((p₀.reset.run pins).stepWith x).pc) := by
  refine ⟨state_stepWith_eq_t1i_iff p₀ pins x, state_stepWith_eq_t1_iff p₀ pins x, fun hs ↦ ?_⟩
  have hwf : ((p₀.reset.run pins).stepWith x).WellFormed :=
    ((wellFormed_reset p₀).run pins).step _ _ _
  have hack := hwf.isAcknowledge_of_t1i hs
  have hnumber := hwf.number_of_isAcknowledge hack
  refine ⟨?_, hnumber, (hwf.fetchesOpcode_iff.mpr hnumber).1, fun more hsteps ↦
    pc_run_of_isAcknowledge hwf more (.inr hack) hsteps⟩
  rw [stepWith_eq, state_enter] at hs
  rw [stepWith_eq, hs]
  rfl

end Processor

end Mcs8
