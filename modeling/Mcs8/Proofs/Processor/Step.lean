import Mcs8.Processor

/-!
# One step of the processor

A step samples the pins, does the work of its state and enters the next state. Each of these touches
few fields: the `_frame` equations say which ones, and the simp lemmas read the others off. What the
work decides is read off at three places: `operation_work` (the opcode just taken), `executes_work`
(an execute phase follows) and `accepted_work` (an interrupt is accepted).

The last statement, `cycleCount_of_hasExecutePhase`, is about the plan of machine cycles: only the
last cycle of an instruction has an execute phase, so nothing follows `T5` within an instruction.
-/

namespace Mcs8

namespace Operation

variable {o : Operation} {cycle : Int} {met : Bool}

@[simp] theorem cycleKind_zero (o : Operation) : o.cycleKind 0 = .pci := rfl

@[simp] theorem hasExecutePhase_halt : halt.hasExecutePhase cycle met = false := rfl

@[simp] theorem cycleCount_halt : halt.cycleCount = 1 := rfl

theorem cycleCount_move (dst src : Register) :
    (move dst src).cycleCount = if dst = .M ∨ src = .M then 2 else 1 := by
  cases dst <;> cases src <;> rfl

theorem cycleCount_alu (op : BinaryOp) (src : Register) :
    (alu op src).cycleCount = if src = .M then 2 else 1 := by
  cases src <;> rfl

/-- Only the last machine cycle of an instruction has an execute phase. -/
theorem cycleCount_of_hasExecutePhase (h : o.hasExecutePhase cycle met = true) (h₀ : 0 ≤ cycle)
    (hlt : cycle < o.cycleCount) : cycle + 1 = o.cycleCount := by
  cases o with
  | move dst src =>
    rw [cycleCount_move] at hlt ⊢
    by_cases hdst : dst = .M
    · -- a store has no execute phase
      subst hdst
      contradiction
    · grind [hasExecutePhase]
  | alu op src =>
    rw [cycleCount_alu] at hlt ⊢
    grind [hasExecutePhase]
  | moveImmediate dst => cases dst <;> grind [hasExecutePhase, cycleCount]
  | _ => grind [hasExecutePhase, cycleCount]

end Operation

namespace TState

variable {s : TState} {g : BoundarySignals}

/-! ### The sequencer, by the state that is entered -/

theorem next_eq_t4_iff : s.next g = .t4 ↔ s = .t3 ∧ g.halt = false ∧ g.executes = true := by
  cases s <;> simp [next, cycleStart] <;> grind

theorem next_eq_t5_iff : s.next g = .t5 ↔ s = .t4 := by
  cases s <;> simp [next, cycleStart] <;> grind

theorem next_eq_stopped_iff : s.next g = .stopped ↔
    s = .stopped ∧ g.interrupt = false ∨ s = .t3 ∧ g.halt = true := by
  cases s <;> simp [next, cycleStart] <;> grind

/-- The signals with which a state is the last one of its machine cycle. -/
def endsCycle (s : TState) (g : BoundarySignals) : Prop :=
  s = .t5 ∨ s = .t3 ∧ g.halt = false ∧ g.executes = false

theorem next_eq_t1_iff : s.next g = .t1 ↔ s.endsCycle g ∧ g.acknowledge = false := by
  cases s <;> simp [next, cycleStart, endsCycle] <;> grind

theorem next_eq_t1i_iff : s.next g = .t1i ↔
    s = .stopped ∧ g.interrupt = true ∨ s.endsCycle g ∧ g.acknowledge = true := by
  cases s <;> simp [next, cycleStart, endsCycle] <;> grind

theorem startsCycle_iff : s.startsCycle = true ↔ s = .t1 ∨ s = .t1i := by
  rw [startsCycle, Bool.or_eq_true, beq_iff_eq, beq_iff_eq]

/-- The last state of a machine cycle is followed by the first one of another. -/
theorem startsCycle_next_of_endsCycle (h : s.endsCycle g) : (s.next g).startsCycle = true := by
  rw [startsCycle_iff, next_eq_t1_iff, next_eq_t1i_iff]
  cases g.acknowledge <;> simp [h]

end TState

namespace Processor

variable (p : Processor) (bus : UInt8) (ready interrupt : Bool)

/-- The machine cycle is the fetch of an opcode. -/
def fetchesOpcode : Prop := p.cycleKind = .pci ∧ p.cycleNumber = 0

instance : Decidable p.fetchesOpcode := inferInstanceAs (Decidable (_ ∧ _))

/-! ### Taking a byte -/

theorem takeOpcode_eq : p.takeOpcode bus =
    { p with
      ir := bus
      decoded := decode bus
      pc := if p.isAcknowledge then p.pc else (p.pc + 1) % addressSpace } := by
  cases h : p.isAcknowledge <;>
    simp [takeOpcode, setIr, h, ProcessorState.advancePc, ProcessorState.setPc]

theorem takeOperand_eq : p.takeOperand bus =
    { p with
      pc := (p.pc + 1) % addressSpace
      tempA := if p.cycleNumber = 1 then p.tempA else bus
      tempB := if p.cycleNumber = 1 then bus else p.tempB } := by
  by_cases h : p.cycleNumber = 1 <;>
    simp [takeOperand, h, ProcessorState.advancePc, ProcessorState.setPc]

section

variable {p}

theorem latchByte_of_opcode (h : p.fetchesOpcode) : p.latchByte bus = p.takeOpcode bus := by
  rw [latchByte, h.1]
  exact if_pos h.2

theorem latchByte_of_operand (h : p.cycleKind = .pci) (hn : p.cycleNumber ≠ 0) :
    p.latchByte bus = p.takeOperand bus := by
  rw [latchByte, h]
  exact if_neg hn

theorem latchByte_of_pcr (h : p.cycleKind = .pcr) : p.latchByte bus = { p with tempB := bus } := by
  rw [latchByte, h]

theorem latchByte_of_pcw (h : p.cycleKind = .pcw) : p.latchByte bus = p := by
  rw [latchByte, h]

theorem latchByte_of_input {port : UInt8} (h : p.cycleKind = .pcc)
    (ho : p.operation = .input port) : p.latchByte bus = { p with tempB := bus } := by
  rw [latchByte, h, ho]

theorem latchByte_of_output {port : UInt8} (h : p.cycleKind = .pcc)
    (ho : p.operation = .output port) : p.latchByte bus = p := by
  rw [latchByte, h, ho]

end

theorem latchByte_frame : p.latchByte bus =
    { p with
      pc := (p.latchByte bus).pc
      ir := (p.latchByte bus).ir
      tempA := (p.latchByte bus).tempA
      tempB := (p.latchByte bus).tempB
      decoded := (p.latchByte bus).decoded } := by
  unfold latchByte
  simp only [takeOpcode_eq, takeOperand_eq]
  split
  · split <;> rfl
  · rfl
  · rfl
  · split <;> rfl

/-- An opcode fetch decodes the byte; any other cycle keeps the instruction register. -/
theorem ir_latchByte :
    (p.latchByte bus).ir = if p.fetchesOpcode then bus else p.ir := by
  cases hk : p.cycleKind with
  | pci => by_cases h : p.cycleNumber = 0 <;>
      simp [latchByte, fetchesOpcode, takeOpcode_eq, takeOperand_eq, hk, h]
  | pcr | pcw => simp [latchByte, fetchesOpcode, hk]
  | pcc => cases ho : p.operation <;> simp [latchByte, fetchesOpcode, hk, ho]

theorem decoded_latchByte :
    (p.latchByte bus).decoded = if p.fetchesOpcode then decode bus else p.decoded := by
  cases hk : p.cycleKind with
  | pci => by_cases h : p.cycleNumber = 0 <;>
      simp [latchByte, fetchesOpcode, takeOpcode_eq, takeOperand_eq, hk, h]
  | pcr | pcw => simp [latchByte, fetchesOpcode, hk]
  | pcc => cases ho : p.operation <;> simp [latchByte, fetchesOpcode, hk, ho]

theorem operation_latchByte : (p.latchByte bus).operation =
    if p.fetchesOpcode then .ofOpcode bus else p.operation := by
  rw [operation, decoded_latchByte]
  split <;> rfl

/-- The program counter moves on in every fetch but that of an answer to an acknowledge. -/
theorem pc_latchByte : (p.latchByte bus).pc =
    if p.cycleKind = .pci ∧ (p.cycleNumber = 0 → p.isAcknowledge = false) then
      (p.pc + 1) % addressSpace
    else p.pc := by
  cases hk : p.cycleKind with
  | pci => by_cases h : p.cycleNumber = 0 <;> cases ha : p.isAcknowledge <;>
      simp [latchByte, takeOpcode_eq, takeOperand_eq, hk, h, ha]
  | pcr | pcw => simp [latchByte, hk]
  | pcc => cases ho : p.operation <;> simp [latchByte, hk, ho]

theorem takeByte_eq : p.takeByte bus =
    { p.latchByte bus with
      conditionHeld := (p.latchByte bus).operation.condition.holds p.flags
      executes := (p.latchByte bus).operation.hasExecutePhase p.cycleNumber.toInt
        ((p.latchByte bus).operation.condition.holds p.flags)
      accepted := p.accepted || (!(p.latchByte bus).halts && (p.latchByte bus).accepts) } := by
  have hflags : (p.latchByte bus).flags = p.flags := by rw [latchByte_frame]
  have hnumber : (p.latchByte bus).cycleNumber = p.cycleNumber := by rw [latchByte_frame]
  have haccepted : (p.latchByte bus).accepted = p.accepted := by rw [latchByte_frame]
  have hhalts : (p.latchByte bus).resolveCondition.halts = (p.latchByte bus).halts := rfl
  have haccepts : (p.latchByte bus).resolveCondition.accepts = (p.latchByte bus).accepts := rfl
  rw [takeByte, hhalts, haccepts, ← hflags, ← hnumber, ← haccepted]
  cases h : (p.latchByte bus).halts <;> cases (p.latchByte bus).accepts <;> simp [resolveCondition]

theorem operation_takeByte : (p.takeByte bus).operation =
    if p.fetchesOpcode then .ofOpcode bus else p.operation := by
  rw [takeByte_eq]
  exact p.operation_latchByte bus

/-! ### Executing -/

theorem prepareResult_frame : p.prepareResult =
    { p with
      stack := p.prepareResult.stack
      tempA := p.prepareResult.tempA
      tempB := p.prepareResult.tempB } := by
  unfold prepareResult
  split <;> first | rfl | (split <;> rfl)

theorem storeResult_frame : p.storeResult =
    { p with
      registers := p.storeResult.registers
      flags := p.storeResult.flags
      pc := p.storeResult.pc } := by
  unfold storeResult
  split <;> rfl

/-! ### The work of any state -/

theorem work_frame : p.work bus =
    { p with
      registers := (p.work bus).registers
      flags := (p.work bus).flags
      pc := (p.work bus).pc
      stack := (p.work bus).stack
      ir := (p.work bus).ir
      tempA := (p.work bus).tempA
      tempB := (p.work bus).tempB
      executes := (p.work bus).executes
      conditionHeld := (p.work bus).conditionHeld
      accepted := (p.work bus).accepted
      decoded := (p.work bus).decoded } := by
  unfold work
  split
  · rw [takeByte_eq, latchByte_frame]
  · rw [prepareResult_frame]
  · rw [storeResult_frame]
  · rfl

@[simp] theorem state_work : (p.work bus).state = p.state := by rw [work_frame]

@[simp] theorem cycleKind_work : (p.work bus).cycleKind = p.cycleKind := by rw [work_frame]

@[simp] theorem cycleNumber_work : (p.work bus).cycleNumber = p.cycleNumber := by rw [work_frame]

@[simp] theorem isAcknowledge_work : (p.work bus).isAcknowledge = p.isAcknowledge := by
  rw [work_frame]

@[simp] theorem synchronizer_work : (p.work bus).synchronizer = p.synchronizer := by
  rw [work_frame]

theorem work_of_t3 (h : p.state = .t3) : p.work bus = p.takeByte bus := by rw [work, h]

theorem work_of_t4 (h : p.state = .t4) : p.work bus = p.prepareResult := by rw [work, h]

theorem work_of_t5 (h : p.state = .t5) : p.work bus = p.storeResult := by rw [work, h]

/-- Only `T3`, `T4` and `T5` have work to do. -/
theorem work_of_idle (h₃ : p.state ≠ .t3) (h₄ : p.state ≠ .t4) (h₅ : p.state ≠ .t5) :
    p.work bus = p := by
  cases h : p.state <;> first | contradiction | rw [work, h]

theorem operation_work : (p.work bus).operation =
    if p.state = .t3 ∧ p.fetchesOpcode then .ofOpcode bus else p.operation := by
  unfold work
  split
  next h => rw [operation_takeByte]; simp [h]
  next h => rw [prepareResult_frame]; simp [h, operation]
  next h => rw [storeResult_frame]; simp [h, operation]
  next h _ _ => rw [if_neg fun hc ↦ h hc.1]

theorem conditionHeld_work (h : p.state = .t3) :
    (p.work bus).conditionHeld = (p.work bus).operation.condition.holds p.flags := by
  rw [work_of_t3 p bus h, takeByte_eq]
  rfl

/-- A byte taken in `T3` decides whether an execute phase follows. -/
theorem executes_work (h : p.state = .t3) : (p.work bus).executes =
    (p.work bus).operation.hasExecutePhase p.cycleNumber.toInt
      ((p.work bus).operation.condition.holds p.flags) := by
  rw [work_of_t3 p bus h, takeByte_eq]
  rfl

/-- An interrupt is accepted in `T3` unless the instruction halts, or its last machine cycle is of
another kind or still to come. -/
theorem accepted_work (h : p.state = .t3) : (p.work bus).accepted =
    (p.accepted || (!(p.work bus).halts && (p.work bus).accepts)) := by
  rw [work_of_t3 p bus h, takeByte_eq]
  rfl

theorem operation_of_halts (h : p.halts = true) : p.operation = .halt := by
  simp only [halts, Bool.and_eq_true, decide_eq_true_eq] at h
  exact h.2

theorem cycleKind_of_accepts (h : p.accepts = true) : p.cycleKind = .pci := by
  simp only [accepts, Bool.and_eq_true, decide_eq_true_eq] at h
  exact h.1.1

/-! ### Entering a state -/

variable (next : TState)

@[simp] theorem state_enter : (p.enter next).state = next := rfl

@[simp] theorem operation_enter : (p.enter next).operation = p.operation := by
  cases next <;> rfl

theorem executes_enter : (p.enter next).executes = (!next.startsCycle && p.executes) := by
  cases next <;> rfl

theorem accepted_enter : (p.enter next).accepted = (next != .t1i && p.accepted) := by
  cases next <;> rfl

@[simp] theorem ir_enter : (p.enter next).ir = p.ir := by
  cases next <;> rfl

@[simp] theorem pc_enter : (p.enter next).pc = p.pc := by
  cases next <;> rfl

@[simp] theorem stack_enter : (p.enter next).stack = p.stack := by
  cases next <;> rfl

/-- A state that starts no machine cycle leaves the place in the plan and the latched request. -/
theorem enter_of_not_startsCycle (h : next.startsCycle = false) :
    p.enter next = { p with state := next, cycles := p.cycles + 1 } := by
  cases next <;> first | rfl | contradiction

/-! ### Steps -/

theorem step_eq : p.step bus ready interrupt =
    ((p.sample bus ready interrupt).work bus).enter
      (p.state.next (((p.sample bus ready interrupt).work bus).boundarySignals ready)) := by
  rw [step, state_work]
  rfl

end Processor

/-- The levels at the pins during one clock state. -/
structure Pins where
  bus : UInt8
  ready : Bool
  interrupt : Bool

namespace Processor

/-- One clock state with the given pins. -/
def stepWith (p : Processor) (x : Pins) : Processor := p.step x.bus x.ready x.interrupt

/-- One clock state after the other. -/
def run (p : Processor) (pins : List Pins) : Processor := pins.foldl stepWith p

@[simp] theorem run_nil (p : Processor) : p.run [] = p := rfl

@[simp] theorem run_cons (p : Processor) (x : Pins) (pins : List Pins) :
    p.run (x :: pins) = (p.stepWith x).run pins := rfl

theorem run_append (p : Processor) (pins more : List Pins) :
    p.run (pins ++ more) = (p.run pins).run more := by
  simp [run]

/-- The processor as a step leaves it before it enters the next state. -/
def worked (p : Processor) (x : Pins) : Processor :=
  (p.sample x.bus x.ready x.interrupt).work x.bus

variable {p : Processor} {x : Pins}

theorem stepWith_eq :
    p.stepWith x = (p.worked x).enter (p.state.next ((p.worked x).boundarySignals x.ready)) :=
  step_eq p x.bus x.ready x.interrupt

@[simp] theorem state_worked : (p.worked x).state = p.state := state_work _ _

@[simp] theorem cycleKind_worked : (p.worked x).cycleKind = p.cycleKind := cycleKind_work _ _

@[simp] theorem cycleNumber_worked : (p.worked x).cycleNumber = p.cycleNumber :=
  cycleNumber_work _ _

@[simp] theorem isAcknowledge_worked : (p.worked x).isAcknowledge = p.isAcknowledge :=
  isAcknowledge_work _ _

@[simp] theorem synchronizer_worked :
    (p.worked x).synchronizer = p.synchronizer.clock x.interrupt := synchronizer_work _ _

@[simp] theorem operation_stepWith : (p.stepWith x).operation = (p.worked x).operation := by
  rw [stepWith_eq, operation_enter]

theorem worked_of_t3 (h : p.state = .t3) :
    p.worked x = (p.sample x.bus x.ready x.interrupt).takeByte x.bus := work_of_t3 _ _ h

theorem worked_of_t4 (h : p.state = .t4) :
    p.worked x = (p.sample x.bus x.ready x.interrupt).prepareResult := work_of_t4 _ _ h

theorem worked_of_t5 (h : p.state = .t5) :
    p.worked x = (p.sample x.bus x.ready x.interrupt).storeResult := work_of_t5 _ _ h

/-- Only `T3`, `T4` and `T5` do more than sample the pins. -/
theorem worked_of_idle (h₃ : p.state ≠ .t3) (h₄ : p.state ≠ .t4) (h₅ : p.state ≠ .t5) :
    p.worked x = p.sample x.bus x.ready x.interrupt := work_of_idle _ _ h₃ h₄ h₅

theorem executes_worked (h : p.state = .t3) : (p.worked x).executes =
    (p.worked x).operation.hasExecutePhase p.cycleNumber.toInt
      ((p.worked x).operation.condition.holds p.flags) :=
  executes_work (p.sample x.bus x.ready x.interrupt) x.bus h

theorem accepted_worked (h : p.state = .t3) : (p.worked x).accepted =
    (p.accepted || (!(p.worked x).halts && (p.worked x).accepts)) :=
  accepted_work (p.sample x.bus x.ready x.interrupt) x.bus h

end Processor

end Mcs8
