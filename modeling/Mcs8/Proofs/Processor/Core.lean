import Mcs8.Proofs.Processor.Acknowledge

/-!
# The core of the processor

A processor executes instructions and, beside that, watches its pins: it keeps samples of them, the
interrupt logic, and a count of its steps. Without these it is the core. The work of a state neither
looks at them nor touches them, but for the acceptance of an interrupt, so a step does to the core
what the byte on the bus and the state that is entered ask for (`core_stepWith`).
-/

namespace Mcs8

namespace Processor

/-- The processor without the samples of its pins, the interrupt logic and the count of steps. -/
def core (p : Processor) : Processor :=
  { p with
    busSample := 0
    readySample := true
    interruptSample := false
    accepted := false
    synchronizer := {}
    cycles := 0
    announces := false }

variable (p : Processor) (bus : UInt8)

@[simp] theorem state_core : p.core.state = p.state := rfl

@[simp] theorem offer_core : p.core.offer = p.offer := rfl

/-! ### Work on the core -/

theorem core_latchByte : (p.latchByte bus).core = p.core.latchByte bus := by
  have hoperation : p.core.operation = p.operation := rfl
  have hkind : p.core.cycleKind = p.cycleKind := rfl
  have hnumber : p.core.cycleNumber = p.cycleNumber := rfl
  simp only [latchByte, takeOpcode_eq, takeOperand_eq, hoperation, hkind, hnumber]
  cases p.cycleKind with
  | pci =>
    by_cases h : p.cycleNumber = 0
    · simp only [h, if_true]
      rfl
    · simp only [h, if_false]
      rfl
  | pcr | pcw => rfl
  | pcc => cases p.operation <;> rfl

theorem core_prepareResult : p.prepareResult.core = p.core.prepareResult := by
  have hoperation : p.core.operation = p.operation := rfl
  simp only [prepareResult, hoperation]
  cases p.operation with
  | move dst src | alu op src =>
    by_cases h : src = .M
    · simp only [h, if_true]
    · simp only [h, if_false]
      rfl
  | _ => rfl

theorem core_storeResult : p.storeResult.core = p.core.storeResult := by
  have hoperation : p.core.operation = p.operation := rfl
  simp only [storeResult, hoperation]
  cases p.operation <;> rfl

theorem core_work : (p.work bus).core = (p.core.work bus).core := by
  unfold work
  rw [state_core]
  cases p.state with
  | t3 =>
    rw [takeByte_eq, takeByte_eq, ← core_latchByte]
    rfl
  | t4 => rw [← core_prepareResult]; rfl
  | t5 => rw [← core_storeResult]; rfl
  | _ => rfl

theorem core_enter (next : TState) : (p.enter next).core = (p.core.enter next).core := by
  cases next <;> rfl

/-! ### Steps of the core -/

variable {p} {x : Pins}

theorem core_worked : (p.worked x).core = (p.core.work x.bus).core :=
  core_work (p.sample x.bus x.ready x.interrupt) x.bus

/-- What the sequencer looks at: the ready line, the core, and the interrupt logic. -/
theorem state_stepWith : (p.stepWith x).state = p.state.next
    { ready := x.ready
      interrupt := (p.synchronizer.clock x.interrupt).pending
      executes := (p.core.work x.bus).executes
      halt := (p.core.work x.bus).halts
      acknowledge := (p.worked x).accepted } := by
  have hexecutes : (p.worked x).executes = (p.core.work x.bus).executes := by
    show (p.worked x).core.executes = (p.core.work x.bus).core.executes
    rw [core_worked]
  have hhalts : (p.worked x).halts = (p.core.work x.bus).halts := by
    show (p.worked x).core.halts = (p.core.work x.bus).core.halts
    rw [core_worked]
  rw [stepWith_eq, state_enter, boundarySignals, synchronizer_worked, hexecutes, hhalts]

/-- A step does to the core what the byte on the bus and the state that is entered ask for. -/
theorem core_stepWith :
    (p.stepWith x).core = ((p.core.work x.bus).enter (p.stepWith x).state).core := by
  rw [stepWith_eq, state_enter, core_enter, core_worked, ← core_enter]

/-- Processors with the same core that watch their pins alike are the same. -/
theorem eq_of_core {p q : Processor} (hcore : p.core = q.core)
    (hsamples : p.busSample = q.busSample ∧ p.readySample = q.readySample ∧
      p.interruptSample = q.interruptSample)
    (hinterrupt : p.accepted = q.accepted ∧ p.synchronizer = q.synchronizer)
    (hcycles : p.cycles = q.cycles) (hannounces : p.announces = q.announces) : p = q := by
  obtain ⟨hbus, hready, hline⟩ := hsamples
  obtain ⟨haccepted, hsynchronizer⟩ := hinterrupt
  have hwhole (r : Processor) : r =
      { r.core with
        busSample := r.busSample
        readySample := r.readySample
        interruptSample := r.interruptSample
        accepted := r.accepted
        synchronizer := r.synchronizer
        cycles := r.cycles
        announces := r.announces } := rfl
  rw [hwhole p, hwhole q, hcore, hbus, hready, hline, haccepted, hsynchronizer, hcycles, hannounces]

/-- A step keeps the levels that it found at the pins, and counts. -/
theorem samples_stepWith : (p.stepWith x).busSample = x.bus ∧
    (p.stepWith x).readySample = x.ready ∧ (p.stepWith x).interruptSample = x.interrupt ∧
    (p.stepWith x).cycles = p.cycles + 1 ∧ (p.stepWith x).announces = p.announces := by
  rw [stepWith_eq, worked, work_frame]
  cases p.state.next _ <;> exact ⟨rfl, rfl, rfl, rfl, rfl⟩

/-! ### Accepting an interrupt -/

/-- Only `T3` accepts an interrupt or takes an opcode. -/
theorem worked_of_ne_t3 (hs : p.state ≠ .t3) :
    (p.worked x).accepted = p.accepted ∧ (p.worked x).operation = p.operation ∧
      (p.worked x).ir = p.ir := by
  cases hstate : p.state with
  | t3 => exact absurd hstate hs
  | t4 => rw [worked_of_t4 hstate, prepareResult_frame]; exact ⟨rfl, rfl, rfl⟩
  | t5 => rw [worked_of_t5 hstate, storeResult_frame]; exact ⟨rfl, rfl, rfl⟩
  | stopped | t1 | t1i | t2 | wait =>
    rw [worked_of_idle (by simp [hstate]) (by simp [hstate]) (by simp [hstate])]
    exact ⟨rfl, rfl, rfl⟩

/-- Where no request is pending, none is accepted. -/
theorem accepted_worked_of_not_pending (h : p.accepted = false)
    (hpending : (p.synchronizer.clock x.interrupt).pending = false) :
    (p.worked x).accepted = false := by
  by_cases hs : p.state = .t3
  · have haccepts : (p.worked x).accepts = false := by
      rw [accepts, synchronizer_worked, hpending, Bool.and_false]
    rw [accepted_worked hs, h, haccepts, Bool.and_false, Bool.or_false]
  · rw [(worked_of_ne_t3 hs).1, h]

/-- An interrupt that is accepted was accepted in the last machine cycle of an instruction. -/
theorem WellFormed.cycleCount_of_accepted_worked (h : p.WellFormed)
    (ha : (p.worked x).accepted = true) :
    (p.worked x).operation.cycleCount = p.cycleNumber.toInt + 1 := by
  by_cases hs : p.state = .t3
  · exact ((h.accepted_worked_of_t3 hs).mp ha).2.1.symm
  · obtain ⟨haccepted, hoperation, -⟩ := worked_of_ne_t3 (x := x) hs
    rw [haccepted] at ha
    rw [hoperation, h.cycleCount_of_executes (h.executes_of_accepted ha)]

end Processor

end Mcs8
