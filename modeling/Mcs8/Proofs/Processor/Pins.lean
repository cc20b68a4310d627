import Mcs8.Proofs.Processor.Core

/-!
# What the processor looks at

The processor samples all its pins in every clock state, but what it does depends on few of the
samples. It looks at the ready line where it may have to wait, in `T2` and `WAIT`, and at the bus
where it takes a byte, in the `T3` of the machine cycles that read (`Processor.readsBus`). Only the
interrupt line is looked at all the time. Elsewhere a device may leave the bus alone or drive
anything on it.

Pins that agree as far as the processor looks are told apart by the samples only, and those are
overwritten in the next step. It cannot be less: pins that do not agree lead to different states
(`Processor.unsampled_stepWith_iff`).
-/

namespace Mcs8

theorem TState.next_congr {s : TState} {g g' : BoundarySignals}
    (h : { g with ready := true } = { g' with ready := true })
    (hready : s = .t2 ∨ s = .wait → g.ready = g'.ready) : s.next g = s.next g' := by
  obtain ⟨ready, interrupt, executes, halt, acknowledge⟩ := g
  obtain ⟨ready', interrupt', executes', halt', acknowledge'⟩ := g'
  simp only [BoundarySignals.mk.injEq, true_and] at h
  obtain ⟨rfl, rfl, rfl, rfl⟩ := h
  cases s with
  | t2 => rw [show ready = ready' from hready (.inl rfl)]
  | wait => rw [show ready = ready' from hready (.inr rfl)]
  | _ => rfl

namespace Processor

variable (p : Processor)

/-- The processor looks at the ready line. -/
def readsReady : Prop := p.state = .t2 ∨ p.state = .wait

/-- The processor looks at the bus: it is in the `T3` of a fetch, of a read from memory, or of the
input cycle of an input instruction. -/
def readsBus : Prop :=
  p.state = .t3 ∧ (p.cycleKind = .pci ∨ p.cycleKind = .pcr ∨
    p.cycleKind = .pcc ∧ p.operation.kind = .input)

instance : Decidable p.readsReady := inferInstanceAs (Decidable (_ ∨ _))

instance : Decidable p.readsBus := inferInstanceAs (Decidable (_ ∧ _))

/-- Pins agree as far as the processor looks. -/
structure AgreeFor (x y : Pins) : Prop where
  interrupt_eq : x.interrupt = y.interrupt
  ready_eq : p.readsReady → x.ready = y.ready
  bus_eq : p.readsBus → x.bus = y.bus

instance (x y : Pins) : Decidable (p.AgreeFor x y) :=
  decidable_of_iff (x.interrupt = y.interrupt ∧ (p.readsReady → x.ready = y.ready) ∧
    (p.readsBus → x.bus = y.bus)) ⟨fun h ↦ ⟨h.1, h.2.1, h.2.2⟩, fun h ↦ ⟨h.1, h.2, h.3⟩⟩

/-- The processor without the samples of the bus and of the ready line. -/
def unsampled : Processor := { p with busSample := 0, readySample := true }

variable {p} {x y : Pins} {bus bus' : UInt8}

/-! ### What has no influence -/

theorem latchByte_of_not_readsBus (hs : p.state = .t3) (h : ¬p.readsBus) :
    p.latchByte bus = p := by
  cases hk : p.cycleKind with
  | pci => exact absurd ⟨hs, .inl hk⟩ h
  | pcr => exact absurd ⟨hs, .inr (.inl hk)⟩ h
  | pcw => exact p.latchByte_of_pcw bus hk
  | pcc =>
    cases ho : p.operation with
    | input port => exact absurd ⟨hs, .inr (.inr ⟨hk, by rw [ho]; rfl⟩)⟩ h
    | _ => rw [latchByte, hk, ho]

/-- The byte on the bus matters to the work of a state only where the processor looks at it. -/
theorem work_congr (h : p.readsBus → bus = bus') : p.work bus = p.work bus' := by
  by_cases hs : p.state = .t3
  · have hlatch : p.latchByte bus = p.latchByte bus' := by
      by_cases hreads : p.readsBus
      · rw [h hreads]
      · rw [latchByte_of_not_readsBus hs hreads, latchByte_of_not_readsBus hs hreads]
    rw [work_of_t3 _ _ hs, work_of_t3 _ _ hs, takeByte_eq, takeByte_eq, hlatch]
  · unfold work
    split
    · contradiction
    all_goals rfl

/-- An interrupt is accepted or not as the core and the interrupt logic have it. -/
theorem accepted_worked_congr (hcore : (p.worked x).core = (p.worked y).core)
    (hsynchronizer : (p.worked x).synchronizer = (p.worked y).synchronizer) :
    (p.worked x).accepted = (p.worked y).accepted := by
  by_cases hs : p.state = .t3
  · have hhalts : (p.worked x).halts = (p.worked y).halts := by
      show (p.worked x).core.halts = (p.worked y).core.halts
      rw [hcore]
    have hoperation : (p.worked x).operation = (p.worked y).operation := by
      show (p.worked x).core.operation = (p.worked y).core.operation
      rw [hcore]
    have haccepts : (p.worked x).accepts = (p.worked y).accepts := by
      rw [accepts, accepts, cycleKind_worked, cycleKind_worked, cycleNumber_worked,
        cycleNumber_worked, hoperation, hsynchronizer]
    rw [accepted_worked hs, accepted_worked hs, hhalts, haccepts]
  · rw [(worked_of_ne_t3 hs).1, (worked_of_ne_t3 hs).1]

theorem unsampled_worked (hinterrupt : x.interrupt = y.interrupt)
    (hbus : p.readsBus → x.bus = y.bus) : (p.worked x).unsampled = (p.worked y).unsampled := by
  have hcore : (p.worked x).core = (p.worked y).core := by
    rw [core_worked, core_worked, work_congr (p := p.core) hbus]
  have hsynchronizer : (p.worked x).synchronizer = (p.worked y).synchronizer := by
    rw [synchronizer_worked, synchronizer_worked, hinterrupt]
  have hframe (z : Pins) : (p.worked z).interruptSample = z.interrupt ∧
      (p.worked z).cycles = p.cycles ∧ (p.worked z).announces = p.announces := by
    rw [worked, work_frame]
    exact ⟨rfl, rfl, rfl⟩
  obtain ⟨hsample, hcycles, hannounces⟩ := hframe x
  obtain ⟨hsample', hcycles', hannounces'⟩ := hframe y
  exact eq_of_core hcore ⟨rfl, rfl, hsample.trans (hinterrupt.trans hsample'.symm)⟩
    ⟨accepted_worked_congr hcore hsynchronizer, hsynchronizer⟩ (hcycles.trans hcycles'.symm)
    (hannounces.trans hannounces'.symm)

theorem unsampled_enter (next : TState) : (p.enter next).unsampled = p.unsampled.enter next := by
  cases next <;> rfl

/-- A step does not look at the samples of the one before. -/
theorem stepWith_unsampled : p.unsampled.stepWith x = p.stepWith x := rfl

/-- Pins that agree as far as the processor looks lead to the same state. -/
theorem AgreeFor.unsampled_stepWith (h : p.AgreeFor x y) :
    (p.stepWith x).unsampled = (p.stepWith y).unsampled := by
  have hworked := unsampled_worked h.interrupt_eq h.bus_eq
  have hnext : p.state.next ((p.worked x).boundarySignals x.ready) =
      p.state.next ((p.worked y).boundarySignals y.ready) := by
    refine TState.next_congr ?_ h.ready_eq
    show (p.worked x).unsampled.boundarySignals true = (p.worked y).unsampled.boundarySignals true
    rw [hworked]
  rw [stepWith_eq, stepWith_eq, unsampled_enter, unsampled_enter, hworked, hnext]

/-! ### What has influence -/

/-- The register in which the processor `p` keeps a byte that it takes, as `after` has it: an opcode
in the instruction register, a second operand in `a`, anything else in `b`. -/
def kept (p after : Processor) : UInt8 :=
  if p.cycleKind = .pci ∧ p.cycleNumber = 0 then after.ir
  else if p.cycleKind = .pci ∧ p.cycleNumber ≠ 1 then after.tempA
  else after.tempB

theorem kept_latchByte (h : p.readsBus) : p.kept (p.latchByte bus) = bus := by
  rcases h with ⟨-, hk | hk | ⟨hk, hkind⟩⟩
  · by_cases hzero : p.cycleNumber = 0
    · rw [latchByte_of_opcode _ ⟨hk, hzero⟩, takeOpcode_eq]
      simp [kept, hk, hzero]
    · rw [latchByte_of_operand _ hk hzero, takeOperand_eq]
      by_cases hone : p.cycleNumber = 1 <;> simp [kept, hk, hzero, hone]
  · rw [latchByte_of_pcr _ hk]
    simp [kept, hk]
  · cases ho : p.operation with
    | input port =>
      rw [latchByte_of_input _ hk ho]
      simp [kept, hk]
    | _ => simp [ho, Operation.kind] at hkind

/-- Where the processor looks at the bus, it keeps the byte. -/
theorem kept_stepWith (h : p.readsBus) : p.kept (p.stepWith x) = x.bus := by
  have hsampled : (p.sample x.bus x.ready x.interrupt).readsBus := h
  have hkept : p.kept ((p.sample x.bus x.ready x.interrupt).takeByte x.bus) = x.bus := by
    rw [takeByte_eq]
    exact kept_latchByte hsampled
  rw [stepWith_eq, worked_of_t3 h.1]
  cases p.state.next _ <;> exact hkept

/-- **The processor looks at its pins exactly there.** Two steps of a processor lead to the same
state, but for the samples, if and only if the pins agree as far as it looks. -/
theorem unsampled_stepWith_iff :
    (p.stepWith x).unsampled = (p.stepWith y).unsampled ↔ p.AgreeFor x y := by
  refine ⟨fun h ↦ ⟨?_, fun hreads ↦ ?_, fun hreads ↦ ?_⟩, AgreeFor.unsampled_stepWith⟩
  · have hsample : (p.stepWith x).interruptSample = (p.stepWith y).interruptSample :=
      congrArg (·.interruptSample) h
    rwa [samples_stepWith.2.2.1, samples_stepWith.2.2.1] at hsample
  · have hstate : (p.stepWith x).state = (p.stepWith y).state := congrArg (·.state) h
    rw [state_stepWith, state_stepWith] at hstate
    rcases hreads with hs | hs <;> rw [hs] at hstate <;>
      cases hx : x.ready <;> cases hy : y.ready <;> simp_all [TState.next]
  · have hx : p.kept (p.stepWith x).unsampled = x.bus := kept_stepWith hreads
    have hy : p.kept (p.stepWith y).unsampled = y.bus := kept_stepWith hreads
    rw [← hx, h, hy]

/-! ### Runs -/

/-- Pins that agree at every clock as far as the processor looks, lead to the same states. -/
theorem unsampled_run_take {first second : List Pins} (hlength : first.length = second.length)
    (h : ∀ i (hi : i < first.length) (hi' : i < second.length),
      (p.run (first.take i)).AgreeFor first[i] second[i]) {i : Nat} (hi : i ≤ first.length) :
    (p.run (first.take i)).unsampled = (p.run (second.take i)).unsampled := by
  induction i with
  | zero => rfl
  | succ i ih =>
    have hlt : i < second.length := hlength ▸ hi
    rw [← List.take_append_getElem hi, ← List.take_append_getElem hlt, run_append, run_append]
    -- both runs go on from states that differ in their samples only
    calc ((p.run (first.take i)).stepWith first[i]).unsampled
        = ((p.run (first.take i)).stepWith second[i]).unsampled :=
          (h i hi hlt).unsampled_stepWith
      _ = ((p.run (first.take i)).unsampled.stepWith second[i]).unsampled := by
          rw [stepWith_unsampled]
      _ = ((p.run (second.take i)).unsampled.stepWith second[i]).unsampled := by
          rw [ih (Nat.le_of_succ_le hi)]
      _ = ((p.run (second.take i)).stepWith second[i]).unsampled := by
          rw [stepWith_unsampled]

/-- **Pins that the processor does not look at have no influence.** Two runs of a processor, whatever
state it begins in, with pins that agree at every clock as far as the first run looks: after every
clock the processors have the same state, but for the samples of the bus and of the ready line, and
they offer the same on the bus and send the same address. -/
theorem run_ignores_unread (p : Processor) (first second : List Pins)
    (hlength : first.length = second.length)
    (h : ∀ i (hi : i < first.length) (hi' : i < second.length),
      (p.run (first.take i)).AgreeFor first[i] second[i]) (i : Nat) (hi : i ≤ first.length) :
    (p.run (second.take i) =
      { p.run (first.take i) with
        busSample := (p.run (second.take i)).busSample
        readySample := (p.run (second.take i)).readySample }) ∧
    (p.run (first.take i)).offer = (p.run (second.take i)).offer ∧
    (p.run (first.take i)).sentAddress = (p.run (second.take i)).sentAddress := by
  have hrun := unsampled_run_take hlength h hi
  refine ⟨?_, congrArg (fun q ↦ q.offer) hrun, congrArg (·.sentAddress) hrun⟩
  exact congrArg (fun q ↦ { q with
    busSample := (p.run (second.take i)).busSample
    readySample := (p.run (second.take i)).readySample }) hrun.symm

/-- An input instruction as the answer to an interrupt, which reads 2a, and then an output
instruction, fetched with a wait. Where the processor does not look, the bus carries `idle` and the
ready line is at the level `ready`. -/
def inputThenOutput (idle : UInt8) (ready : Bool) : List Pins :=
  [⟨idle, ready, true⟩, ⟨idle, ready, true⟩,
    ⟨idle, ready, true⟩, ⟨idle, true, false⟩, ⟨0x43, ready, false⟩,
    ⟨idle, ready, false⟩, ⟨idle, true, false⟩, ⟨0x2a, ready, false⟩,
    ⟨idle, ready, false⟩, ⟨idle, ready, false⟩,
    ⟨idle, ready, false⟩, ⟨idle, false, false⟩, ⟨idle, true, false⟩, ⟨0x51, ready, false⟩,
    ⟨idle, ready, false⟩, ⟨idle, true, false⟩, ⟨idle, ready, false⟩]

theorem inputThenOutput_agreeFor (i : Nat) (hi : i < (inputThenOutput 0 true).length)
    (hi' : i < (inputThenOutput 0xff false).length) :
    (({} : Processor).run ((inputThenOutput 0 true).take i)).AgreeFor
      (inputThenOutput 0 true)[i] (inputThenOutput 0xff false)[i] := by
  revert i
  decide +kernel

theorem inputThenOutput_ignores_idle :
    (({} : Processor).run ((inputThenOutput 0xff false).take 14)).offer = ⟨true, 0x2a⟩ ∧
      (({} : Processor).run ((inputThenOutput 0 true).take 14)).offer =
        (({} : Processor).run ((inputThenOutput 0xff false).take 14)).offer :=
  have h := run_ignores_unread {} (inputThenOutput 0 true) (inputThenOutput 0xff false) rfl
    inputThenOutput_agreeFor 14 (by decide)
  ⟨by decide +kernel, h.2.1⟩

end Processor

end Mcs8
