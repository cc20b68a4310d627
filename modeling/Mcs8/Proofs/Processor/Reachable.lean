import Mathlib.Tactic.Common
import Mcs8.Proofs.Access.Processor
import Mcs8.Proofs.Processor.WellFormed

/-!
# Reachable processors

The processors that power-on, steps with any pins, resets, changes to registers, flags, program
counter and step count, and the takeover of saved states lead to (`Reachable`). All of them are
well-formed (`Reachable.wellFormed`), since none of these reaches into the instruction, its machine
cycle or the flags of the sequencer.

A well-formed processor never takes `M` for a register: it is the destination of no operation that
has an execute phase, and the source of no store (`WellFormed.names`). The decoder has a part in
this, for it knows no increment or decrement of `M` and no move from `M` to `M`.
-/

namespace Mcs8

namespace Operation

/-- The decoder does not know the operations that would work on `M` in place. -/
theorem ofOpcode_not_mem (opcode : UInt8) :
    ofOpcode opcode ∉ [increment .M, decrement .M, move .M .M] := by
  have htable : ∀ n < 256, ofOpcode (.ofNat n) ∉ [increment .M, decrement .M, move .M .M] := by
    decide +kernel
  simpa using htable opcode.toNat opcode.toNat_lt

/-- What has an execute phase does not store to memory. -/
theorem dst_ne_M {o : Operation} (ho : o ∉ [increment .M, decrement .M, move .M .M]) {cycle : Int}
    {met : Bool} (h : o.hasExecutePhase cycle met = true) : o.dst ≠ .M := by
  cases o with
  | move reg _ => cases reg <;> simp_all [hasExecutePhase, dst]
  | moveImmediate _ => simp_all [hasExecutePhase, dst]
  | increment _ | decrement _ => simp_all [dst]
  | _ => simp [dst]

/-- What stores to memory does not read memory. -/
theorem src_ne_M {o : Operation} (ho : o ∉ [increment .M, decrement .M, move .M .M]) {cycle : Int}
    (h : o.cycleKind cycle = .pcw) : o.src ≠ .M := by
  unfold cycleKind at h
  split at h
  · contradiction
  · cases o with
    | move reg _ => cases reg <;> simp_all [src]
    | alu _ _ => contradiction
    | _ => simp [src]

end Operation

namespace Processor

/-- The processors that can come about without a change to the instruction register from outside. -/
inductive Reachable : Processor → Prop
  | powerOn : Reachable {}
  | step {p : Processor} (h : Reachable p) (x : Pins) : Reachable (p.stepWith x)
  | reset {p : Processor} (h : Reachable p) : Reachable p.reset
  | setRegister {p : Processor} (h : Reachable p) (r : Register) (value : UInt8) :
    Reachable { p with toProcessorState := p.toProcessorState.setRegister r value }
  | setFlags {p : Processor} (h : Reachable p) (flags : Flags) : Reachable { p with flags }
  | setPc {p : Processor} (h : Reachable p) (pc : UInt16) :
    Reachable { p with toProcessorState := p.toProcessorState.setPc pc }
  | setCycles {p : Processor} (h : Reachable p) (cycles : UInt64) : Reachable { p with cycles }
  | setAnnounces {p : Processor} (h : Reachable p) (announces : Bool) :
    Reachable { p with announces }
  | load {p saved : Processor} (h : Reachable p) (hsaved : Reachable saved) :
    Reachable (p.load saved.toProcessorState)

variable {p : Processor}

theorem Reachable.run (h : p.Reachable) (pins : List Pins) : (p.run pins).Reachable := by
  induction pins generalizing p with
  | nil => exact h
  | cons x pins ih => exact ih (h.step x)

theorem Reachable.wellFormed (h : p.Reachable) : p.WellFormed := by
  induction h with
  | powerOn => exact wellFormed_reset {}
  | step _ x ih => exact ih.stepWith x
  | reset => exact wellFormed_reset _
  | setRegister _ r value ih => exact { ih with }
  | setFlags _ flags ih => exact { ih with }
  | setPc _ pc ih => exact { ih with pc_lt := address_mod_lt pc }
  | setCycles _ cycles ih => exact { ih with }
  | setAnnounces _ announces ih => exact { ih with }
  | load _ _ _ ih =>
    rw [load_eq ih.toRestorable]
    exact { ih with }

/-- A well-formed processor takes no code but those of the registers. -/
theorem WellFormed.names (h : p.WellFormed) : p.Names (· ≠ .M) := by
  have hknown := Operation.ofOpcode_not_mem p.ir
  rw [← h.operation_eq] at hknown
  constructor
  · exact fun r hr ↦ hr
  · intro _ hk
    exact Operation.src_ne_M hknown (h.cycleKind_eq.symm.trans hk)
  · intro hs
    exact Operation.dst_ne_M hknown (h.hasExecutePhase_of_executes (h.executes_iff.mpr hs))

/-- **The invariant of the processor.** The decoded instruction is that of the instruction register,
the number of the machine cycle is one of its numbers and the kind is the one that belongs to it,
addresses have 14 bits, and the flags of the sequencer are up in their states only. So neither a
step nor the offer to the bus ever refers to a register by the code `M`. -/
theorem reachable_invariant (h : p.Reachable) :
    p.decoded = decode p.ir ∧
    (0 ≤ p.cycleNumber.toInt ∧ p.cycleNumber.toInt < p.operation.cycleCount) ∧
    p.cycleKind = p.operation.cycleKind p.cycleNumber.toInt ∧
    (p.pc.toNat < 16384 ∧ (∀ i, (p.stack.slots.get i).toNat < 16384) ∧
      p.stack.pointer.val < 8) ∧
    (p.executes = true ↔ p.state = .t4 ∨ p.state = .t5) ∧
    (p.accepted = true → p.state = .t4 ∨ p.state = .t5) ∧
    (p.state = .t1i → p.isAcknowledge = true) ∧
    (p.state = .t1 → p.isAcknowledge = false) ∧
    (p.isAcknowledge = true → p.cycleNumber = 0 ∧ p.cycleKind = .pci) ∧
    (p.logOffer.value = p.offer ∧ ∀ r ∈ p.logOffer.references, r ≠ .register .M) ∧
    ∀ x, (p.logStep x).value = p.stepWith x ∧
      ∀ r ∈ (p.logStep x).references, r ≠ .register .M := by
  have hwf := h.wellFormed
  have hoffer : p.logOffer.Proper (· ≠ .M) := proper_logOffer hwf.names
  have hstep (x : Pins) : (p.logStep x).Proper (· ≠ .M) := proper_logStep hwf.names x
  refine ⟨hwf.decoded_eq, ⟨hwf.number_nonneg, hwf.number_lt⟩, hwf.cycleKind_eq,
    ⟨hwf.pc_lt, hwf.slots_lt, p.stack.pointer.isLt⟩, hwf.executes_iff,
    fun ha ↦ hwf.executes_iff.mp (hwf.executes_of_accepted ha), hwf.isAcknowledge_of_t1i,
    hwf.isAcknowledge_of_t1, fun hack ↦ ?_, ⟨p.value_logOffer, fun r hr hM ↦ ?_⟩,
    fun x ↦ ⟨p.value_logStep x, fun r hr hM ↦ ?_⟩⟩
  · have hn := hwf.number_of_isAcknowledge hack
    exact ⟨hn, (hwf.fetchesOpcode_iff.mpr hn).1⟩
  · exact (hoffer r hr).allowed_code .M hM rfl
  · exact (hstep x r hr).allowed_code .M hM rfl

/-- A processor that was interrupted by an immediate load and has just fetched its byte. -/
def fetchedImmediate : Processor :=
  ({} : Processor).run [⟨0, true, true⟩, ⟨0, true, true⟩, ⟨0, true, false⟩, ⟨0, true, false⟩,
    ⟨0x06, true, false⟩, ⟨0, true, false⟩, ⟨0, true, false⟩, ⟨5, true, false⟩]

theorem fetchedImmediate_invariant : fetchedImmediate.state = .t4 ∧
    fetchedImmediate.cycleNumber = 1 ∧ fetchedImmediate.executes = true ∧
    ∀ x, ∀ r ∈ (fetchedImmediate.logStep x).references, r ≠ .register .M := by
  obtain ⟨-, -, -, -, hexecutes, -, -, -, -, -, hstep⟩ :=
    reachable_invariant (p := fetchedImmediate) (Reachable.powerOn.run _)
  have hstate : fetchedImmediate.state = .t4 := by decide +kernel
  exact ⟨hstate, by decide +kernel, hexecutes.mpr (.inl hstate), fun x ↦ (hstep x).2⟩

end Processor

end Mcs8
