import Mcs8.Proofs.Processor.Step

/-!
# Encodings of an instruction

Some operations have several opcodes. Which of them the instruction register holds makes no
difference to a processor: it looks at the operation only, and at the register itself only in an
input or output cycle, whose operations have one opcode each (`Operation.ofOpcode_injective_of_io`).
So processors that hold the same, but for the encoding of their instruction
(`Processor.SameButEncoding`), do so after every step (`SameButEncoding.run`), and they offer the same
to the bus (`SameButEncoding.offer_eq`). A step that fetches another encoding of an opcode differs
in what the bus was last seen to carry besides, and no step looks at that.
-/

namespace Mcs8

/-- The operations of the input and output cycles have one opcode each. -/
theorem Operation.ofOpcode_injective_of_io {opcode other : UInt8}
    (h : ofOpcode opcode = ofOpcode other) (hio : (ofOpcode opcode).access = .io) :
    opcode = other := by
  have htable : ∀ n < 256, (ofOpcode (.ofNat n)).access = .io →
      UInt8.ofNat n = 65 + 2 * (ofOpcode (.ofNat n)).port := by decide +kernel
  have hport (opcode : UInt8) (hio : (ofOpcode opcode).access = .io) :
      opcode = 65 + 2 * (ofOpcode opcode).port := by
    simpa using htable opcode.toNat opcode.toNat_lt (by simpa using hio)
  rw [hport opcode hio, hport other (h ▸ hio), h]

namespace Processor

/-- Processors that hold the same, but for two encodings of one operation. -/
structure SameButEncoding (p q : Processor) : Prop where
  left_eq : p = q.setIr p.ir
  right_eq : q = p.setIr q.ir
  operation_eq : p.operation = q.operation

theorem sameButEncoding_setIr (p : Processor) {opcode other : UInt8}
    (h : Operation.ofOpcode opcode = Operation.ofOpcode other) :
    (p.setIr opcode).SameButEncoding (p.setIr other) := ⟨rfl, rfl, h⟩

/-! ### Another encoding -/

variable {p : Processor} {opcode : UInt8}

section

variable (h : Operation.ofOpcode opcode = p.operation)

include h

theorem latchByte_setIr (bus : UInt8) : (p.setIr opcode).latchByte bus =
    (p.latchByte bus).setIr (if p.fetchesOpcode then bus else opcode) := by
  have hoperation : (p.setIr opcode).operation = p.operation := h
  by_cases hfetch : p.fetchesOpcode
  · have hfetch' : (p.setIr opcode).fetchesOpcode := hfetch
    rw [if_pos hfetch, latchByte_of_opcode _ hfetch, latchByte_of_opcode _ hfetch', takeOpcode_eq,
      takeOpcode_eq]
    rfl
  rw [if_neg hfetch]
  have hkind : (p.setIr opcode).cycleKind = p.cycleKind := rfl
  cases hk : p.cycleKind with
  | pci =>
    have hk' := hkind.trans hk
    have hn : p.cycleNumber ≠ 0 := fun hn ↦ hfetch ⟨hk, hn⟩
    have hn' : (p.setIr opcode).cycleNumber ≠ 0 := hn
    rw [latchByte_of_operand _ hk hn, latchByte_of_operand _ hk' hn', takeOperand_eq,
      takeOperand_eq]
    rfl
  | pcr =>
    have hk' := hkind.trans hk
    rw [latchByte_of_pcr _ hk, latchByte_of_pcr _ hk']
    rfl
  | pcw => rw [latchByte_of_pcw _ hk, latchByte_of_pcw _ (hkind.trans hk)]
  | pcc =>
    have hk' := hkind.trans hk
    rw [latchByte, latchByte, hk, hk', hoperation]
    cases p.operation <;> rfl

theorem prepareResult_setIr : (p.setIr opcode).prepareResult = p.prepareResult.setIr opcode := by
  have hoperation : (p.setIr opcode).operation = p.operation := h
  simp only [prepareResult, hoperation]
  cases p.operation with
  | move dst src | alu op src =>
    by_cases hsrc : src = .M
    · simp only [hsrc, if_true]
    · simp only [hsrc, if_false]
      rfl
  | _ => rfl

theorem storeResult_setIr : (p.setIr opcode).storeResult = p.storeResult.setIr opcode := by
  have hoperation : (p.setIr opcode).operation = p.operation := h
  simp only [storeResult, hoperation]
  cases p.operation <;> rfl

theorem enter_setIr (next : TState) : (p.setIr opcode).enter next = (p.enter next).setIr opcode := by
  have hoperation : (p.setIr opcode).operation = p.operation := h
  cases next with
  | t1 =>
    simp only [enter, startCycle, hoperation]
    rfl
  | _ => rfl

theorem boundarySignals_setIr (ready : Bool) :
    (p.setIr opcode).boundarySignals ready = p.boundarySignals ready := by
  have hoperation : (p.setIr opcode).operation = p.operation := h
  simp only [boundarySignals, halts, hoperation]
  rfl

theorem takeByte_setIr (bus : UInt8) : (p.setIr opcode).takeByte bus =
    (p.takeByte bus).setIr (if p.fetchesOpcode then bus else opcode) := by
  have hoperation : ((p.latchByte bus).setIr
      (if p.fetchesOpcode then bus else opcode)).operation = (p.latchByte bus).operation := by
    rw [operation_latchByte]
    by_cases hfetch : p.fetchesOpcode
    · rw [if_pos hfetch, if_pos hfetch]
      rfl
    · rw [if_neg hfetch, if_neg hfetch]
      exact h
  rw [takeByte_eq, takeByte_eq, latchByte_setIr h]
  simp only [halts, accepts, hoperation]
  rfl

/-- The opcode that is in the instruction register after a step. -/
def opcodeAfter (p : Processor) (opcode : UInt8) (x : Pins) : UInt8 :=
  if p.state = .t3 ∧ p.fetchesOpcode then x.bus else opcode

theorem worked_setIr (x : Pins) :
    (p.setIr opcode).worked x = (p.worked x).setIr (p.opcodeAfter opcode x) := by
  have hsample : (p.setIr opcode).sample x.bus x.ready x.interrupt =
      (p.sample x.bus x.ready x.interrupt).setIr opcode := rfl
  have h' : Operation.ofOpcode opcode = (p.sample x.bus x.ready x.interrupt).operation := h
  have hstate : (p.setIr opcode).state = p.state := rfl
  by_cases h₃ : p.state = .t3
  · have hafter : p.opcodeAfter opcode x =
        if (p.sample x.bus x.ready x.interrupt).fetchesOpcode then x.bus else opcode := by
      simp only [opcodeAfter, h₃, true_and]
      rfl
    rw [worked_of_t3 h₃, worked_of_t3 (hstate.trans h₃), hsample, takeByte_setIr h', hafter]
  have hafter : p.opcodeAfter opcode x = opcode := if_neg fun hfetch ↦ h₃ hfetch.1
  rw [hafter]
  by_cases h₄ : p.state = .t4
  · rw [worked_of_t4 h₄, worked_of_t4 (hstate.trans h₄), hsample, prepareResult_setIr h']
  by_cases h₅ : p.state = .t5
  · rw [worked_of_t5 h₅, worked_of_t5 (hstate.trans h₅), hsample, storeResult_setIr h']
  · have hidle : (p.setIr opcode).worked x = (p.setIr opcode).sample x.bus x.ready x.interrupt :=
      worked_of_idle h₃ h₄ h₅
    rw [hidle, worked_of_idle h₃ h₄ h₅, hsample]

theorem ofOpcode_opcodeAfter (x : Pins) :
    Operation.ofOpcode (p.opcodeAfter opcode x) = (p.worked x).operation := by
  have hwork : (p.worked x).operation =
      if p.state = .t3 ∧ p.fetchesOpcode then .ofOpcode x.bus else p.operation :=
    operation_work (p.sample x.bus x.ready x.interrupt) x.bus
  rw [hwork, opcodeAfter]
  split
  · rfl
  · exact h

theorem offer_setIr (hk : p.cycleKind ≠ .pcc) : (p.setIr opcode).offer = p.offer := by
  have hoperation : (p.setIr opcode).operation = p.operation := h
  have haddress : (p.setIr opcode).sentAddress = p.sentAddress := by
    have hkind : (p.setIr opcode).cycleKind = p.cycleKind := rfl
    rw [ProcessorState.sentAddress, ProcessorState.sentAddress, hkind]
    cases hcases : p.cycleKind with
    | pcc => contradiction
    | _ => rfl
  simp only [offer, haddress, storeValue, hoperation]
  rfl

/-- A step goes the same way with another encoding of the instruction. -/
theorem stepWith_setIr (x : Pins) :
    (p.setIr opcode).stepWith x = (p.stepWith x).setIr (p.opcodeAfter opcode x) := by
  have hafter := ofOpcode_opcodeAfter h x
  have hstate : (p.setIr opcode).state = p.state := rfl
  rw [stepWith_eq, stepWith_eq, worked_setIr h, boundarySignals_setIr hafter, hstate,
    enter_setIr hafter]

end

namespace SameButEncoding

variable {q : Processor} (h : p.SameButEncoding q)

include h

theorem symm : q.SameButEncoding p := ⟨h.right_eq, h.left_eq, h.operation_eq.symm⟩

theorem ofOpcode_eq : .ofOpcode q.ir = p.operation := by
  rw [h.operation_eq, h.right_eq]
  rfl

theorem stepWith_eq_setIr (x : Pins) : q.stepWith x = (p.stepWith x).setIr (q.stepWith x).ir := by
  have hstep : q.stepWith x = (p.stepWith x).setIr (p.opcodeAfter q.ir x) := by
    rw [← stepWith_setIr h.ofOpcode_eq, ← h.right_eq]
  rw [hstep]
  rfl

/-- A step keeps processors the same but for an encoding. -/
theorem stepWith (x : Pins) : (p.stepWith x).SameButEncoding (q.stepWith x) := by
  refine ⟨h.symm.stepWith_eq_setIr x, h.stepWith_eq_setIr x, ?_⟩
  have hstep : q.stepWith x = (p.stepWith x).setIr (p.opcodeAfter q.ir x) := by
    rw [← stepWith_setIr h.ofOpcode_eq, ← h.right_eq]
  rw [hstep, operation_stepWith, ← ofOpcode_opcodeAfter h.ofOpcode_eq]
  rfl

theorem run (pins : List Pins) : (p.run pins).SameButEncoding (q.run pins) := by
  induction pins generalizing p q with
  | nil => exact h
  | cons x pins ih => exact ih (h.stepWith x)

/-- They offer the same to the bus. Only in an input or output cycle does the instruction register
itself go out, and its encoding is the only one there. -/
theorem offer_eq (hio : p.cycleKind = .pcc → p.operation.access = .io) : p.offer = q.offer := by
  by_cases hk : p.cycleKind = .pcc
  · have hir : q.ir = p.ir := by
      refine Operation.ofOpcode_injective_of_io ?_ ?_
      · rw [h.ofOpcode_eq, h.symm.ofOpcode_eq, h.operation_eq]
      · rw [h.ofOpcode_eq]
        exact hio hk
    have heq : q = p :=
      calc q = p.setIr q.ir := h.right_eq
        _ = (q.setIr p.ir).setIr q.ir := congrArg (·.setIr q.ir) h.left_eq
        _ = q.setIr p.ir := by rw [hir]; rfl
        _ = p := h.left_eq.symm
    rw [heq]
  · rw [h.right_eq, offer_setIr h.ofOpcode_eq hk]

end SameButEncoding

/-! ### Fetching another encoding -/

/-- The byte last seen on the bus is not looked at. -/
theorem stepWith_busSample (bus : UInt8) (x : Pins) :
    stepWith { p with busSample := bus } x = p.stepWith x := rfl

variable {other : UInt8}

/-- The fetch of another encoding leaves that in the instruction register, and on the bus. -/
theorem stepWith_fetch (hs : p.state = .t3) (hfetch : p.fetchesOpcode)
    (h : Operation.ofOpcode opcode = Operation.ofOpcode other) (x : Pins) :
    p.stepWith { x with bus := other } =
      { (p.stepWith { x with bus := opcode }).setIr other with busSample := other } := by
  have hsample (bus : UInt8) : (p.sample bus x.ready x.interrupt).fetchesOpcode := hfetch
  have hlatch : (p.sample other x.ready x.interrupt).latchByte other =
      setIr { (p.sample opcode x.ready x.interrupt).latchByte opcode with busSample := other }
        other := by
    rw [latchByte_of_opcode _ (hsample _), latchByte_of_opcode _ (hsample _), takeOpcode_eq,
      takeOpcode_eq]
    rfl
  have hoperation :
      ((p.sample opcode x.ready x.interrupt).latchByte opcode).operation = .ofOpcode other := by
    rw [operation_latchByte, if_pos (hsample _), h]
  have htaken : operation (setIr { (p.sample opcode x.ready x.interrupt).latchByte opcode with
      busSample := other } other) = .ofOpcode other := rfl
  have hworked : p.worked { x with bus := other } =
      setIr { p.worked { x with bus := opcode } with busSample := other } other := by
    rw [worked_of_t3 hs, worked_of_t3 hs, takeByte_eq, takeByte_eq, hlatch]
    simp only [halts, accepts, hoperation, htaken]
    rfl
  have htakes : (p.worked { x with bus := opcode }).operation = .ofOpcode other := by
    rw [worked_of_t3 hs, operation_takeByte, if_pos (hsample _), h]
  have h' : Operation.ofOpcode other =
      operation { p.worked { x with bus := opcode } with busSample := other } := htakes.symm
  have henter (r : Processor) (next : TState) : enter { r with busSample := other } next =
      { r.enter next with busSample := other } := by cases next <;> rfl
  rw [stepWith_eq, stepWith_eq, hworked, boundarySignals_setIr h', enter_setIr h', henter]
  rfl

/-- From the step after the fetch on, it is as if another encoding had been there all the time. -/
theorem sameButEncoding_run_fetch (hs : p.state = .t3) (hfetch : p.fetchesOpcode)
    (h : Operation.ofOpcode opcode = Operation.ofOpcode other) (x next : Pins)
    (pins : List Pins) :
    (p.run ({ x with bus := opcode } :: next :: pins)).SameButEncoding
      (p.run ({ x with bus := other } :: next :: pins)) := by
  have hfetched := stepWith_fetch hs hfetch (Eq.refl (Operation.ofOpcode opcode)) x
  have hsame : (p.stepWith { x with bus := opcode }).SameButEncoding
      ((p.stepWith { x with bus := opcode }).setIr other) := by
    rw [hfetched]
    exact ⟨rfl, rfl, h⟩
  rw [run_cons, run_cons, run_cons, run_cons, stepWith_fetch hs hfetch h, stepWith_busSample]
  exact (hsame.stepWith next).run pins

end Processor

end Mcs8
