import Mcs8.Proofs.Document.NormalForm
import Mcs8.Proofs.Processor.WellFormed

/-!
# The ranges of what is read

A processor that starts in range stays in range: addresses have 14 bits and the number of the
machine cycle stays below three (`ProcessorState.InRange`, `Processor.inRange_stepWith`). Reading a
document keeps only the program counter to that. The slots of the return stack are any words and
the number of the machine cycle is any integer (`processor_read_iff`), so a document can bring in a
state that no processor gets to by itself (`not_inRange_of_read`).
-/

namespace Mcs8

/-- Addresses have 14 bits, and there are no more than three machine cycles. -/
structure ProcessorState.InRange (s : ProcessorState) : Prop where
  pc_lt : s.pc.toNat < 16384
  slots_lt : ∀ i : Fin 8, s.stack.slots[i].toNat < 16384
  number_nonneg : 0 ≤ s.cycleNumber.toInt
  number_lt : s.cycleNumber.toInt < 3

namespace ProcessorState.InRange

/-- The return address that a pop would give is an address. -/
theorem top_lt {s : ProcessorState} (h : s.InRange) : s.stack.top.toNat < 16384 := h.slots_lt _

end ProcessorState.InRange

namespace Processor

variable {p : Processor}

theorem slots_work_lt (h : ∀ i, (p.stack.slots.get i).toNat < 16384) (bus : UInt8) (i : Fin 8) :
    ((p.work bus).stack.slots.get i).toNat < 16384 := by
  unfold work
  split
  · rw [takeByte_eq, latchByte_frame]
    exact h i
  · exact Aligned.slots_prepareResult_lt h i
  · rw [storeResult_frame]
    exact h i
  · exact h i

/-- Entering a state starts the next machine cycle or keeps the running one. -/
theorem cycleNumber_enter_range (h₀ : 0 ≤ p.cycleNumber.toInt) (hlt : p.cycleNumber.toInt < 3)
    (next : TState) :
    0 ≤ (p.enter next).cycleNumber.toInt ∧ (p.enter next).cycleNumber.toInt < 3 := by
  cases next with
  | t1i => exact (by decide : 0 ≤ (0 : Int32).toInt ∧ (0 : Int32).toInt < 3)
  | t1 =>
    change 0 ≤ p.startCycle.cycleNumber.toInt ∧ p.startCycle.cycleNumber.toInt < 3
    have hcount := p.operation.cycleCount_le
    simp only [startCycle]
    split
    · exact ⟨by decide, by decide⟩
    · rw [toInt_add_one h₀ hlt]
      omega
  | _ => exact ⟨h₀, hlt⟩

/-- A step leads from a state in range to one in range, even if the number of the machine cycle does
not suit the instruction. -/
theorem inRange_stepWith (hp : p.Restorable) (h : p.InRange) (x : Pins) :
    (p.stepWith x).InRange := by
  have hslots := slots_work_lt (p := p.sample x.bus x.ready x.interrupt) h.slots_lt x.bus
  have hpc := (hp.stepWith x).pc_lt
  rw [stepWith_eq] at hpc ⊢
  have hnumber : (p.worked x).cycleNumber = p.cycleNumber := cycleNumber_work _ _
  obtain ⟨h₀, hlt⟩ := cycleNumber_enter_range (p := p.worked x)
    (hnumber ▸ h.number_nonneg) (hnumber ▸ h.number_lt)
    (p.state.next ((p.worked x).boundarySignals x.ready))
  refine ⟨hpc, fun i ↦ ?_, h₀, hlt⟩
  rw [stack_enter]
  exact hslots i

end Processor

namespace Document

/-- What can be read is what has an address for its program counter, whatever else it holds. -/
theorem processor_read_iff {D : Type} {lib : Library D} (h : lib.Lawful) (s : ProcessorState) :
    (∃ d old, lib.processor.read d old = ⟨s, none⟩) ↔ s.pc.toNat < 16384 := by
  refine ⟨fun ⟨_, _, hread⟩ ↦ lib.processor_yields hread, fun hpc ↦ ?_⟩
  exact ⟨lib.processor.write s, s, h.processor_readsBack hpc s⟩

/-- A state whose return stack holds a word that is no address. -/
def wideReturn : ProcessorState :=
  { state := .t1, pc := 100, ir := 62,
    stack := { slots := #v[0xffff, 0, 0, 0, 0, 0, 0, 0], pointer := 1 } }

theorem exists_read_wideReturn : ∃ d old, processor.read d old = ⟨wideReturn, none⟩ :=
  (processor_read_iff library_lawful wideReturn).mpr (by decide)

/-- Not every state that is read is in range. -/
theorem not_inRange_of_read :
    ¬ ∀ d old s, processor.read d old = ⟨s, none⟩ → s.InRange := by
  intro hrange
  have hread : processor.read (processor.write wideReturn) {} = ⟨wideReturn, none⟩ :=
    library_lawful.processor_readsBack (by decide) {}
  exact absurd (hrange _ _ _ hread).top_lt (by decide)

end Document

end Mcs8
