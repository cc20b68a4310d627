import Mathlib.Tactic.Common
import Mcs8.Proofs.Processor.Step

/-!
# Well-formed processors

The fields of a processor are not independent: the decoded instruction is that of the instruction
register, the kind of the machine cycle is the one that the plan of the instruction gives to its
number, addresses have 14 bits, and each flag of the sequencer is up in certain states only. All of
this holds after a reset and is kept by every step, whatever the pins carry (`WellFormed.step`).

The part that does not mention the state, `Aligned`, is kept by each of the three parts of a step on
its own; the rest needs the step as a whole, since the work of `T3` sets flags for the state that
follows. The smallest part, `Restorable`, even survives an instruction register set from outside.
-/

namespace Mcs8

namespace Processor

/-- The fields of a processor that a saved state determines or restricts. Setting the instruction
register from outside keeps them too. -/
structure Restorable (p : Processor) : Prop where
  decoded_eq : p.decoded = decode p.ir
  pc_lt : p.pc.toNat < 16384

/-- The fields that hold the instruction, the place in its plan, and addresses fit together. -/
structure Aligned (p : Processor) : Prop extends p.Restorable where
  number_nonneg : 0 ≤ p.cycleNumber.toInt
  number_lt : p.cycleNumber.toInt < p.operation.cycleCount
  cycleKind_eq : p.cycleKind = p.operation.cycleKind p.cycleNumber.toInt
  slots_lt : ∀ i : Fin 8, p.stack.slots[i].toNat < 16384
  number_of_isAcknowledge : p.isAcknowledge = true → p.cycleNumber = 0

/-- A processor that a reset and any steps after it can lead to. -/
structure WellFormed (p : Processor) : Prop extends p.Aligned where
  executes_iff : p.executes = true ↔ p.state = .t4 ∨ p.state = .t5
  hasExecutePhase_of_executes : p.executes = true →
    p.operation.hasExecutePhase p.cycleNumber.toInt p.conditionHeld = true
  executes_of_accepted : p.accepted = true → p.executes = true
  cycleKind_of_accepted : p.accepted = true → p.cycleKind = .pci
  isAcknowledge_of_t1i : p.state = .t1i → p.isAcknowledge = true
  isAcknowledge_of_t1 : p.state = .t1 → p.isAcknowledge = false

/-! ### Decoding and addresses -/

theorem address_mod_lt (address : UInt16) : (address % addressSpace).toNat < 16384 := by
  rw [UInt16.toNat_mod]
  exact Nat.mod_lt _ (by decide)

namespace Restorable

variable {p : Processor} (bus : UInt8) (ready interrupt : Bool)

theorem operation_eq (h : p.Restorable) : p.operation = .ofOpcode p.ir := by
  rw [operation, h.decoded_eq]
  rfl

theorem setIr (h : p.Restorable) (ir : UInt8) : (p.setIr ir).Restorable := ⟨rfl, h.pc_lt⟩

theorem takeByte (h : p.Restorable) : (p.takeByte bus).Restorable := by
  rw [takeByte_eq, latchByte_frame]
  constructor
  · show (p.latchByte bus).decoded = decode (p.latchByte bus).ir
    rw [decoded_latchByte, ir_latchByte]
    split
    · rfl
    · exact h.decoded_eq
  · show (p.latchByte bus).pc.toNat < 16384
    rw [pc_latchByte]
    split
    · exact address_mod_lt _
    · exact h.pc_lt

theorem storeResult (h : p.Restorable) : p.storeResult.Restorable := by
  have hpc : p.storeResult.pc.toNat < 16384 := by
    unfold Processor.storeResult
    split
    case h_8 | h_9 | h_10 => exact addressOf_lt _ _
    case h_11 vector _ =>
      have := vector.toNat_lt
      simp only [UInt16.toNat_mul, UInt8.toNat_toUInt16]
      exact Nat.lt_of_le_of_lt (Nat.mod_le _ _) (by simp; omega)
    all_goals exact h.pc_lt
  rw [storeResult_frame]
  exact ⟨h.decoded_eq, hpc⟩

theorem work (h : p.Restorable) : (p.work bus).Restorable := by
  unfold Processor.work
  split
  · exact h.takeByte bus
  · rw [prepareResult_frame]
    exact ⟨h.decoded_eq, h.pc_lt⟩
  · exact h.storeResult
  · exact h

theorem enter (h : p.Restorable) (next : TState) : (p.enter next).Restorable := by
  cases next <;> exact ⟨h.decoded_eq, h.pc_lt⟩

theorem stepWith (h : p.Restorable) (x : Pins) : (p.stepWith x).Restorable := by
  have hsample : (p.sample x.bus x.ready x.interrupt).Restorable := ⟨h.decoded_eq, h.pc_lt⟩
  rw [stepWith_eq]
  exact (hsample.work x.bus).enter _

end Restorable

/-- A processor that takes over a saved state differs from the saved one in its announcements
only. -/
theorem load_eq {p q : Processor} (h : q.Restorable) :
    p.load q.toProcessorState = { q with announces := p.announces } := by
  rw [load, ← h.decoded_eq]

theorem restorable_reset (p : Processor) : p.reset.Restorable where
  decoded_eq := rfl
  pc_lt := show (0 : UInt16).toNat < 16384 by decide

/-! ### Numbers of machine cycles -/

theorem cycleNumber_eq_zero_iff {n : Int32} : n = 0 ↔ n.toInt = 0 := by
  rw [← Int32.toInt_inj]
  rfl

/-- The next number of a machine cycle does not overflow. -/
theorem toInt_add_one {n : Int32} (h₀ : 0 ≤ n.toInt) (hlt : n.toInt < 3) :
    (n + 1).toInt = n.toInt + 1 := by
  have hone : (1 : Int32).toInt = 1 := rfl
  rw [Int32.toInt_add, hone, Int.bmod_eq_of_le] <;> omega

namespace Aligned

variable {p : Processor} (bus : UInt8) (ready interrupt : Bool)

theorem number_lt_three (h : p.Aligned) : p.cycleNumber.toInt < 3 := by
  have := h.number_lt
  have := p.operation.cycleCount_le
  omega

/-- An opcode is fetched in machine cycle 0 and in no other. -/
theorem fetchesOpcode_iff (h : p.Aligned) : p.fetchesOpcode ↔ p.cycleNumber = 0 := by
  refine ⟨And.right, fun hn ↦ ⟨?_, hn⟩⟩
  rw [h.cycleKind_eq, hn]
  rfl

/-- An acknowledge is a fetch. -/
theorem isAcknowledge_of_ne_pci (h : p.Aligned) (hk : p.cycleKind ≠ .pci) :
    p.isAcknowledge = false := by
  rw [Bool.eq_false_iff]
  intro hack
  exact hk (h.fetchesOpcode_iff.mpr (h.number_of_isAcknowledge hack)).1

theorem sample (h : p.Aligned) : (p.sample bus ready interrupt).Aligned :=
  ⟨⟨h.decoded_eq, h.pc_lt⟩, h.2, h.3, h.4, h.5, h.6⟩

theorem takeByte (h : p.Aligned) : (p.takeByte bus).Aligned := by
  have hrestorable := h.toRestorable.takeByte bus
  rw [takeByte_eq, latchByte_frame] at hrestorable ⊢
  refine ⟨hrestorable, h.number_nonneg, ?_, ?_, h.slots_lt, h.number_of_isAcknowledge⟩
  · show p.cycleNumber.toInt < (p.latchByte bus).operation.cycleCount
    rw [operation_latchByte]
    split
    next hf =>
      have := (Operation.ofOpcode bus).cycleCount_pos
      rw [cycleNumber_eq_zero_iff.mp hf.2]
      omega
    next => exact h.number_lt
  · show p.cycleKind = (p.latchByte bus).operation.cycleKind p.cycleNumber.toInt
    rw [operation_latchByte]
    split
    next hf => rw [hf.1, cycleNumber_eq_zero_iff.mp hf.2, Operation.cycleKind_zero]
    next => exact h.cycleKind_eq

theorem slots_push_lt {s : ReturnStack} (h : ∀ i : Fin 8, s.slots[i].toNat < 16384)
    (address : UInt16) (i : Fin 8) : (s.push address).slots[i].toNat < 16384 := by
  show ((s.slots.set s.pointer (address % addressSpace))[i.val]).toNat < 16384
  rw [Vector.getElem_set]
  split
  · exact address_mod_lt address
  · exact h i

theorem slots_prepareResult_lt (h : ∀ i : Fin 8, p.stack.slots[i].toNat < 16384) (i : Fin 8) :
    p.prepareResult.stack.slots[i].toNat < 16384 := by
  unfold Processor.prepareResult
  split
  · split <;> exact h i
  · split <;> exact h i
  · exact h i
  · exact h i
  · exact slots_push_lt h _ i
  · exact slots_push_lt h _ i
  · exact h i
  · exact h i

theorem prepareResult (h : p.Aligned) : p.prepareResult.Aligned := by
  have hslots := slots_prepareResult_lt h.slots_lt
  rw [prepareResult_frame]
  exact ⟨⟨h.decoded_eq, h.pc_lt⟩, h.2, h.3, h.4, hslots, h.6⟩

theorem storeResult (h : p.Aligned) : p.storeResult.Aligned := by
  have hrestorable := h.toRestorable.storeResult
  rw [storeResult_frame] at hrestorable ⊢
  exact ⟨hrestorable, h.2, h.3, h.4, h.5, h.6⟩

theorem work (h : p.Aligned) : (p.work bus).Aligned := by
  unfold Processor.work
  split
  · exact h.takeByte bus
  · exact h.prepareResult
  · exact h.storeResult
  · exact h

/-- The number of the next machine cycle: the first one of another instruction follows the last
one. -/
theorem number_startCycle (h : p.Aligned) : p.startCycle.cycleNumber.toInt =
    if p.operation.cycleCount ≤ p.cycleNumber.toInt + 1 then 0 else p.cycleNumber.toInt + 1 := by
  have hdef : p.startCycle.cycleNumber =
      if p.operation.cycleCount ≤ p.cycleNumber.toInt + 1 then 0 else p.cycleNumber + 1 := rfl
  rw [hdef]
  split
  · rfl
  · exact toInt_add_one h.number_nonneg h.number_lt_three

theorem startCycle (h : p.Aligned) : p.startCycle.Aligned := by
  have hnonneg := h.number_nonneg
  have hpos := p.operation.cycleCount_pos
  refine ⟨⟨h.decoded_eq, h.pc_lt⟩, ?_, ?_, rfl, h.slots_lt, nofun⟩
  · rw [h.number_startCycle]
    split <;> omega
  · show p.startCycle.cycleNumber.toInt < p.operation.cycleCount
    rw [h.number_startCycle]
    split <;> omega

theorem startAcknowledge (h : p.Aligned) : p.startAcknowledge.Aligned := by
  have hpos : (0 : Int) < p.operation.cycleCount := by
    have := p.operation.cycleCount_pos
    omega
  exact ⟨⟨h.decoded_eq, h.pc_lt⟩, Int.le_refl 0, hpos, rfl, h.slots_lt, fun _ ↦ rfl⟩

theorem enter (h : p.Aligned) (next : TState) : (p.enter next).Aligned := by
  have hkept {q : Processor} (hq : q.Aligned) :
      ({ q with state := next, cycles := q.cycles + 1 } : Processor).Aligned :=
    ⟨⟨hq.decoded_eq, hq.pc_lt⟩, hq.2, hq.3, hq.4, hq.5, hq.6⟩
  cases next with
  | t1i => exact hkept h.startAcknowledge
  | t1 => exact hkept h.startCycle
  | _ => exact hkept h

theorem step (h : p.Aligned) : (p.step bus ready interrupt).Aligned :=
  ((h.sample bus ready interrupt).work bus).enter _

/-- What the flags of the sequencer have to be when a state is entered. -/
theorem wellFormed_enter {q : Processor} {next : TState} (h : q.Aligned)
    (hexecutes : next.startsCycle = false → (q.executes = true ↔ next = .t4 ∨ next = .t5))
    (hphase : q.executes = true →
      q.operation.hasExecutePhase q.cycleNumber.toInt q.conditionHeld = true)
    (haccepted : q.accepted = true →
      q.cycleKind = .pci ∧ next ≠ .t1 ∧ (next.startsCycle = false → q.executes = true)) :
    (q.enter next).WellFormed where
  toAligned := h.enter next
  executes_iff := by
    rw [executes_enter, state_enter]
    cases hs : next.startsCycle with
    | true => cases next <;> simp_all [TState.startsCycle]
    | false => simpa using hexecutes hs
  hasExecutePhase_of_executes he := by
    rw [executes_enter, Bool.and_eq_true, Bool.not_eq_true'] at he
    rw [enter_of_not_startsCycle q next he.1]
    exact hphase he.2
  executes_of_accepted ha := by
    rw [accepted_enter, Bool.and_eq_true, bne_iff_ne] at ha
    obtain ⟨-, ht1, he⟩ := haccepted ha.2
    have hs : next.startsCycle = false := by simp [TState.startsCycle, ht1, ha.1]
    rw [executes_enter, hs, he hs]
    rfl
  cycleKind_of_accepted ha := by
    rw [accepted_enter, Bool.and_eq_true, bne_iff_ne] at ha
    obtain ⟨hk, ht1, -⟩ := haccepted ha.2
    have hs : next.startsCycle = false := by simp [TState.startsCycle, ht1, ha.1]
    rw [enter_of_not_startsCycle q next hs]
    exact hk
  isAcknowledge_of_t1i hs := by
    rw [state_enter] at hs
    subst hs
    rfl
  isAcknowledge_of_t1 hs := by
    rw [state_enter] at hs
    subst hs
    rfl

end Aligned

theorem wellFormed_reset (p : Processor) : p.reset.WellFormed where
  toRestorable := p.restorable_reset
  number_nonneg := Int.le_refl 0
  number_lt := show (0 : Int) < 1 by decide
  cycleKind_eq := rfl
  slots_lt := show ∀ i : Fin 8, ((.replicate 8 0 : Vector UInt16 8)[i]).toNat < 16384 by decide
  number_of_isAcknowledge := nofun
  executes_iff := ⟨nofun, nofun⟩
  hasExecutePhase_of_executes := nofun
  executes_of_accepted := nofun
  cycleKind_of_accepted := nofun
  isAcknowledge_of_t1i := nofun
  isAcknowledge_of_t1 := nofun

namespace WellFormed

variable {p : Processor} (bus : UInt8) (ready interrupt : Bool)

theorem executes_eq_false (h : p.WellFormed) (h₄ : p.state ≠ .t4) (h₅ : p.state ≠ .t5) :
    p.executes = false := by
  rw [Bool.eq_false_iff, ne_eq, h.executes_iff]
  exact not_or.mpr ⟨h₄, h₅⟩

theorem accepted_eq_false (h : p.WellFormed) (h₄ : p.state ≠ .t4) (h₅ : p.state ≠ .t5) :
    p.accepted = false := by
  have hexecutes := h.executes_eq_false h₄ h₅
  rw [Bool.eq_false_iff]
  intro ha
  rw [h.executes_of_accepted ha] at hexecutes
  contradiction

theorem sample (h : p.WellFormed) : (p.sample bus ready interrupt).WellFormed :=
  ⟨h.toAligned.sample bus ready interrupt, h.2, h.3, h.4, h.5, h.6, h.7⟩

/-- The work of a state and the entry into the next one keep a processor well-formed. In `T3` the
work raises the flags of the state that follows, in `T4` and `T5` it leaves them alone. -/
theorem enter_work (h : p.WellFormed) : ((p.work bus).enter
    (p.state.next ((p.work bus).boundarySignals ready))).WellFormed := by
  have haligned := h.toAligned.work bus
  cases hp : p.state with
  | stopped | t1 | t1i | t2 | wait =>
    have hidle : p.work bus = p := by apply work_of_idle <;> simp [hp]
    rw [hidle] at haligned ⊢
    have he : p.executes = false := h.executes_eq_false (by simp [hp]) (by simp [hp])
    have ha : p.accepted = false := h.accepted_eq_false (by simp [hp]) (by simp [hp])
    refine haligned.wellFormed_enter (fun _ ↦ ?_) (by simp [he]) (by simp [ha])
    rw [TState.next_eq_t4_iff, TState.next_eq_t5_iff]
    simp [he]
  | t3 =>
    have hwas : p.accepted = false := h.accepted_eq_false (by simp [hp]) (by simp [hp])
    have he := executes_work p bus hp
    have ha := accepted_work p bus hp
    rw [hwas, Bool.false_or] at ha
    have hhalts : (p.work bus).halts = true → (p.work bus).executes = false := fun hh ↦ by
      rw [he, operation_of_halts _ hh, Operation.hasExecutePhase_halt]
    have hfour : TState.next .t3 ((p.work bus).boundarySignals ready) = .t4 ↔
        (p.work bus).executes = true := by
      rw [TState.next_eq_t4_iff]
      show _ ∧ (p.work bus).halts = false ∧ (p.work bus).executes = true ↔ _
      cases hh : (p.work bus).halts <;> simp_all
    -- the flags that the work has just raised have to suit the state that is entered
    refine haligned.wellFormed_enter (fun _ ↦ ?_) ?_ (fun haccepted ↦ ⟨?_, ?_, fun hs ↦ ?_⟩)
    · rw [hfour, TState.next_eq_t5_iff]
      simp
    · intro h'
      rwa [cycleNumber_work, conditionHeld_work p bus hp, ← he]
    · rw [ha, Bool.and_eq_true] at haccepted
      exact cycleKind_of_accepts _ haccepted.2
    · rw [ne_eq, TState.next_eq_t1_iff]
      rintro ⟨-, hnot⟩
      exact absurd (haccepted.symm.trans hnot) (by decide)
    · rw [ha, Bool.and_eq_true, Bool.not_eq_true'] at haccepted
      by_contra hne
      have hlast : TState.t3.endsCycle ((p.work bus).boundarySignals ready) :=
        .inr ⟨rfl, haccepted.1, Bool.eq_false_iff.mpr hne⟩
      rw [TState.startsCycle_next_of_endsCycle hlast] at hs
      contradiction
  | t4 =>
    rw [work_of_t4 p bus hp, prepareResult_frame] at haligned ⊢
    have he : p.executes = true := h.executes_iff.mpr (.inl hp)
    exact haligned.wellFormed_enter (by simp [he, TState.next]) h.hasExecutePhase_of_executes
      fun ha ↦ ⟨h.cycleKind_of_accepted ha, nofun, fun _ ↦ he⟩
  | t5 =>
    rw [work_of_t5 p bus hp, storeResult_frame] at haligned ⊢
    refine haligned.wellFormed_enter (fun hs ↦ ?_) h.hasExecutePhase_of_executes
      fun ha ↦ ⟨h.cycleKind_of_accepted ha, ?_, fun _ ↦ h.executes_of_accepted ha⟩
    · rw [TState.startsCycle_next_of_endsCycle (.inl rfl)] at hs
      contradiction
    · rw [ne_eq, TState.next_eq_t1_iff]
      rintro ⟨-, hnot⟩
      exact absurd (ha.symm.trans hnot) (by decide)

/-- Every step keeps a processor well-formed. -/
theorem step (h : p.WellFormed) : (p.step bus ready interrupt).WellFormed := by
  rw [step_eq]
  exact (h.sample bus ready interrupt).enter_work bus ready

theorem stepWith (h : p.WellFormed) (x : Pins) : (p.stepWith x).WellFormed :=
  h.step x.bus x.ready x.interrupt

theorem run (h : p.WellFormed) (pins : List Pins) : (p.run pins).WellFormed := by
  induction pins generalizing p with
  | nil => exact h
  | cons x pins ih => exact ih (h.stepWith x)

end WellFormed

end Processor

end Mcs8
