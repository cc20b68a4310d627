import Mcs8.Proofs.Board.Tick
import Mcs8.Proofs.Processor.WellFormed

/-!
# The address latch

The processor sends its address in two halves and keeps no copy of it on the bus; the latch of the
board has to put it together. In `T3` the latch holds what the processor meant: the address, the
kind of the machine cycle, and whether the cycle acknowledges an interrupt (`Latched`). The halves
arrive in different states, so the invariant has one part for each of them.
-/

namespace Mcs8

namespace TState

/-- The states of a machine cycle before `T3`, which only send the address and wait. -/
def precedesT3 (s : TState) : Bool := s.startsCycle || s == t2 || s == wait

/-- The low half of the address has been sent. -/
def afterT1 (s : TState) : Bool := s == t2 || s == wait || s == t3

/-- Both halves of the address have been sent. -/
def afterT2 (s : TState) : Bool := s == wait || s == t3

theorem afterT1_of_afterT2 {s : TState} (h : s.afterT2 = true) : s.afterT1 = true := by
  cases s <;> first | rfl | contradiction

theorem precedesT3_of_startsCycle {s : TState} (h : s.startsCycle = true) :
    s.precedesT3 = true := by
  rw [precedesT3, h]
  rfl

theorem precedesT3_of_afterT1_next {s : TState} {g : BoundarySignals}
    (h : (s.next g).afterT1 = true) : s.precedesT3 = true := by
  cases s <;> first | rfl | (revert h; simp only [next, cycleStart]; grind [afterT1])

theorem eq_of_afterT2_next {s : TState} {g : BoundarySignals} (h : (s.next g).afterT2 = true) :
    s = t2 ∨ s = wait := by
  cases s <;> first
    | exact .inl rfl
    | exact .inr rfl
    | (revert h; simp only [next, cycleStart]; grind [afterT2])

end TState

namespace Processor

variable {p : Processor} {x : Pins}

/-- Before `T3` a step samples the pins and moves on. -/
theorem stepWith_of_precedesT3 (h : p.state.precedesT3 = true) : p.stepWith x =
    { p.sample x.bus x.ready x.interrupt with
      state := p.state.next { ready := x.ready }
      cycles := p.cycles + 1 } := by
  have hidle : p.worked x = p.sample x.bus x.ready x.interrupt := by
    apply worked_of_idle <;> intro hs <;> rw [hs] at h <;> contradiction
  have hnext (g : BoundarySignals) (hg : g.ready = x.ready) :
      p.state.next g = p.state.next { ready := x.ready } := by
    cases hs : p.state <;> rw [hs] at h <;> first | contradiction | simp [TState.next, hg]
  have hstarts (g : BoundarySignals) : (p.state.next g).startsCycle = false := by
    cases hs : p.state <;> rw [hs] at h <;>
      first | contradiction | (simp only [TState.next]; grind [TState.startsCycle])
  rw [stepWith_eq, enter_of_not_startsCycle _ _ (hstarts _), hidle, hnext _ rfl]
  rfl

/-- The address that is sent out is the one that the kind of the machine cycle asks for, also in the
first state of an acknowledge, which is a fetch. -/
theorem WellFormed.sentAddress_eq (h : p.WellFormed) : p.sentAddress =
    match p.cycleKind with
    | .pci => p.pc
    | .pcr | .pcw => p.registers.pointer
    | .pcc => addressOf p.ir (p.registers.read .A) := by
  unfold ProcessorState.sentAddress
  split
  next hs =>
    have hnumber := h.number_of_isAcknowledge (h.isAcknowledge_of_t1i hs)
    rw [(h.fetchesOpcode_iff.mpr hnumber).1]
  next => rfl

theorem WellFormed.sentAddress_lt (h : p.WellFormed) : p.sentAddress.toNat < 16384 := by
  rw [h.sentAddress_eq]
  cases p.cycleKind with
  | pci => exact h.pc_lt
  | pcr | pcw => exact p.registers.pointer_lt
  | pcc => exact addressOf_lt _ _

/-- The address stays as it is while its halves are sent. -/
theorem WellFormed.sentAddress_stepWith (h : p.WellFormed) (hs : p.state.precedesT3 = true) :
    (p.stepWith x).sentAddress = p.sentAddress := by
  rw [(h.stepWith x).sentAddress_eq, h.sentAddress_eq, stepWith_of_precedesT3 hs]
  rfl

end Processor

namespace Board

variable {b : Board}

/-! ### The settled bus before `T3` -/

theorem offers_of_ne_t3 (h : b.cpu.state ≠ .t3) : b.offers = { cpu := b.cpu.offer } := by
  unfold offers
  rw [if_neg h]

theorem settle_bus_of_startsCycle (h : b.cpu.state.startsCycle = true) :
    b.settle.bus = (b.cpu.sentAddress % 256).toUInt8 := by
  have hne : b.cpu.state ≠ .t3 := by intro hs; rw [hs] at h; contradiction
  rw [settle_bus, offers_of_ne_t3 hne]
  cases hs : b.cpu.state <;> rw [hs] at h <;>
    first | contradiction | simp [Processor.offer, hs, BusOffers.resolve]

theorem settle_bus_of_t2 (h : b.cpu.state = .t2) : b.settle.bus =
    UInt8.ofNat b.cpu.cycleKind.code * 64 + (b.cpu.sentAddress / 256).toUInt8 % 64 := by
  rw [settle_bus, offers_of_ne_t3 (by simp [h])]
  simp [Processor.offer, h, BusOffers.resolve]

/-- The two halves of the byte sent in `T2` do not overlap. -/
theorem kind_and_high (k : CycleKind) (high : UInt8) :
    CycleKind.ofField ((UInt8.ofNat k.code * 64 + high % 64) / 64) = k ∧
      (UInt8.ofNat k.code * 64 + high % 64) % 64 = high % 64 := by
  have hfields : (UInt8.ofNat k.code * 64 + high % 64) / 64 = UInt8.ofNat k.code ∧
      (UInt8.ofNat k.code * 64 + high % 64) % 64 = high % 64 := by
    have hcode : (UInt8.ofNat k.code).toNat < 4 := by cases k <;> decide
    have h64 : (64 : UInt8).toNat = 64 := rfl
    rw [← UInt8.toNat_inj, ← UInt8.toNat_inj, UInt8.toNat_div, UInt8.toNat_mod, UInt8.toNat_add,
      UInt8.toNat_mul, UInt8.toNat_mod, h64]
    omega
  rw [hfields.1, CycleKind.ofField_code]
  exact ⟨rfl, hfields.2⟩

/-! ### The collected address -/

/-- The latch holds as much of the address as was sent. -/
structure Latched (b : Board) : Prop where
  low_eq : b.cpu.state.afterT1 = true → b.latch.low = (b.cpu.sentAddress % 256).toUInt8
  acknowledge_eq : b.cpu.state.afterT1 = true → b.latch.acknowledge = b.cpu.isAcknowledge
  kind_eq : b.cpu.state.afterT2 = true → b.latch.kind = b.cpu.cycleKind
  high_eq : b.cpu.state.afterT2 = true →
    b.latch.high = (b.cpu.sentAddress / 256).toUInt8 % 64

namespace Latched

theorem tick (h : b.Latched) (hwf : b.cpu.WellFormed) : b.tick.Latched := by
  -- each half is on the bus in the state before, or was collected earlier and has not changed
  constructor
  · intro hs
    rw [cpu_tick, Processor.stepWith_eq, Processor.state_enter] at hs
    have hprecedes := TState.precedesT3_of_afterT1_next hs
    rw [cpu_tick, hwf.sentAddress_stepWith hprecedes, latch_tick]
    cases hstate : b.cpu.state with
    | t1 | t1i => exact settle_bus_of_startsCycle (by rw [hstate]; rfl)
    | t2 | wait => exact h.low_eq (by rw [hstate]; rfl)
    | _ => rw [hstate] at hprecedes; contradiction
  · intro hs
    rw [cpu_tick, Processor.stepWith_eq, Processor.state_enter] at hs
    have hprecedes := TState.precedesT3_of_afterT1_next hs
    rw [cpu_tick, Processor.stepWith_of_precedesT3 hprecedes, latch_tick]
    cases hstate : b.cpu.state with
    | t1 => exact (hwf.isAcknowledge_of_t1 hstate).symm
    | t1i => exact (hwf.isAcknowledge_of_t1i hstate).symm
    | t2 | wait => exact h.acknowledge_eq (by rw [hstate]; rfl)
    | _ => rw [hstate] at hprecedes; contradiction
  · intro hs
    rw [cpu_tick, Processor.stepWith_eq, Processor.state_enter] at hs
    rcases TState.eq_of_afterT2_next hs with hstate | hstate
    · rw [cpu_tick, Processor.stepWith_of_precedesT3 (by rw [hstate]; rfl), latch_tick, hstate,
        BusLatch.update, settle_bus_of_t2 hstate]
      exact (kind_and_high _ _).1
    · rw [cpu_tick, Processor.stepWith_of_precedesT3 (by rw [hstate]; rfl), latch_tick, hstate]
      exact h.kind_eq (by rw [hstate]; rfl)
  · intro hs
    rw [cpu_tick, Processor.stepWith_eq, Processor.state_enter] at hs
    rcases TState.eq_of_afterT2_next hs with hstate | hstate
    · rw [cpu_tick, hwf.sentAddress_stepWith (by rw [hstate]; rfl), latch_tick, hstate,
        BusLatch.update, settle_bus_of_t2 hstate]
      exact (kind_and_high _ _).2
    · rw [cpu_tick, hwf.sentAddress_stepWith (by rw [hstate]; rfl), latch_tick, hstate]
      exact h.high_eq (by rw [hstate]; rfl)

/-- From `T2` on the latch holds the whole address. -/
theorem address_eq (h : b.Latched) (hwf : b.cpu.WellFormed) (hs : b.cpu.state.afterT2 = true) :
    b.latch.address = b.cpu.sentAddress := by
  have hlt := hwf.sentAddress_lt
  rw [← UInt16.toNat_inj, BusLatch.address, toNat_addressOf, h.high_eq hs,
    h.low_eq (TState.afterT1_of_afterT2 hs)]
  simp
  omega

/-- In an input or output cycle the latch holds the accumulator as the low half, and the port of the
instruction in the high one. -/
theorem eq_of_pcc (h : b.Latched) (hwf : b.cpu.WellFormed) (hs : b.cpu.state.afterT2 = true)
    (hk : b.cpu.cycleKind = .pcc) :
    b.latch.low = b.cpu.registers.read .A ∧ b.latch.port = Opcode.port b.cpu.ir := by
  have haddress := toNat_addressOf b.cpu.ir (b.cpu.registers.read .A)
  have haccumulator := (b.cpu.registers.read .A).toNat_lt
  have hsent : b.cpu.sentAddress = addressOf b.cpu.ir (b.cpu.registers.read .A) := by
    rw [hwf.sentAddress_eq, hk]
  rw [BusLatch.port, Opcode.port, h.high_eq hs, h.low_eq (TState.afterT1_of_afterT2 hs), hsent]
  constructor
  · rw [← UInt8.toNat_inj]
    simp
    omega
  · rw [← UInt8.toNat_inj]
    simp
    omega

end Latched

/-! ### The settled bus in `T3` -/

/-- The memory byte at an address, 0 outside of memory. -/
def byteAt (b : Board) (address : Nat) : UInt8 := b.memory[address]?.getD 0

theorem Latched.addressedByte_eq (h : b.Latched) (hwf : b.cpu.WellFormed)
    (hs : b.cpu.state.afterT2 = true) : b.addressedByte = b.byteAt b.cpu.sentAddress.toNat := by
  have hlt := b.latch.address_lt
  rw [byteAt, ← h.address_eq hwf hs, Vector.getElem?_eq_getElem hlt]
  rfl

theorem isInput_addressedPort : PortBank.isInput b.addressedPort = decide (b.latch.port < 8) := by
  rw [addressedPort, PortBank.isInput, ← Bool.decide_and, decide_eq_decide, UInt8.lt_iff_toNat_lt]
  show _ ↔ b.latch.port.toNat < 8
  omega

/-- Which device answers in `T3`, and with which byte. -/
theorem Latched.resolve_of_t3 (h : b.Latched) (hwf : b.cpu.WellFormed) (hs : b.cpu.state = .t3) :
    b.offers.resolve b.bus =
      match b.cpu.cycleKind with
      | .pci =>
        if b.cpu.isAcknowledge then (.interrupt, b.interrupter.answer)
        else (.memory, b.byteAt b.cpu.pc.toNat)
      | .pcr => (.memory, b.byteAt b.cpu.registers.pointer.toNat)
      | .pcw => (.cpu, b.cpu.storeValue)
      | .pcc =>
        if Opcode.port b.cpu.ir < 8 then (.io, b.ports.read (Opcode.port b.cpu.ir).toNat)
        else (.none, b.bus) := by
  have hafter : b.cpu.state.afterT2 = true := by rw [hs]; rfl
  have hbyte := h.addressedByte_eq hwf hafter
  rw [hwf.sentAddress_eq] at hbyte
  rw [offers, if_pos hs, h.kind_eq hafter, h.acknowledge_eq (TState.afterT1_of_afterT2 hafter),
    isInput_addressedPort]
  cases hk : b.cpu.cycleKind with
  | pci =>
    rw [hk] at hbyte
    cases b.cpu.isAcknowledge <;> simp [BusOffers.resolve, Processor.offer, hs, hk, hbyte]
  | pcr =>
    rw [hk] at hbyte
    simp [BusOffers.resolve, Processor.offer, hs, hk, hbyte]
  | pcw => simp [BusOffers.resolve, Processor.offer, hs, hk]
  | pcc =>
    rw [addressedPort, (h.eq_of_pcc hwf hafter hk).2]
    by_cases hin : Opcode.port b.cpu.ir < 8 <;>
      simp [BusOffers.resolve, Processor.offer, hs, hk, hin]

end Board

end Mcs8
