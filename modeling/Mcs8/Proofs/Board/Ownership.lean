import Mcs8.Proofs.Board.Addressing

/-!
# The owner of the bus

Processor and board decide apart from each other who puts a byte on the bus: the processor goes by
the kind of its machine cycle, and the board by the copy of it in the address latch. On every
reachable board the two agree, and the offers are those of a bus with one rightful owner
(`offers_eq`), which the state and the machine cycle fix. No two devices meet then but the
interrupting device and memory, and the priorities have nothing else to settle.
-/

namespace Mcs8

namespace Board

/-! ### Owners and their bytes -/

section

variable (b : Board)

/-- The owner of the bus. The processor sends the address in `T1` and `T2`; in `T3` the owner goes
by the machine cycle; in all other states there is none. -/
def rightfulOwner : BusOwner :=
  match b.cpu.state with
  | .t1 | .t1i | .t2 => .cpu
  | .t3 =>
    match b.cpu.cycleKind, b.cpu.operation with
    | .pci, _ => if b.cpu.isAcknowledge then .interrupt else .memory
    | .pcr, _ => .memory
    | .pcw, _ => .cpu
    | .pcc, .input _ => .io
    | .pcc, _ => .none
  | .wait | .t4 | .t5 | .stopped => .none

/-- The byte of the processor: the halves of the address, the high one below the code of the machine
cycle, and then the byte to store. -/
def sentByte : UInt8 :=
  match b.cpu.state with
  | .t1 | .t1i => .ofNat (b.cpu.sentAddress.toNat % 256)
  | .t2 => .ofNat (b.cpu.cycleKind.code * 64 + b.cpu.sentAddress.toNat / 256)
  | _ => b.cpu.storeValue

/-- The byte that an owner puts on the bus. A bus without an owner keeps its byte. -/
def byteOf : BusOwner → UInt8
  | .none => b.bus
  | .interrupt => b.interrupter.answer
  | .cpu => b.sentByte
  | .memory => b.byteAt b.cpu.sentAddress.toNat
  | .io =>
    match b.cpu.operation with
    | .input port => b.ports.inputs[port.toNat]?.getD 0
    | _ => 0

/-- The offers of the devices when the bus has a given owner. Memory also answers an acknowledge,
which the interrupting device answers with priority. -/
def offersOf (owner : BusOwner) : BusOffers where
  interrupt := if owner = .interrupt then ⟨true, b.byteOf .interrupt⟩ else {}
  cpu := if owner = .cpu then ⟨true, b.byteOf .cpu⟩ else {}
  memory := if owner = .interrupt ∨ owner = .memory then ⟨true, b.byteOf .memory⟩ else {}
  io := if owner = .io then ⟨true, b.byteOf .io⟩ else {}

theorem resolve_offersOf (owner : BusOwner) :
    (b.offersOf owner).resolve b.bus = (owner, b.byteOf owner) := by
  cases owner <;> rfl

theorem countP_offersOf (owner : BusOwner) :
    [(b.offersOf owner).cpu, (b.offersOf owner).memory, (b.offersOf owner).io].countP
      (·.enabled) ≤ 1 := by
  cases owner <;> exact Nat.le_of_ble_eq_true rfl

theorem memory_of_interrupt (owner : BusOwner) (h : (b.offersOf owner).interrupt.enabled = true) :
    (b.offersOf owner).memory.enabled = true := by
  cases owner <;> first | rfl | contradiction

end

variable {b : Board}

/-! ### What the devices offer -/

/-- Outside of `T3` the processor offers a byte exactly if it owns the bus. -/
theorem offersOf_of_ne_t3 (h : b.cpu.WellFormed) (hs : b.cpu.state ≠ .t3) :
    b.offersOf b.rightfulOwner = { cpu := b.cpu.offer } := by
  have hlow : (b.cpu.sentAddress % 256).toUInt8 = .ofNat (b.cpu.sentAddress.toNat % 256) := rfl
  -- an address has 14 bits, so its high half leaves room for the code of the machine cycle
  have hhigh : UInt8.ofNat b.cpu.cycleKind.code * 64 + (b.cpu.sentAddress / 256).toUInt8 % 64 =
      .ofNat (b.cpu.cycleKind.code * 64 + b.cpu.sentAddress.toNat / 256) := by
    have hlt := h.sentAddress_lt
    have hcode : b.cpu.cycleKind.code < 4 := by cases b.cpu.cycleKind <;> decide
    rw [← UInt8.toNat_inj]
    simp
    omega
  rw [Processor.offer, rightfulOwner]
  cases hstate : b.cpu.state with
  | t1 | t1i => simp [offersOf, byteOf, sentByte, hstate, hlow]
  | t2 => simp [offersOf, byteOf, sentByte, hstate, hhigh]
  | t3 => contradiction
  | wait | t4 | t5 | stopped => rfl

/-- The port of an input operation is one that has a byte. -/
theorem read_of_input (h : b.cpu.WellFormed) {port : UInt8} (ho : b.cpu.operation = .input port) :
    b.ports.read port.toNat = b.byteOf .io := by
  obtain ⟨-, hlt⟩ := Operation.port_of_input (h.operation_eq.symm.trans ho)
  have hinput : PortBank.isInput port.toNat = true := by
    have hlt' : port.toNat < 8 := hlt
    rw [PortBank.isInput, Bool.and_eq_true, decide_eq_true_eq, decide_eq_true_eq]
    omega
  rw [PortBank.read, if_pos hinput, byteOf, ho, Int.toNat_natCast]

theorem offersOf_of_t3 (h : b.Consistent) (hs : b.cpu.state = .t3) :
    b.offersOf b.rightfulOwner = b.namedOffers := by
  have hsent := h.wellFormed.sentAddress_eq
  have hstore : b.byteOf .cpu = b.cpu.storeValue := by rw [byteOf, sentByte, hs]
  have hfetch := h.wellFormed.isAcknowledge_of_ne_pci
  rw [namedOffers, rightfulOwner, hs, Processor.offer, hs]
  cases hk : b.cpu.cycleKind with
  | pci =>
    rw [hk] at hsent
    cases b.cpu.isAcknowledge <;> simp [offersOf, byteOf, hsent]
  | pcr =>
    rw [hk] at hsent
    simp [offersOf, byteOf, hsent, hfetch (by simp [hk])]
  | pcw => simp [offersOf, hstore, hfetch (by simp [hk])]
  | pcc =>
    rcases Operation.eq_of_cycleKind_pcc (h.wellFormed.cycleKind_eq.symm.trans hk) with
      ⟨port, ho⟩ | ⟨port, ho⟩
    · simp [offersOf, ho, read_of_input h.wellFormed ho, hfetch (by simp [hk])]
    · simp [offersOf, ho, hfetch (by simp [hk])]

/-- The devices offer just what the rightful owner makes them offer. -/
theorem offers_eq (h : b.Consistent) : b.offers = b.offersOf b.rightfulOwner := by
  by_cases hs : b.cpu.state = .t3
  · rw [offers_of_t3 h hs, offersOf_of_t3 h hs]
  · rw [offers_of_ne_t3 hs, offersOf_of_ne_t3 h.wellFormed hs]

/-! ### Who gets the bus -/

/-- **The bus has one owner.** On every reachable board at most one of processor, memory and ports
offers a byte, and the interrupting device offers one only where memory does, so that it takes
priority over memory and over nothing else. The owner that a tick finds is the one that the state and
the machine cycle fix, and the bus carries the byte of that owner: an address, the kind of the
machine cycle or a byte to store, the answer to an acknowledge, the addressed memory byte, or the
byte at the addressed input port; without an owner it keeps the byte of the tick before. -/
theorem bus_has_one_owner {b : Board} (h : b.Reachable) :
    [b.offers.cpu, b.offers.memory, b.offers.io].countP (·.enabled) ≤ 1 ∧
    (b.offers.interrupt.enabled = true → b.offers.memory.enabled = true) ∧
    b.tick.owner = b.rightfulOwner ∧ b.tick.bus = b.byteOf b.rightfulOwner := by
  have hresolve := b.resolve_offersOf b.rightfulOwner
  rw [owner_tick, bus_tick, settle_owner, settle_bus, offers_eq h.consistent, hresolve]
  refine ⟨?_, ?_, rfl, rfl⟩
  · exact b.countP_offersOf b.rightfulOwner
  · exact b.memory_of_interrupt b.rightfulOwner

/-- A board whose processor takes the opcode of an input instruction from the interrupting device,
while memory offers a byte as well. -/
def acknowledgedInput : Board :=
  performAll {} [.load [0x2a] 0, .setInput 2 0x5a, .requestInterrupt 0x45, .run 4]

theorem acknowledgedInput_owner : acknowledgedInput.cpu.state = .t3 ∧
    acknowledgedInput.offers.memory = ⟨true, 0x2a⟩ ∧
    acknowledgedInput.tick.owner = .interrupt ∧ acknowledgedInput.tick.bus = 0x45 := by
  have hreachable : acknowledgedInput.Reachable := Reachable.fresh.performAll (by decide)
  obtain ⟨-, -, howner, hbus⟩ := bus_has_one_owner hreachable
  rw [howner, hbus]
  decide +kernel

end Board

end Mcs8
