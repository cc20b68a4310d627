import Mcs8.Proofs.Board.Reachable
import Mcs8.Proofs.Execution.Tick

/-!
# What the board accesses

The board goes by its address latch when it reads and writes memory and ports, and the processor by
its registers. `namedOffers`, `namedMemory` and `namedPorts` are what the devices would offer and
store if they could see the registers, the kind of the machine cycle and the decoded instruction. In
`T3` the latch has the board do exactly that (`offers_of_t3`, `memory_tick_of_t3`,
`ports_tick_of_t3`), so no byte and no port is accessed but the one that the instruction names.
-/

namespace Mcs8

namespace Board

/-! ### What an instruction names -/

section

variable (b : Board)

/-- What the devices offer to the machine cycle of the processor: memory the byte at the program
counter or at the memory pointer, an input port the byte that the instruction reads, and the
interrupting device its answer to an acknowledge. -/
def namedOffers : BusOffers where
  cpu := b.cpu.offer
  interrupt := if b.cpu.isAcknowledge then ⟨true, b.interrupter.answer⟩ else {}
  memory :=
    match b.cpu.cycleKind with
    | .pci => ⟨true, b.byteAt b.cpu.pc.toNat⟩
    | .pcr => ⟨true, b.byteAt b.cpu.registers.pointer.toNat⟩
    | .pcw | .pcc => {}
  io :=
    match b.cpu.cycleKind, b.cpu.operation with
    | .pcc, .input port => ⟨true, b.ports.read port.toNat⟩
    | _, _ => {}

/-- Memory after the machine cycle of the processor: a write stores at the memory pointer. -/
def namedMemory : Vector UInt8 memoryCapacity :=
  match b.cpu.cycleKind with
  | .pcw => b.memory.setIfInBounds b.cpu.registers.pointer.toNat b.cpu.storeValue
  | .pci | .pcr | .pcc => b.memory

/-- The ports after the machine cycle of the processor: an output sends the accumulator to the port
of the instruction. -/
def namedPorts : Ports :=
  match b.cpu.cycleKind, b.cpu.operation with
  | .pcc, .output port =>
    b.ports.load (b.ports.write port.toNat (b.cpu.registers.read .A) b.ticks)
  | _, _ => b.ports

end

/-! ### What the latch holds -/

variable {b : Board}

/-- In an input or output cycle the latch holds the port of the decoded instruction. -/
theorem Consistent.port_eq (h : b.Consistent) (hs : b.cpu.state.afterT2 = true)
    (hk : b.cpu.cycleKind = .pcc) :
    b.cpu.operation = .input b.latch.port ∧ b.latch.port < 8 ∨
      b.cpu.operation = .output b.latch.port ∧ 8 ≤ b.latch.port := by
  obtain ⟨-, hport⟩ := h.latched.eq_of_pcc h.wellFormed hs hk
  have hdecoded := h.wellFormed.operation_eq
  rcases Operation.eq_of_cycleKind_pcc (h.wellFormed.cycleKind_eq.symm.trans hk) with
    ⟨port, ho⟩ | ⟨port, ho⟩
  · obtain ⟨rfl, hlt⟩ := Operation.port_of_input (hdecoded.symm.trans ho)
    rw [hport]
    exact .inl ⟨ho, hlt⟩
  · obtain ⟨rfl, hle⟩ := Operation.port_of_output (hdecoded.symm.trans ho)
    rw [hport]
    exact .inr ⟨ho, hle⟩

/-- The address of a fetch is in the program counter, that of a read or write in `H` and `L`. -/
theorem Consistent.address_of_ne_pcc (h : b.Consistent) (hs : b.cpu.state.afterT2 = true)
    (hk : b.cpu.cycleKind ≠ .pcc) : b.latch.address =
      if b.cpu.cycleKind = .pci then b.cpu.pc else b.cpu.registers.pointer := by
  rw [h.latched.address_eq h.wellFormed hs, h.wellFormed.sentAddress_eq]
  cases hkind : b.cpu.cycleKind with
  | pci => rfl
  | pcr | pcw => rfl
  | pcc => contradiction

/-! ### What the board does in `T3` -/

section

variable (h : b.Consistent) (hs : b.cpu.state = .t3)

include h hs

theorem offers_of_t3 : b.offers = b.namedOffers := by
  have hafter : b.cpu.state.afterT2 = true := by rw [hs]; rfl
  have hack := h.latched.acknowledge_eq (TState.afterT1_of_afterT2 hafter)
  have hbyte := h.latched.addressedByte_eq h.wellFormed hafter
  rw [h.wellFormed.sentAddress_eq] at hbyte
  -- an acknowledge is a fetch, so in the other machine cycles its device keeps off the bus
  have hfetch := h.wellFormed.isAcknowledge_of_ne_pci
  rw [offers, if_pos hs, h.latched.kind_eq hafter, hack, namedOffers]
  cases hk : b.cpu.cycleKind with
  | pci =>
    rw [hk] at hbyte
    rw [hbyte]
  | pcr =>
    rw [hk] at hbyte
    rw [hbyte, hfetch (by simp [hk])]
    rfl
  | pcw =>
    rw [hfetch (by simp [hk])]
    rfl
  | pcc =>
    rw [hfetch (by simp [hk]), isInput_addressedPort, addressedPort]
    rcases h.port_eq hafter hk with ⟨ho, hlt⟩ | ⟨ho, hle⟩
    · rw [ho, decide_eq_true hlt]
      rfl
    · rw [ho, decide_eq_false (UInt8.not_lt.mpr hle)]
      rfl

theorem memory_tick_of_t3 : b.tick.memory = b.namedMemory := by
  have hafter : b.cpu.state.afterT2 = true := by rw [hs]; rfl
  have hbus := settle_bus_of_t3 h hs
  have haddress := h.address_of_ne_pcc hafter
  simp only [memory_tick, hs, h.latched.kind_eq hafter, true_and]
  rw [namedMemory]
  cases hk : b.cpu.cycleKind with
  | pcw =>
    rw [hk] at hbus haddress
    rw [if_pos rfl, haddress nofun, hbus]
    rfl
  | _ => rfl

theorem ports_tick_of_t3 : b.tick.ports = b.namedPorts := by
  have hafter : b.cpu.state.afterT2 = true := by rw [hs]; rfl
  simp only [ports_tick, hs, h.latched.kind_eq hafter, isInput_addressedPort, true_and]
  rw [namedPorts]
  cases hk : b.cpu.cycleKind with
  | pcc =>
    obtain ⟨hlow, -⟩ := h.latched.eq_of_pcc h.wellFormed hafter hk
    rcases h.port_eq hafter hk with ⟨ho, hlt⟩ | ⟨ho, hle⟩
    · rw [ho, decide_eq_true hlt]
      rfl
    · rw [ho, decide_eq_false (UInt8.not_lt.mpr hle), hlow, addressedPort]
      rfl
  | _ => rfl

end

/-- **The board accesses what the instruction names.** Whenever a reachable board is about to
transfer a byte, its address latch agrees with the processor on the kind of the machine cycle, on
whether it is an acknowledge, and on the address, or on the accumulator and the port of the decoded
instruction. So what is read and written in `T3` is what the registers of the processor and its
instruction name, and nothing else is written. -/
theorem latch_agrees {b : Board} (h : b.Reachable)
    (hs : b.cpu.state = .wait ∨ b.cpu.state = .t3) :
    b.latch.kind = b.cpu.cycleKind ∧
    b.latch.acknowledge = b.cpu.isAcknowledge ∧
    (b.cpu.cycleKind ≠ .pcc → b.latch.address = b.cpu.sentAddress ∧
      b.latch.address = if b.cpu.cycleKind = .pci then b.cpu.pc else b.cpu.registers.pointer) ∧
    (b.cpu.cycleKind = .pcc → b.latch.low = b.cpu.registers.read .A ∧
      (b.cpu.operation = .input b.latch.port ∨ b.cpu.operation = .output b.latch.port)) ∧
    (b.cpu.state = .t3 →
      b.offers = b.namedOffers ∧ b.tick.memory = b.namedMemory ∧ b.tick.ports = b.namedPorts) := by
  have hconsistent := h.consistent
  have hafter : b.cpu.state.afterT2 = true := by
    rcases hs with hs | hs <;> rw [hs] <;> rfl
  refine ⟨hconsistent.latched.kind_eq hafter,
    hconsistent.latched.acknowledge_eq (TState.afterT1_of_afterT2 hafter), fun hk ↦ ?_,
    fun hk ↦ ?_, fun hs ↦ ?_⟩
  · exact ⟨hconsistent.latched.address_eq hconsistent.wellFormed hafter,
      hconsistent.address_of_ne_pcc hafter hk⟩
  · obtain ⟨hlow, -⟩ := hconsistent.latched.eq_of_pcc hconsistent.wellFormed hafter hk
    refine ⟨hlow, ?_⟩
    rcases hconsistent.port_eq hafter hk with ⟨ho, -⟩ | ⟨ho, -⟩
    · exact .inl ho
    · exact .inr ho
  · exact ⟨offers_of_t3 hconsistent hs, memory_tick_of_t3 hconsistent hs,
      ports_tick_of_t3 hconsistent hs⟩

/-- A board that takes over an output of `2ah` to port 8 from another one, which was saved while it
waited. -/
def waitingOutput : Board :=
  takeOver {} (performAll {}
    [.load [0x06, 0x2a, 0x51] 0, .requestRestart 0, .run 19, .setReady false, .tick])

theorem waitingOutput_agrees : waitingOutput.cpu.state = .wait ∧
    waitingOutput.cpu.cycleKind = .pcc ∧ waitingOutput.latch.low = 0x2a ∧
    waitingOutput.latch.low = waitingOutput.cpu.registers.read .A ∧
    (waitingOutput.cpu.operation = .input waitingOutput.latch.port ∨
      waitingOutput.cpu.operation = .output waitingOutput.latch.port) := by
  have hreachable : waitingOutput.Reachable :=
    .restore .fresh (Reachable.fresh.performAll (by decide)) (restore_snapshot _ _)
  obtain ⟨hstate, hkind, hlow⟩ : waitingOutput.cpu.state = .wait ∧
      waitingOutput.cpu.cycleKind = .pcc ∧ waitingOutput.latch.low = 0x2a := by decide +kernel
  obtain ⟨-, -, -, hport, -⟩ := latch_agrees hreachable (.inl hstate)
  exact ⟨hstate, hkind, hlow, hport hkind⟩

end Board

end Mcs8
