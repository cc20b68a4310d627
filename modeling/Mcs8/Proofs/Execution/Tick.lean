import Mcs8.Proofs.Execution.Datapath

/-!
# What a tick does to the datapath

Only three states of a machine cycle work on the datapath. In `T4` and `T5` it is the processor
alone. In `T3` processor and board share the work: the settled bus carries a byte from one to the
other, and together they do what the machine cycle asks for (`datapath_tick_of_t3`).
-/

namespace Mcs8

/-! ### Ports of opcodes -/

namespace Operation

/-- The port of an input operation is in its opcode. -/
theorem port_of_input {opcode port : UInt8} (h : ofOpcode opcode = .input port) :
    port = Opcode.port opcode ∧ port < 8 := by
  unfold ofOpcode ofGroup0 ofGroup1 at h
  grind

/-- The port of an output operation is in its opcode. -/
theorem port_of_output {opcode port : UInt8} (h : ofOpcode opcode = .output port) :
    port = Opcode.port opcode ∧ 8 ≤ port := by
  unfold ofOpcode ofGroup0 ofGroup1 at h
  grind

/-- Only the input and output operations have a machine cycle for ports. -/
theorem eq_of_cycleKind_pcc {o : Operation} {cycle : Int} (h : o.cycleKind cycle = .pcc) :
    (∃ port, o = .input port) ∨ ∃ port, o = .output port := by
  unfold cycleKind at h
  grind

end Operation

namespace Datapath

variable {d : Datapath} {p : Processor} {x : Pins}

theorem withProcessor_stepWith : d.withProcessor (p.stepWith x) = d.withProcessor (p.worked x) := by
  rw [Processor.stepWith_eq]
  cases p.state.next ((p.worked x).boundarySignals x.ready) <;> rfl

/-- Sampling the pins does not touch the datapath. -/
theorem withProcessor_latchByte_sample (bus : UInt8) :
    d.withProcessor ((p.sample x.bus x.ready x.interrupt).latchByte bus) =
      d.withProcessor (p.latchByte bus) := by
  have hkind : (p.sample x.bus x.ready x.interrupt).cycleKind = p.cycleKind := rfl
  have hnumber : (p.sample x.bus x.ready x.interrupt).cycleNumber = p.cycleNumber := rfl
  have hoperation : (p.sample x.bus x.ready x.interrupt).operation = p.operation := rfl
  simp only [Processor.latchByte, Processor.takeOpcode_eq, Processor.takeOperand_eq, hkind, hnumber,
    hoperation]
  cases p.cycleKind with
  | pci =>
    by_cases h : p.cycleNumber = 0
    · simp only [h, if_true]
      rfl
    · simp only [h, if_false]
      rfl
  | pcr | pcw => rfl
  | pcc => cases p.operation <;> rfl

end Datapath

namespace Board

variable (b : Board)

/-- What instructions work on. -/
def datapath : Datapath where
  registers := b.cpu.registers
  flags := b.cpu.flags
  pc := b.cpu.pc
  stack := b.cpu.stack
  tempA := b.cpu.tempA
  tempB := b.cpu.tempB
  memory := b.memory
  inputs := b.ports.inputs
  outputs := b.ports.outputs
  written := b.ports.log.toList.map fun record ↦ (record.port, record.value)

theorem datapath_clocked : b.clocked.datapath = b.datapath.withProcessor (b.cpu.worked b.pins) := by
  rw [← Datapath.withProcessor_stepWith, clocked_frame]
  rfl

variable {b}

theorem datapath_tick_of_ne_t3 (h : b.cpu.state ≠ .t3) :
    b.tick.datapath = b.datapath.withProcessor (b.cpu.worked b.pins) := by
  rw [← datapath_clocked, tick_eq]
  cases hs : b.cpu.state with
  | t3 => exact absurd hs h
  | _ => rfl

/-! ### The work of `T3` -/

theorem writeCycle_of_pcw (h : b.latch.kind = .pcw) : b.writeCycle =
    { b with memory := b.memory.setIfInBounds b.latch.address.toNat b.bus } := by
  have hset (hlt : b.latch.address.toNat < memoryCapacity) :
      b.memory.set b.latch.address.toNat b.bus hlt =
        b.memory.setIfInBounds b.latch.address.toNat b.bus := by
    ext i hi
    rw [Vector.getElem_set, Vector.getElem_setIfInBounds]
  rw [← hset b.latch.address_lt]
  simp only [writeCycle, h]

theorem writeCycle_of_fetch (h : b.latch.kind = .pci ∨ b.latch.kind = .pcr) :
    b.writeCycle = b := by
  rcases h with h | h <;> simp only [writeCycle, h]

theorem writeCycle_of_input (h : b.latch.kind = .pcc) (hport : b.latch.port < 8) :
    b.writeCycle = b := by
  simp only [writeCycle, h, isInput_addressedPort, hport, decide_true, if_true]

theorem writeCycle_of_output (h : b.latch.kind = .pcc) (hport : 8 ≤ b.latch.port) :
    b.writeCycle = { b with
      ports := b.ports.load { b.ports.toPortBank with
        outputs := b.ports.outputs.setIfInBounds (b.latch.port.toNat - 8) b.latch.low
        log := b.ports.log.push
          { port := .ofInt b.latch.port.toNat, value := b.latch.low, tick := b.ticks } } } := by
  have hinput : ¬b.latch.port < 8 := UInt8.not_lt.mpr hport
  have houtput : PortBank.isOutput b.addressedPort = true := by
    have hlt := b.latch.port_lt
    have hle : 8 ≤ b.latch.port.toNat := UInt8.le_iff_toNat_le.mp hport
    rw [addressedPort, PortBank.isOutput, Bool.and_eq_true, decide_eq_true_eq, decide_eq_true_eq]
    omega
  simp only [writeCycle, h, isInput_addressedPort, hinput, decide_false, Bool.false_eq_true,
    if_false, PortBank.write, houtput, if_true]
  rfl

section

variable (h : b.Consistent) (hs : b.cpu.state = .t3)

include hs in
theorem datapath_clocked_of_t3 : b.clocked.datapath =
    b.datapath.withProcessor (b.cpu.latchByte b.settle.bus) := by
  have hsample := Datapath.withProcessor_latchByte_sample (d := b.datapath) (p := b.cpu)
    (x := b.pins) b.settle.bus
  rw [datapath_clocked, Processor.worked_of_t3 hs, Processor.takeByte_eq, ← hsample]
  rfl

include hs in
theorem datapath_tick_eq : b.tick.datapath = b.clocked.writeCycle.datapath := by
  rw [tick_eq, hs]
  rfl

include hs in
theorem latch_clocked_of_t3 : b.clocked.latch = b.latch := by
  rw [latch_clocked, hs]
  rfl

include h hs

theorem kind_clocked : b.clocked.latch.kind = b.cpu.cycleKind := by
  rw [latch_clocked_of_t3 hs, h.latched.kind_eq (by rw [hs]; rfl)]

theorem settle_bus_of_t3 : b.settle.bus =
    match b.cpu.cycleKind with
    | .pci => if b.cpu.isAcknowledge then b.interrupter.answer else b.byteAt b.cpu.pc.toNat
    | .pcr => b.byteAt b.cpu.registers.pointer.toNat
    | .pcw => b.cpu.storeValue
    | .pcc =>
      if Opcode.port b.cpu.ir < 8 then b.ports.read (Opcode.port b.cpu.ir).toNat else b.bus := by
  rw [settle_bus, h.latched.resolve_of_t3 h.wellFormed hs]
  cases b.cpu.cycleKind with
  | pci | pcc => exact apply_ite Prod.snd _ _ _
  | pcr | pcw => rfl

theorem datapath_tick_of_fetch (hk : b.cpu.cycleKind = .pci ∨ b.cpu.cycleKind = .pcr) :
    b.tick.datapath = b.datapath.withProcessor (b.cpu.latchByte b.settle.bus) := by
  rw [datapath_tick_eq hs, writeCycle_of_fetch (by rwa [kind_clocked h hs]),
    datapath_clocked_of_t3 hs]

theorem datapath_tick_of_opcode (hn : b.cpu.cycleNumber = 0) :
    b.tick.datapath = b.datapath.takeOpcode b.cpu.isAcknowledge := by
  have hfetch := h.wellFormed.fetchesOpcode_iff.mpr hn
  rw [datapath_tick_of_fetch h hs (.inl hfetch.1), Processor.latchByte_of_opcode _ hfetch,
    Processor.takeOpcode_eq]
  rfl

theorem datapath_tick_of_operand (hk : b.cpu.cycleKind = .pci) (hn : b.cpu.cycleNumber ≠ 0) :
    b.tick.datapath = if b.cpu.cycleNumber = 1 then
        { b.datapath.advance with tempB := b.datapath.byteAt b.cpu.pc }
      else { b.datapath.advance with tempA := b.datapath.byteAt b.cpu.pc } := by
  have hack : b.cpu.isAcknowledge = false := by
    rw [Bool.eq_false_iff]
    exact fun hack ↦ hn (h.wellFormed.number_of_isAcknowledge hack)
  have hbus : b.settle.bus = b.datapath.byteAt b.cpu.pc := by
    rw [settle_bus_of_t3 h hs, hk, hack]
    rfl
  rw [datapath_tick_of_fetch h hs (.inl hk), Processor.latchByte_of_operand _ hk hn,
    Processor.takeOperand_eq, hbus]
  by_cases hone : b.cpu.cycleNumber = 1
  · simp only [if_pos hone]
    rfl
  · simp only [if_neg hone]
    rfl

theorem datapath_tick_of_pcr (hk : b.cpu.cycleKind = .pcr) : b.tick.datapath =
    { b.datapath with tempB := b.datapath.byteAt b.cpu.registers.pointer } := by
  have hbus : b.settle.bus = b.datapath.byteAt b.cpu.registers.pointer := by
    rw [settle_bus_of_t3 h hs, hk]
    rfl
  rw [datapath_tick_of_fetch h hs (.inr hk), Processor.latchByte_of_pcr _ hk, hbus]
  rfl

theorem datapath_tick_of_pcw (hk : b.cpu.cycleKind = .pcw) : b.tick.datapath =
    { b.datapath with
      memory := b.memory.setIfInBounds b.cpu.registers.pointer.toNat b.cpu.storeValue } := by
  have hbus : b.settle.bus = b.cpu.storeValue := by rw [settle_bus_of_t3 h hs, hk]
  -- the latch holds the address that the processor sent, which is the memory pointer
  have haddress := h.latched.address_eq h.wellFormed (by rw [hs]; rfl)
  rw [h.wellFormed.sentAddress_eq, hk] at haddress
  have hwrites : b.clocked.writeCycle.datapath = { b.clocked.datapath with
      memory := b.memory.setIfInBounds b.latch.address.toNat b.settle.bus } := by
    rw [writeCycle_of_pcw (by rw [kind_clocked h hs, hk]), ← latch_clocked_of_t3 hs, clocked_frame]
    rfl
  rw [datapath_tick_eq hs, hwrites, datapath_clocked_of_t3 hs, Processor.latchByte_of_pcw _ hk,
    haddress, hbus]
  rfl

theorem datapath_tick_of_input {port : UInt8} (hk : b.cpu.cycleKind = .pcc)
    (ho : b.cpu.operation = .input port) :
    b.tick.datapath = b.datapath.transfer (.input port) := by
  obtain ⟨-, hport⟩ := h.latched.eq_of_pcc h.wellFormed (by rw [hs]; rfl) hk
  obtain ⟨rfl, hlt⟩ := Operation.port_of_input (h.wellFormed.operation_eq.symm.trans ho)
  have hinput : PortBank.isInput (Opcode.port b.cpu.ir).toNat = true := by
    rw [← hport, ← addressedPort, isInput_addressedPort, hport]
    exact decide_eq_true hlt
  have hbus : b.settle.bus = b.ports.inputs[(Opcode.port b.cpu.ir).toNat]?.getD 0 := by
    rw [settle_bus_of_t3 h hs, hk]
    show (if Opcode.port b.cpu.ir < 8 then _ else _) = _
    rw [if_pos hlt, PortBank.read, if_pos hinput, Int.toNat_natCast]
  rw [datapath_tick_eq hs, writeCycle_of_input (by rw [kind_clocked h hs, hk])
      (by rwa [latch_clocked_of_t3 hs, hport]),
    datapath_clocked_of_t3 hs, Processor.latchByte_of_input _ hk ho, hbus]
  rfl

theorem datapath_tick_of_output {port : UInt8} (hk : b.cpu.cycleKind = .pcc)
    (ho : b.cpu.operation = .output port) :
    b.tick.datapath = b.datapath.transfer (.output port) := by
  obtain ⟨hlow, hport⟩ := h.latched.eq_of_pcc h.wellFormed (by rw [hs]; rfl) hk
  obtain ⟨rfl, hle⟩ := Operation.port_of_output (h.wellFormed.operation_eq.symm.trans ho)
  have hwrites : b.clocked.writeCycle.datapath = { b.clocked.datapath with
      outputs := b.ports.outputs.setIfInBounds ((Opcode.port b.cpu.ir).toNat - 8)
        (b.cpu.registers.read .A)
      written := b.datapath.written ++
        [(.ofInt (Opcode.port b.cpu.ir).toNat, b.cpu.registers.read .A)] } := by
    have hwritten (log : Array OutputRecord) (record : OutputRecord) :
        ((log.push record).toList.map fun r ↦ (r.port, r.value)) =
          (log.toList.map fun r ↦ (r.port, r.value)) ++ [(record.port, record.value)] := by
      rw [Array.toList_push, List.map_append, List.map_singleton]
    have hlatch := latch_clocked_of_t3 hs
    rw [writeCycle_of_output (by rw [kind_clocked h hs, hk]) (by rwa [hlatch, hport]), hlatch,
      hport, hlow, clocked_frame, datapath, datapath, datapath, Datapath.mk.injEq]
    exact ⟨rfl, rfl, rfl, rfl, rfl, rfl, rfl, rfl, rfl, hwritten _ _⟩
  rw [datapath_tick_eq hs, hwrites, datapath_clocked_of_t3 hs,
    Processor.latchByte_of_output _ hk ho]
  rfl

end

/-- In `T3` the first machine cycle of an instruction takes the opcode, and each other one does what
its kind asks for. -/
theorem datapath_tick_of_t3 (h : b.Consistent) (hs : b.cpu.state = .t3) : b.tick.datapath =
    if b.cpu.cycleNumber = 0 then b.datapath.takeOpcode b.cpu.isAcknowledge
    else b.datapath.access b.cpu.operation b.cpu.cycleNumber.toInt := by
  by_cases hn : b.cpu.cycleNumber = 0
  · rw [if_pos hn, datapath_tick_of_opcode h hs hn]
  rw [if_neg hn, Datapath.access, ← h.wellFormed.cycleKind_eq]
  cases hk : b.cpu.cycleKind with
  | pci =>
    have hone : b.cpu.cycleNumber = 1 ↔ b.cpu.cycleNumber.toInt = 1 := Int32.toInt_inj.symm
    rw [datapath_tick_of_operand h hs hk hn]
    simp only [hone]
    rfl
  | pcr => exact datapath_tick_of_pcr h hs hk
  | pcw => exact datapath_tick_of_pcw h hs hk
  | pcc =>
    rcases Operation.eq_of_cycleKind_pcc (h.wellFormed.cycleKind_eq.symm.trans hk) with
      ⟨port, ho⟩ | ⟨port, ho⟩
    · rw [datapath_tick_of_input h hs hk ho, ho]
    · rw [datapath_tick_of_output h hs hk ho, ho]

/-! ### What a tick writes -/

theorem memory_writeCycle : b.writeCycle.memory =
    if b.latch.kind = .pcw then b.memory.setIfInBounds b.latch.address.toNat b.bus
    else b.memory := by
  cases hk : b.latch.kind with
  | pcw => rw [writeCycle_of_pcw hk, if_pos rfl]
  | pcc =>
    rw [writeCycle, hk]
    cases PortBank.isInput b.addressedPort <;> rfl
  | pci => rw [writeCycle_of_fetch (.inl hk)]; rfl
  | pcr => rw [writeCycle_of_fetch (.inr hk)]; rfl

theorem ports_writeCycle : b.writeCycle.ports =
    if b.latch.kind = .pcc then
      if PortBank.isInput b.addressedPort then b.ports
      else b.ports.load (b.ports.write b.addressedPort b.latch.low b.ticks)
    else b.ports := by
  cases hk : b.latch.kind with
  | pcw => rw [writeCycle_of_pcw hk]; rfl
  | pcc =>
    rw [writeCycle, hk, if_pos rfl]
    cases PortBank.isInput b.addressedPort <;> rfl
  | pci => rw [writeCycle_of_fetch (.inl hk)]; rfl
  | pcr => rw [writeCycle_of_fetch (.inr hk)]; rfl

/-- Memory is written in `T3` only, at the collected address. -/
theorem memory_tick : b.tick.memory =
    if b.cpu.state = .t3 ∧ b.latch.kind = .pcw then
      b.memory.setIfInBounds b.latch.address.toNat b.settle.bus
    else b.memory := by
  by_cases hs : b.cpu.state = .t3
  · have hwrites : b.tick.memory = b.clocked.writeCycle.memory := by rw [tick_eq, hs]; rfl
    simp only [hwrites, memory_writeCycle, latch_clocked_of_t3 hs, hs, true_and]
    rw [clocked_frame]
    rfl
  · have hkept : b.tick.memory = b.clocked.memory := by
      rw [tick_eq]
      cases hstate : b.cpu.state <;> first | contradiction | rfl
    rw [if_neg fun h ↦ hs h.1, hkept, clocked_frame]
    rfl

/-- An output port is written in `T3` only, with the byte sent in `T1`. -/
theorem ports_tick : b.tick.ports =
    if b.cpu.state = .t3 ∧ b.latch.kind = .pcc ∧ PortBank.isInput b.addressedPort = false then
      b.ports.load (b.ports.write b.addressedPort b.latch.low b.ticks)
    else b.ports := by
  by_cases hs : b.cpu.state = .t3
  · have hwrites : b.tick.ports = b.clocked.writeCycle.ports := by rw [tick_eq, hs]; rfl
    have hport : b.clocked.addressedPort = b.addressedPort := by
      rw [addressedPort, latch_clocked_of_t3 hs, addressedPort]
    have hclocked : b.clocked.ports = b.ports ∧ b.clocked.ticks = b.ticks := by
      rw [clocked_frame]
      exact ⟨rfl, rfl⟩
    simp only [hwrites, ports_writeCycle, latch_clocked_of_t3 hs, hport, hclocked, hs, true_and]
    by_cases hk : b.latch.kind = .pcc <;> cases PortBank.isInput b.addressedPort <;> simp [hk]
  · have hkept : b.tick.ports = b.clocked.ports := by
      rw [tick_eq]
      cases hstate : b.cpu.state <;> first | contradiction | rfl
    rw [if_neg fun h ↦ hs h.1, hkept, clocked_frame]
    rfl

end Board

end Mcs8
