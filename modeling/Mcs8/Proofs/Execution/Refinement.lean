import Mcs8.Proofs.Execution.Arithmetic

/-!
# Machine cycles execute instructions

An operation is one to three machine cycles on the datapath, with bytes that wait in temporary
registers, and one step of the reference machine. There is one lemma for each kind of operation, and
`machine_continuation` puts them together along the fields of the opcode, which the datapath and the
reference machine decode in the same order.
-/

namespace Mcs8

namespace Opcode

theorem toNat_first (opcode : UInt8) : (first opcode).toNat = opcode.toNat / 8 % 8 := by
  rw [first, UInt8.toNat_mod, UInt8.toNat_div]
  rfl

theorem toNat_second (opcode : UInt8) : (second opcode).toNat = opcode.toNat % 8 :=
  UInt8.toNat_mod opcode 8

theorem first_lt (opcode : UInt8) : (first opcode).toNat < 8 := by
  rw [toNat_first]
  exact Nat.mod_lt _ (by decide)

theorem second_lt (opcode : UInt8) : (second opcode).toNat < 8 := by
  rw [toNat_second]
  exact Nat.mod_lt _ (by decide)

theorem toNat_group (opcode : UInt8) : (group opcode).toNat = opcode.toNat / 64 :=
  UInt8.toNat_div opcode 64

theorem toNat_port (opcode : UInt8) : (port opcode).toNat = opcode.toNat / 2 % 32 := by
  rw [port, UInt8.toNat_mod, UInt8.toNat_div]
  rfl

end Opcode

namespace Datapath

variable (d : Datapath)

/-! ### Operations on registers and memory -/

theorem machine_halt : (d.continuation .halt 0).machine = d.machine := rfl

theorem machine_undefined : (d.continuation .undefined 0).machine = d.machine := rfl

theorem operand_machine_of_ne {src : Register} (h : src ≠ .M) :
    d.machine.operand src.index = (d.registers.read src).toNat := by
  have hindex := Register.index_lt_seven h
  rw [Machine.operand, if_neg (by omega), d.register_machine h]

theorem operand_machine_M :
    d.machine.operand Register.M.index = (d.byteAt d.registers.pointer).toNat := by
  have hindex : Register.M.index = 7 := rfl
  rw [Machine.operand, if_pos hindex, address_machine, byteAt_machine]

theorem machine_assign_of_ne {dst : Register} (h : dst ≠ .M) (value : UInt8) :
    { d with registers := d.registers.write dst value }.machine =
      d.machine.assign dst.index value.toNat := by
  have hindex := Register.index_lt_seven h
  rw [machine_write, Machine.assign, if_neg (by omega)]

/-- A move to memory needs a second machine cycle for the write, one from memory for the read. -/
theorem machine_move {dst src : Register} (h : ¬(dst = .M ∧ src = .M)) :
    (d.continuation (.move dst src) 0).machine =
      d.machine.assign dst.index (d.machine.operand src.index) := by
  by_cases hdst : dst = .M
  · subst hdst
    have hsrc : src ≠ .M := fun hsrc ↦ h ⟨rfl, hsrc⟩
    have hcontinuation : d.continuation (.move .M src) 0 = { d with
        memory := d.memory.setIfInBounds d.registers.pointer.toNat (d.registers.read src) } := by
      cases src <;> rfl
    rw [hcontinuation, operand_machine_of_ne d hsrc]
    exact d.machine_writeMemory _
  by_cases hsrc : src = .M
  · -- the byte waits in `b` from `T3` to `T5`
    subst hsrc
    have hcontinuation : (d.continuation (.move dst .M) 0).machine =
        { d with registers := d.registers.write dst (d.byteAt d.registers.pointer) }.machine := by
      cases dst <;> first | contradiction | rfl
    rw [hcontinuation, operand_machine_M, machine_assign_of_ne d hdst]
  · have hcontinuation : (d.continuation (.move dst src) 0).machine =
        { d with registers := d.registers.write dst (d.registers.read src) }.machine := by
      cases dst <;> cases src <;> first | contradiction | rfl
    rw [hcontinuation, operand_machine_of_ne d hsrc, machine_assign_of_ne d hdst]

theorem machine_moveImmediate (dst : Register) :
    (d.continuation (.moveImmediate dst) 0).machine =
      d.machine.advance.assign dst.index d.machine.nextByte := by
  rw [← machine_advance, nextByte_machine]
  by_cases hdst : dst = .M
  · subst hdst
    exact d.advance.machine_writeMemory (d.byteAt d.pc)
  · have hcontinuation : (d.continuation (.moveImmediate dst) 0).machine =
        { d.advance with registers := d.registers.write dst (d.byteAt d.pc) }.machine := by
      cases dst <;> first | contradiction | rfl
    rw [hcontinuation]
    exact d.advance.machine_assign_of_ne hdst (d.byteAt d.pc)

/-- An increment or decrement keeps the carry. -/
theorem machine_setWithFlags (reg : Register) (value : UInt8) :
    { d with
      flags := .ofResult value d.flags.carry
      registers := d.registers.write reg value }.machine =
        d.machine.setWithFlags reg.index value.toNat := by
  have hcarry : d.machine.carry = d.flags.carry := rfl
  rw [Machine.setWithFlags, hcarry, ← machine_setFlags]
  exact machine_write { d with flags := .ofResult value d.flags.carry } reg value

theorem machine_increment {reg : Register} (h : reg ≠ .M) :
    (d.continuation (.increment reg) 0).machine =
      d.machine.setWithFlags reg.index ((d.machine.register reg.index + 1) % 256) := by
  have hsum := Adder.toNat_sum (d.registers.read reg) 1 false
  rw [d.register_machine h]
  exact (d.machine_setWithFlags reg _).trans (congrArg _ hsum)

theorem machine_decrement {reg : Register} (h : reg ≠ .M) :
    (d.continuation (.decrement reg) 0).machine =
      d.machine.setWithFlags reg.index ((d.machine.register reg.index + 255) % 256) := by
  have hsum := Adder.toNat_sum (d.registers.read reg) 0xff false
  rw [d.register_machine h]
  exact (d.machine_setWithFlags reg _).trans (congrArg _ hsum)

theorem machine_alu (op : BinaryOp) (src : Register) :
    (d.continuation (.alu op src) 0).machine =
      d.machine.combine op.code (d.machine.operand src.index) := by
  by_cases hsrc : src = .M
  · subst hsrc
    rw [operand_machine_M]
    exact d.machine_combine op (d.byteAt d.registers.pointer)
  · rw [operand_machine_of_ne d hsrc, ← machine_combine]
    cases src <;> first | contradiction | rfl

theorem machine_aluImmediate (op : BinaryOp) :
    (d.continuation (.aluImmediate op) 0).machine =
      d.machine.advance.combine op.code d.machine.nextByte := by
  rw [← machine_advance, nextByte_machine]
  exact d.advance.machine_combine op (d.byteAt d.pc)

theorem machine_rotation (op : Rotation) :
    (d.continuation (.rotate op) 0).machine = d.machine.rotate op.code := by
  rw [← machine_rotate]
  cases op <;> rfl

/-! ### Jumps, calls and returns -/

theorem get_machine (flag : Flag) : d.flags.get flag =
    match flag.index with
    | 0 => d.machine.carry
    | 1 => d.machine.zero
    | 2 => d.machine.sign
    | _ => d.machine.parity := by
  cases flag <;> rfl

/-- The condition in the first field of an opcode, for both. -/
theorem holds_machine (opcode : UInt8) : (Opcode.condition opcode).holds d.flags =
    d.machine.holds (opcode.toNat / 8 % 8) := by
  have hfirst := Opcode.toNat_first opcode
  have hflag : (Flag.ofField (Opcode.first opcode)).index = opcode.toNat / 8 % 8 % 4 := by
    rw [Flag.index_ofField, hfirst]
  have hsense : decide (4 ≤ Opcode.first opcode) = decide (4 ≤ opcode.toNat / 8 % 8) := by
    rw [← hfirst]
    rfl
  rw [Opcode.condition, Condition.holds, get_machine, hflag, hsense]
  rfl

theorem nextAddress_machine :
    d.machine.nextAddress = (addressOf (d.byteAt d.advance.pc) (d.byteAt d.pc)).toNat := by
  rw [Machine.nextAddress, ← machine_advance, nextByte_machine, nextByte_machine, toNat_addressOf]
  rfl

/-- The third machine cycle of a jump has an execute phase only if the jump is taken. -/
theorem machine_jump (c : Condition) : (d.continuation (.jump c) 0).machine =
    d.machine.jump (c.holds d.flags) := by
  have hcontinuation : d.continuation (.jump c) 0 =
      if c.holds d.flags then
        { d.advance.advance with
          tempB := d.byteAt d.pc
          tempA := d.byteAt d.advance.pc
          pc := addressOf (d.byteAt d.advance.pc) (d.byteAt d.pc) }
      else
        { d.advance.advance with
          tempB := d.byteAt d.pc
          tempA := d.byteAt d.advance.pc } := rfl
  rw [Machine.jump, nextAddress_machine, ← machine_advance, ← machine_advance, hcontinuation]
  cases c.holds d.flags <;> rfl

theorem Bounded.advance {d : Datapath} (h : d.Bounded) : d.advance.Bounded where
  pc_lt := by
    show ((d.pc + 1) % addressSpace).toNat < 16384
    rw [UInt16.toNat_mod]
    exact Nat.mod_lt _ (by decide)
  slots_lt := h.slots_lt

theorem machine_call (h : d.Bounded) (c : Condition) : (d.continuation (.call c) 0).machine =
    d.machine.call (c.holds d.flags) := by
  have hcontinuation : d.continuation (.call c) 0 =
      if c.holds d.flags then
        { d.advance.advance with
          tempB := d.byteAt d.pc
          tempA := d.byteAt d.advance.pc
          stack := d.stack.push d.advance.advance.pc
          pc := addressOf (d.byteAt d.advance.pc) (d.byteAt d.pc) }
      else
        { d.advance.advance with
          tempB := d.byteAt d.pc
          tempA := d.byteAt d.advance.pc } := rfl
  rw [Machine.call, nextAddress_machine, ← machine_advance, ← machine_advance,
    ← d.advance.advance.machine_push h.advance.advance, hcontinuation]
  cases c.holds d.flags <;> rfl

theorem machine_ret (h : d.Bounded) (c : Condition) : (d.continuation (.ret c) 0).machine =
    if c.holds d.flags then d.machine.pop else d.machine := by
  have hcontinuation : d.continuation (.ret c) 0 =
      if c.holds d.flags then
        { d with
          stack := d.stack.pop
          tempB := (d.stack.top % 256).toUInt8
          tempA := (d.stack.top / 256).toUInt8 % 64
          pc := addressOf ((d.stack.top / 256).toUInt8 % 64) (d.stack.top % 256).toUInt8 }
      else d := rfl
  -- the return address comes back in two halves, through the temporary registers
  have htop : addressOf ((d.stack.top / 256).toUInt8 % 64) (d.stack.top % 256).toUInt8 =
      d.stack.top := addressOf_halves (h.slots_lt _)
  rw [← machine_pop, hcontinuation, htop]
  cases c.holds d.flags <;> rfl

theorem toNat_restartAddress (vector : UInt8) :
    (vector.toUInt16 * 8).toNat = vector.toNat * 8 := by
  have hlt := vector.toNat_lt
  rw [UInt16.toNat_mul, UInt8.toNat_toUInt16]
  exact Nat.mod_eq_of_lt (show vector.toNat * 8 < 65536 by omega)

theorem machine_restart (h : d.Bounded) (vector : UInt8) :
    (d.continuation (.restart vector) 0).machine =
      { d.machine.push with pc := vector.toNat * 8 } := by
  rw [← machine_push d h, ← toNat_restartAddress]
  rfl

/-! ### Ports -/

theorem machine_input (port : UInt8) :
    (d.continuation (.input port) 0).machine = d.machine.readPort port.toNat := by
  rw [Machine.readPort]
  have hinput : d.machine.inputs[port.toNat]?.getD 0 = (d.inputs[port.toNat]?.getD 0).toNat :=
    getD_map_toNat d.inputs port.toNat
  rw [hinput]
  exact d.machine_write .A (d.inputs[port.toNat]?.getD 0)

theorem machine_output (port : UInt8) :
    (d.continuation (.output port) 0).machine = d.machine.writePort port.toNat := by
  have hlt := port.toNat_lt
  have hport : (Int32.ofInt port.toNat).toInt = port.toNat := by
    exact Int32.toInt_ofInt_of_le (by omega) (by omega)
  have hregister : d.machine.register 0 = (d.registers.read .A).toNat :=
    d.register_machine (r := .A) nofun
  have hcontinuation : d.continuation (.output port) 0 =
      { d with
        outputs := d.outputs.setIfInBounds (port.toNat - 8) (d.registers.read .A)
        written := d.written ++ [(.ofInt port.toNat, d.registers.read .A)] } := rfl
  rw [Machine.writePort, hregister, hcontinuation]
  simp only [machine, Vector.map_setIfInBounds, List.map_append, List.map_singleton, hport]

/-! ### The matrix of instructions -/

theorem index_ofField_of_lt {field : UInt8} (h : field.toNat < 8) :
    (Register.ofField field).index = field.toNat := by
  rw [Register.index_ofField, Nat.mod_eq_of_lt h]

theorem code_ofField_of_lt {field : UInt8} (h : field.toNat < 8) :
    (BinaryOp.ofField field).code = field.toNat := by
  rw [BinaryOp.code_ofField, Nat.mod_eq_of_lt h]

/-- Increments and decrements are for the registers between `A` and `M`. -/
theorem machine_counting {field : UInt8} (hlt : field.toNat < 8) {o : Operation} {m : Machine}
    (ho : Register.ofField field ≠ .M → (d.continuation o 0).machine = m) :
    (d.continuation (if field = 0 then .halt else if field = 7 then .undefined else o) 0).machine =
      if field.toNat = 0 ∨ field.toNat = 7 then d.machine else m := by
  by_cases hzero : field = 0
  · subst hzero
    rfl
  by_cases hseven : field = 7
  · subst hseven
    rfl
  have hzero' : field.toNat ≠ 0 := fun hz ↦ hzero (UInt8.toNat_inj.mp hz)
  have hseven' : field.toNat ≠ 7 := fun hs ↦ hseven (UInt8.toNat_inj.mp hs)
  have hregister : Register.ofField field ≠ .M := fun hM ↦ hseven' <| by
    rw [← index_ofField_of_lt hlt, hM]
    rfl
  rw [if_neg hzero, if_neg hseven, if_neg (not_or.mpr ⟨hzero', hseven'⟩), ho hregister]

/-- Four of the eight rotations exist. -/
theorem machine_rotating (field : UInt8) :
    (d.continuation (if field < 4 then .rotate (.ofField field) else .undefined) 0).machine =
      if field.toNat < 4 then d.machine.rotate field.toNat else d.machine := by
  have hlt : field < 4 ↔ field.toNat < 4 := Iff.rfl
  by_cases h : field.toNat < 4
  · rw [if_pos (hlt.mpr h), if_pos h, machine_rotation, Rotation.code_ofField, Nat.mod_eq_of_lt h]
  · rw [if_neg fun hfield ↦ h (hlt.mp hfield), if_neg h, machine_undefined]

/-- The first eight ports are inputs. -/
theorem machine_transfer (port : UInt8) :
    (d.continuation (if port < 8 then .input port else .output port) 0).machine =
      if port.toNat < 8 then d.machine.readPort port.toNat
      else d.machine.writePort port.toNat := by
  have hlt : port < 8 ↔ port.toNat < 8 := Iff.rfl
  by_cases h : port.toNat < 8
  · rw [if_pos (hlt.mpr h), if_pos h, machine_input]
  · rw [if_neg fun hport ↦ h (hlt.mp hport), if_neg h, machine_output]

theorem machine_group0 (h : d.Bounded) (opcode : UInt8) :
    (d.continuation (.ofGroup0 opcode) 0).machine = d.machine.execute0 opcode.toNat := by
  have hlt := Opcode.first_lt opcode
  have hregister := index_ofField_of_lt hlt
  have hop := code_ofField_of_lt hlt
  rw [Operation.ofGroup0, Machine.execute0, ← Opcode.toNat_first, ← Opcode.toNat_second]
  rcases mod_eight_cases opcode with hs | hs | hs | hs | hs | hs | hs | hs <;>
    rw [Opcode.second, hs]
  · have hincrement := d.machine_counting hlt fun hne ↦ d.machine_increment hne
    rw [hregister] at hincrement
    exact hincrement
  · have hdecrement := d.machine_counting hlt fun hne ↦ d.machine_decrement hne
    rw [hregister] at hdecrement
    exact hdecrement
  · exact d.machine_rotating _
  · show (d.continuation (.ret (Opcode.condition opcode)) 0).machine = _
    rw [machine_ret d h, holds_machine, ← Opcode.toNat_first]
    rfl
  · show (d.continuation (.aluImmediate (.ofField (Opcode.first opcode))) 0).machine = _
    rw [machine_aluImmediate, hop]
    rfl
  · exact d.machine_restart h (Opcode.first opcode)
  · show (d.continuation (.moveImmediate (.ofField (Opcode.first opcode))) 0).machine = _
    rw [machine_moveImmediate, hregister]
    rfl
  · exact d.machine_ret h .always

theorem machine_group1 (h : d.Bounded) (opcode : UInt8) :
    (d.continuation (.ofGroup1 opcode) 0).machine = d.machine.execute1 opcode.toNat := by
  have hholds := d.holds_machine opcode
  rw [← Opcode.toNat_first] at hholds
  rw [Operation.ofGroup1, Machine.execute1, ← Opcode.toNat_first, ← Opcode.toNat_second,
    ← Opcode.toNat_port]
  rcases mod_eight_cases opcode with hs | hs | hs | hs | hs | hs | hs | hs <;>
    rw [Opcode.second, hs]
  · show (d.continuation (.jump (Opcode.condition opcode)) 0).machine = _
    rw [machine_jump, hholds]
    rfl
  · exact d.machine_transfer (Opcode.port opcode)
  · show (d.continuation (.call (Opcode.condition opcode)) 0).machine = _
    rw [machine_call d h, hholds]
    rfl
  · exact d.machine_transfer (Opcode.port opcode)
  · exact d.machine_jump .always
  · exact d.machine_transfer (Opcode.port opcode)
  · exact d.machine_call h .always
  · exact d.machine_transfer (Opcode.port opcode)

/-- All opcodes: what the machine cycles do is what the reference machine executes. -/
theorem machine_continuation (h : d.Bounded) (opcode : UInt8) :
    (d.continuation (.ofOpcode opcode) 0).machine = d.machine.execute opcode.toNat := by
  have hdst := index_ofField_of_lt (Opcode.first_lt opcode)
  have hsrc := index_ofField_of_lt (Opcode.second_lt opcode)
  have hop := code_ofField_of_lt (Opcode.first_lt opcode)
  have hgroup := Opcode.toNat_group opcode
  have hcases : opcode / 64 = 0 ∨ opcode / 64 = 1 ∨ opcode / 64 = 2 ∨ opcode / 64 = 3 := by
    have hlt := opcode.toNat_lt
    simp only [← UInt8.toNat_inj, UInt8.toNat_div, UInt8.reduceToNat]
    omega
  rw [Operation.ofOpcode, Machine.execute, ← hgroup, ← Opcode.toNat_first, ← Opcode.toNat_second]
  rcases hcases with hs | hs | hs | hs <;> rw [Opcode.group, hs]
  · exact d.machine_group0 h opcode
  · exact d.machine_group1 h opcode
  · show (d.continuation (.alu (.ofField (Opcode.first opcode)) (.ofField (Opcode.second opcode)))
      0).machine = _
    rw [machine_alu, hop, hsrc]
    rfl
  · have hlast : opcode = 0xff ↔ opcode.toNat = 255 := UInt8.toNat_inj.symm
    show (d.continuation (if opcode = 0xff then .halt else
      .move (.ofField (Opcode.first opcode)) (.ofField (Opcode.second opcode))) 0).machine =
        if opcode.toNat = 255 then d.machine else d.machine.assign (Opcode.first opcode).toNat
          (d.machine.operand (Opcode.second opcode).toNat)
    by_cases h255 : opcode = 0xff
    · rw [if_pos h255, if_pos (hlast.mp h255), machine_halt]
    · -- with both fields at `M` this would be the last opcode
      have hne : ¬(Register.ofField (Opcode.first opcode) = .M ∧
          Register.ofField (Opcode.second opcode) = .M) := by
        rintro ⟨hfirst, hsecond⟩
        rw [hfirst, Opcode.toNat_first] at hdst
        rw [hsecond, Opcode.toNat_second] at hsrc
        have hM : Register.M.index = 7 := rfl
        have hthree : opcode.toNat / 64 = 3 := by
          rw [← hgroup, Opcode.group, hs]
          rfl
        exact h255 (hlast.mpr (by omega))
      rw [if_neg h255, if_neg (fun h' ↦ h255 (hlast.mpr h')), machine_move d hne, hdst, hsrc]

end Datapath

end Mcs8
