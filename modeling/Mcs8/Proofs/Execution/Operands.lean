import Mcs8.Proofs.Execution.Refinement
import Mcs8.Proofs.Processor.Reachable

/-!
# Operations and their operands

The matrix of instructions tells from the opcode what an instruction does, and a disassembly shows
an operation with an operand. `Machine.obey` does what such a pair says, with nothing looked up in
memory but what the operation works on, and the machine cycles do the same (`machine_instruction`).
In particular the program counter goes where the pair says (`pc_instruction`).
-/

namespace Mcs8

namespace Operation

/-- Whether the operation takes the program counter to a target of its own. -/
def leaves (o : Operation) (flags : Flags) : Bool :=
  match o with
  | jump condition | call condition | ret condition => condition.holds flags
  | restart _ => true
  | _ => false

/-- Where it takes the program counter then: back to the last return address, to eight times the
vector, or to the operand. -/
def target (o : Operation) (operand top : UInt16) : UInt16 :=
  match o with
  | ret _ => top
  | restart vector => vector.toUInt16 * 8
  | _ => operand

end Operation

namespace Machine

variable (m : Machine)

/-- The four flags together. -/
def flags : Flags where
  carry := m.carry
  zero := m.zero
  sign := m.sign
  parity := m.parity

/-- Move the program counter on by some bytes. -/
def pass (n : Nat) : Machine := { m with pc := (m.pc + n) % 16384 }

/-- Do an operation with an operand, with the program counter on the opcode. -/
def obey (o : Operation) (operand : Nat) : Machine :=
  let next := m.pass o.length
  match o with
  | .halt | .undefined => next
  | .move dst src => next.assign dst.index (next.operand src.index)
  | .moveImmediate dst => next.assign dst.index operand
  | .increment reg => next.setWithFlags reg.index ((next.register reg.index + 1) % 256)
  | .decrement reg => next.setWithFlags reg.index ((next.register reg.index + 255) % 256)
  | .alu op src => next.combine op.code (next.operand src.index)
  | .aluImmediate op => next.combine op.code operand
  | .rotate op => next.rotate op.code
  | .jump condition => if condition.holds m.flags then { next with pc := operand } else next
  | .call condition => if condition.holds m.flags then { next.push with pc := operand } else next
  | .ret condition => if condition.holds m.flags then next.pop else next
  | .restart vector => { next.push with pc := vector.toNat * 8 }
  | .input port => next.readPort port.toNat
  | .output port => next.writePort port.toNat

theorem advance_pass (n : Nat) : (m.pass n).advance = m.pass (n + 1) := by
  simp only [pass, advance, Nat.mod_add_mod, Nat.add_assoc]

/-! ### The program counter -/

theorem pc_assign (code value : Nat) : (m.assign code value).pc = m.pc := by
  rw [assign]
  split <;> rfl

theorem pc_combine (op operand : Nat) : (m.combine op operand).pc = m.pc := by
  simp only [combine]
  split <;> rfl

theorem pc_rotate (op : Nat) : (m.rotate op).pc = m.pc := by
  unfold rotate
  split <;> rfl

theorem pc_obey (o : Operation) (operand : Nat) : (m.obey o operand).pc =
    if o.leaves m.flags then
      match o with
      | .ret _ => m.pop.pc
      | .restart vector => vector.toNat * 8
      | _ => operand
    else (m.pass o.length).pc := by
  cases o with
  | move | moveImmediate => exact pc_assign _ _ _
  | alu | aluImmediate => exact pc_combine _ _ _
  | rotate => exact pc_rotate _ _
  | jump | call | ret =>
    rw [obey, Operation.leaves]
    split <;> rfl
  | _ => rfl

end Machine

namespace Datapath

variable (d : Datapath)

/-- The operand of an operation whose opcode is at the program counter. -/
def operand (o : Operation) : UInt16 :=
  match o.length with
  | 2 => (d.byteAt d.advance.pc).toUInt16
  | 3 => addressOf (d.byteAt d.advance.advance.pc) (d.byteAt d.advance.pc)
  | _ => 0

/-- Below the last address the program counter moves on by one. -/
theorem toNat_advance (h : d.pc.toNat + 1 < 16384) : d.advance.pc.toNat = d.pc.toNat + 1 := by
  have hpc : d.advance.pc.toNat = (d.pc.toNat + 1) % 16384 := congrArg Machine.pc d.machine_advance
  rw [hpc, Nat.mod_eq_of_lt h]

/-- In an instruction that fits into memory the operand is in the bytes after the opcode. -/
theorem operand_ofOpcode {opcode : UInt8}
    (h : d.pc.toNat + (Operation.ofOpcode opcode).length ≤ 16384) : d.operand (.ofOpcode opcode) =
      (Instruction.decode opcode (d.memory[d.pc.toNat + 1]?.getD 0)
        (d.memory[d.pc.toNat + 2]?.getD 0)).operand := by
  have hinstruction : Instruction.decode opcode (d.byteAt d.advance.pc)
      (d.byteAt d.advance.advance.pc) = .decode opcode (d.memory[d.pc.toNat + 1]?.getD 0)
        (d.memory[d.pc.toNat + 2]?.getD 0) := by
    refine Instruction.decode_congr (fun hle ↦ ?_) fun hle ↦ ?_
    · rw [byteAt, d.toNat_advance (by omega)]
    · have hnext := d.toNat_advance (by omega)
      rw [byteAt, d.advance.toNat_advance (by omega), hnext]
  exact congrArg Instruction.operand hinstruction

/-! ### What the machine cycles do -/

theorem machine_advance_eq_pass : d.advance.machine = d.machine.pass 1 := d.machine_advance

theorem nextByte_pass :
    (d.machine.pass 1).nextByte = (d.byteAt d.advance.pc).toUInt16.toNat := by
  rw [← machine_advance_eq_pass, nextByte_machine, UInt8.toNat_toUInt16]
  rfl

theorem nextAddress_pass : (d.machine.pass 1).nextAddress =
    (addressOf (d.byteAt d.advance.advance.pc) (d.byteAt d.advance.pc)).toNat := by
  rw [← machine_advance_eq_pass, nextAddress_machine]
  rfl

/-- The machine cycles do what the operation and its operand say. -/
theorem machine_instruction (h : d.Bounded) {o : Operation}
    (ho : o ∉ [.increment .M, .decrement .M, .move .M .M]) :
    (d.instruction o false).machine = d.machine.obey o (d.operand o).toNat := by
  have hstart : d.instruction o false = d.advance.continuation o 0 := rfl
  have hadvance := d.machine_advance_eq_pass
  have htwo : (d.machine.pass 1).advance = d.machine.pass 2 := d.machine.advance_pass 1
  have hthree : (d.machine.pass 2).advance = d.machine.pass 3 := d.machine.advance_pass 2
  rw [hstart]
  -- each kind of operation in turn; the bytes after the opcode are its operand
  cases o with
  | halt => exact d.advance.machine_halt.trans hadvance
  | undefined => exact d.advance.machine_undefined.trans hadvance
  | move dst src =>
    rw [machine_move _ (by rintro ⟨rfl, rfl⟩; simp at ho), hadvance]
    rfl
  | moveImmediate dst =>
    rw [machine_moveImmediate, hadvance, nextByte_pass, htwo]
    rfl
  | increment reg =>
    rw [machine_increment _ (by rintro rfl; simp at ho), hadvance]
    rfl
  | decrement reg =>
    rw [machine_decrement _ (by rintro rfl; simp at ho), hadvance]
    rfl
  | alu op src =>
    rw [machine_alu, hadvance]
    rfl
  | aluImmediate op =>
    rw [machine_aluImmediate, hadvance, nextByte_pass, htwo]
    rfl
  | rotate op =>
    rw [machine_rotation, hadvance]
    rfl
  | jump condition =>
    rw [machine_jump, hadvance, Machine.jump, nextAddress_pass, htwo, hthree]
    rfl
  | call condition =>
    rw [machine_call _ h.advance, hadvance, Machine.call, nextAddress_pass, htwo, hthree]
    rfl
  | ret condition =>
    rw [machine_ret _ h.advance, hadvance]
    rfl
  | restart vector =>
    rw [machine_restart _ h.advance, hadvance]
    rfl
  | input port =>
    rw [machine_input, hadvance]
    rfl
  | output port =>
    rw [machine_output, hadvance]
    rfl

/-- The program counter goes to the target of the operation, or on behind the instruction. -/
theorem pc_instruction (h : d.Bounded) {o : Operation}
    (ho : o ∉ [.increment .M, .decrement .M, .move .M .M]) :
    (d.instruction o false).pc =
      if o.leaves d.flags then o.target (d.operand o) d.stack.top
      else (d.pc + .ofNat o.length) % addressSpace := by
  have hpc : (d.instruction o false).pc.toNat = (d.machine.obey o (d.operand o).toNat).pc :=
    congrArg Machine.pc (d.machine_instruction h ho)
  have hflags : d.machine.flags = d.flags := rfl
  have htop : d.machine.pop.pc = d.stack.top.toNat := (congrArg Machine.pc d.machine_pop).symm
  have hnext : (d.machine.pass o.length).pc =
      ((d.pc + .ofNat o.length) % addressSpace).toNat := by
    have hspace : addressSpace.toNat = 16384 := rfl
    have hmachine : d.machine.pc = d.pc.toNat := rfl
    rw [UInt16.toNat_mod, UInt16.toNat_add, UInt16.toNat_ofNat', hspace, ← hmachine]
    show (d.machine.pc + o.length) % 16384 = _
    omega
  rw [← UInt16.toNat_inj, hpc, Machine.pc_obey, hflags, hnext, htop]
  split
  · cases o with
    | restart vector => exact (toNat_restartAddress vector).symm
    | _ => rfl
  · rfl

end Datapath

end Mcs8
