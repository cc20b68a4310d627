import Mcs8.Proofs.Execution.Datapath
import Mcs8.Proofs.Execution.Machine

/-!
# The datapath as a reference machine

`Datapath.machine` forgets the temporary registers and reads bytes and addresses as numbers. Each
thing that an instruction does to the datapath, from a write to a register to a pop of the return
stack, is then the one that the reference machine does.
-/

namespace Mcs8

namespace Datapath

/-- The datapath in numbers. -/
def machine (d : Datapath) : Machine where
  registers := d.registers.bytes.map UInt8.toNat
  carry := d.flags.carry
  zero := d.flags.zero
  sign := d.flags.sign
  parity := d.flags.parity
  pc := d.pc.toNat
  slots := d.stack.slots.map UInt16.toNat
  pointer := d.stack.pointer
  memory := d.memory.map UInt8.toNat
  inputs := d.inputs.map UInt8.toNat
  outputs := d.outputs.map UInt8.toNat
  written := d.written.map fun (port, value) ↦ (port.toInt, value.toNat)

/-- Addresses have 14 bits. -/
structure Bounded (d : Datapath) : Prop where
  pc_lt : d.pc.toNat < 16384
  slots_lt : ∀ i : Fin 8, d.stack.slots[i].toNat < 16384

variable (d : Datapath)

/-! ### Reading -/

theorem getD_map_toNat {n : Nat} (bytes : Vector UInt8 n) (i : Nat) :
    (bytes.map UInt8.toNat)[i]?.getD 0 = (bytes[i]?.getD 0).toNat := by
  by_cases h : i < n
  · simp [h]
  · simp [h]

theorem register_machine {r : Register} (h : r ≠ .M) :
    d.machine.register r.index = (d.registers.read r).toNat := by
  have hlt := Register.index_lt_seven h
  have hmod : r.index % 7 = r.index := Nat.mod_eq_of_lt hlt
  rw [Machine.register, machine, getD_map_toNat, Scratchpad.read, Scratchpad.select]
  simp [hlt, hmod]

theorem byteAt_machine (address : UInt16) :
    d.machine.byteAt address.toNat = (d.byteAt address).toNat :=
  getD_map_toNat d.memory address.toNat

theorem address_machine : d.machine.address = d.registers.pointer.toNat := by
  rw [Machine.address, Scratchpad.pointer, toNat_addressOf]
  exact congrArg₂ (fun high low ↦ high % 64 * 256 + low)
    (d.register_machine (r := .H) nofun) (d.register_machine (r := .L) nofun)

theorem nextByte_machine : d.machine.nextByte = (d.byteAt d.pc).toNat := d.byteAt_machine d.pc

/-! ### Writing -/

theorem machine_write (r : Register) (value : UInt8) :
    { d with registers := d.registers.write r value }.machine =
      d.machine.setRegister r.index value.toNat := by
  simp only [machine, Machine.setRegister, Scratchpad.write, Vector.map_setIfInBounds]

theorem machine_writeMemory (value : UInt8) :
    { d with memory := d.memory.setIfInBounds d.registers.pointer.toNat value }.machine =
      d.machine.assign 7 value.toNat := by
  rw [Machine.assign, if_pos rfl, address_machine]
  simp only [machine, Vector.map_setIfInBounds]

theorem machine_advance : d.advance.machine = d.machine.advance := by
  have hpc : ((d.pc + 1) % addressSpace).toNat = (d.pc.toNat + 1) % 16384 := by
    have hadd : (d.pc + 1).toNat = (d.pc.toNat + 1) % 65536 := UInt16.toNat_add d.pc 1
    rw [UInt16.toNat_mod, hadd]
    exact Nat.mod_mod_of_dvd _ (by decide)
  simp only [machine, advance, Machine.advance, hpc]

theorem machine_push (h : d.Bounded) :
    { d with stack := d.stack.push d.pc }.machine = d.machine.push := by
  have haddress : (d.pc % addressSpace).toNat = d.pc.toNat := by
    rw [UInt16.toNat_mod]
    exact Nat.mod_eq_of_lt h.pc_lt
  have hpointer : ((d.stack.pointer + 1 : Fin 8) : Nat) = (d.stack.pointer + 1 : Nat) % 8 :=
    Fin.val_add d.stack.pointer 1
  have hset : d.stack.slots.set d.stack.pointer (d.pc % addressSpace) =
      d.stack.slots.setIfInBounds d.stack.pointer (d.pc % addressSpace) := by
    ext i hi
    rw [Vector.getElem_set, Vector.getElem_setIfInBounds]
  simp only [machine, ReturnStack.push, Machine.push, hset, Vector.map_setIfInBounds, haddress,
    hpointer]

theorem machine_pop : { d with stack := d.stack.pop, pc := d.stack.top }.machine =
    d.machine.pop := by
  have hpointer : ((d.stack.pointer - 1 : Fin 8) : Nat) = (d.stack.pointer + 7 : Nat) % 8 := by
    rw [Fin.sub_def]
    exact congrArg (· % 8) (Nat.add_comm _ _)
  have htop : d.stack.top.toNat =
      (d.stack.slots.map UInt16.toNat)[(d.stack.pointer + 7 : Nat) % 8]?.getD 0 := by
    have hlt : (d.stack.pointer + 7 : Nat) % 8 < 8 := Nat.mod_lt _ (by decide)
    rw [Vector.getElem?_eq_getElem hlt, Vector.getElem_map, ReturnStack.top]
    simp only [Fin.getElem_fin, hpointer, Option.getD_some]
  simp only [machine, ReturnStack.pop, Machine.pop, htop, hpointer]

/-- The halves that a return brings back make up the address that was kept. -/
theorem addressOf_halves {address : UInt16} (h : address.toNat < 16384) :
    addressOf ((address / 256).toUInt8 % 64) (address % 256).toUInt8 = address := by
  rw [← UInt16.toNat_inj, toNat_addressOf]
  simp
  omega

end Datapath

end Mcs8
