import Mathlib
import Mcs8.Board

/-!
# The reference machine

The instruction set as a manual tells it. Registers, addresses and memory are numbers, the opcode is
looked up by its three fields in the matrix of instructions, and one function executes an
instruction as a whole. Nothing here knows of clock states, of the bus or of temporary registers;
the only thing left of interrupts is that the program counter may stay on the opcode.
-/

namespace Mcs8

/-- What a program can see: the state between two instructions. -/
structure Machine where
  /-- The registers in the order `A B C D E H L`. -/
  registers : Vector Nat 7
  carry : Bool
  zero : Bool
  sign : Bool
  parity : Bool
  pc : Nat
  /-- The return addresses. -/
  slots : Vector Nat 8
  /-- The slot that the next return address goes to. -/
  pointer : Nat
  memory : Vector Nat memoryCapacity
  inputs : Vector Nat 8
  /-- The output ports from number 8 on. -/
  outputs : Vector Nat 24
  /-- Every byte written to an output port, with the number of the port, the oldest first. -/
  written : List (Int × Nat)

namespace Machine

variable (m : Machine)

/-! ### Registers and memory -/

/-- The number in a register. -/
def register (r : Nat) : Nat := m.registers[r]?.getD 0

/-- Put a number into a register. -/
def setRegister (r value : Nat) : Machine :=
  { m with registers := m.registers.setIfInBounds r value }

/-- The byte at an address. -/
def byteAt (address : Nat) : Nat := m.memory[address]?.getD 0

/-- The address in `H` and `L`. -/
def address : Nat := m.register 5 % 64 * 256 + m.register 6

/-- The operand with a register code, where 7 stands for the memory byte at the address in `H` and
`L`. -/
def operand (code : Nat) : Nat := if code = 7 then m.byteAt m.address else m.register code

/-- Put a byte where a register code says. -/
def assign (code value : Nat) : Machine :=
  if code = 7 then { m with memory := m.memory.setIfInBounds m.address value }
  else m.setRegister code value

/-! ### The program counter and the return addresses -/

/-- The byte at the program counter. -/
def nextByte : Nat := m.byteAt m.pc

/-- Move the program counter on by one byte. -/
def advance : Machine := { m with pc := (m.pc + 1) % 16384 }

/-- The address in the two bytes at the program counter, low byte first. -/
def nextAddress : Nat := m.advance.nextByte % 64 * 256 + m.nextByte

/-- Keep the program counter as a return address. -/
def push : Machine :=
  { m with
    slots := m.slots.setIfInBounds m.pointer m.pc
    pointer := (m.pointer + 1) % 8 }

/-- Go back to the last return address. -/
def pop : Machine :=
  { m with
    pc := m.slots[(m.pointer + 7) % 8]?.getD 0
    pointer := (m.pointer + 7) % 8 }

/-- Take the address that follows, and go there if the jump is taken. -/
def jump (taken : Bool) : Machine :=
  if taken then { m with pc := m.nextAddress } else m.advance.advance

/-- Take the address that follows, and go there if the call is taken, with the address behind it as
the return address. -/
def call (taken : Bool) : Machine :=
  if taken then { m.advance.advance.push with pc := m.nextAddress } else m.advance.advance

/-! ### Arithmetic -/

/-- Set the flags for a result. -/
def setFlags (result : Nat) (carry : Bool) : Machine :=
  { m with
    carry
    zero := result = 0
    sign := 128 ≤ result
    parity := (List.range 8).countP (fun i ↦ result / 2 ^ i % 2 = 1) % 2 = 0 }

/-- The result and the carry of an operation. A subtraction carries when it has to borrow. -/
def result (op accumulator operand : Nat) (carry : Bool) : Nat × Bool :=
  match op with
  | 0 => ((accumulator + operand) % 256, 256 ≤ accumulator + operand)
  | 1 => ((accumulator + operand + carry.toNat) % 256, 256 ≤ accumulator + operand + carry.toNat)
  | 3 => ((accumulator + 256 - (operand + carry.toNat)) % 256,
      accumulator < operand + carry.toNat)
  | 4 => (accumulator &&& operand, false)
  | 5 => (accumulator ^^^ operand, false)
  | 6 => (accumulator ||| operand, false)
  | _ => ((accumulator + 256 - operand) % 256, accumulator < operand)

/-- Combine the accumulator with an operand. A comparison, operation 7, only sets the flags. -/
def combine (op operand : Nat) : Machine :=
  let (value, carry) := result op (m.register 0) operand m.carry
  if op = 7 then m.setFlags value carry else (m.setFlags value carry).setRegister 0 value

/-- Put a number into a register and let the flags but the carry tell about it. -/
def setWithFlags (r value : Nat) : Machine := (m.setFlags value m.carry).setRegister r value

/-- Rotate the accumulator to the left or to the right, by itself or through the carry. -/
def rotate (op : Nat) : Machine :=
  let accumulator := m.register 0
  match op with
  | 0 => { m.setRegister 0 (accumulator * 2 % 256 + accumulator / 128) with
      carry := 128 ≤ accumulator }
  | 1 => { m.setRegister 0 (accumulator / 2 + accumulator % 2 * 128) with
      carry := accumulator % 2 = 1 }
  | 2 => { m.setRegister 0 (accumulator * 2 % 256 + m.carry.toNat) with
      carry := 128 ≤ accumulator }
  | _ => { m.setRegister 0 (accumulator / 2 + m.carry.toNat * 128) with
      carry := accumulator % 2 = 1 }

/-- Whether a condition holds: the low two bits choose a flag, the third is its value. -/
def holds (condition : Nat) : Bool :=
  let flag :=
    match condition % 4 with
    | 0 => m.carry
    | 1 => m.zero
    | 2 => m.sign
    | _ => m.parity
  flag == (4 ≤ condition : Bool)

/-! ### Ports -/

/-- Read an input port into the accumulator. -/
def readPort (port : Nat) : Machine := m.setRegister 0 (m.inputs[port]?.getD 0)

/-- Write the accumulator to an output port. -/
def writePort (port : Nat) : Machine :=
  { m with
    outputs := m.outputs.setIfInBounds (port - 8) (m.register 0)
    written := m.written ++ [((port : Int), m.register 0)] }

/-! ### The matrix of instructions -/

/-- The instructions of class 0, with the program counter behind the opcode. -/
def execute0 (opcode : Nat) : Machine :=
  let field := opcode / 8 % 8
  match opcode % 8 with
  | 0 => if field = 0 ∨ field = 7 then m else m.setWithFlags field ((m.register field + 1) % 256)
  | 1 => if field = 0 ∨ field = 7 then m else m.setWithFlags field ((m.register field + 255) % 256)
  | 2 => if field < 4 then m.rotate field else m
  | 3 => if m.holds field then m.pop else m
  | 4 => m.advance.combine field m.nextByte
  | 5 => { m.push with pc := field * 8 }
  | 6 => m.advance.assign field m.nextByte
  | _ => m.pop

/-- The instructions of class 1, with the program counter behind the opcode. -/
def execute1 (opcode : Nat) : Machine :=
  let field := opcode / 8 % 8
  let port := opcode / 2 % 32
  match opcode % 8 with
  | 0 => m.jump (m.holds field)
  | 2 => m.call (m.holds field)
  | 4 => m.jump true
  | 6 => m.call true
  | _ => if port < 8 then m.readPort port else m.writePort port

/-- Execute an instruction with the program counter behind the opcode. -/
def execute (opcode : Nat) : Machine :=
  let field := opcode / 8 % 8
  match opcode / 64 with
  | 0 => m.execute0 opcode
  | 1 => m.execute1 opcode
  | 2 => m.combine field (m.operand (opcode % 8))
  | _ => if opcode = 255 then m else m.assign field (m.operand (opcode % 8))

/-- Execute the instruction in memory at the program counter. -/
def step : Machine := m.advance.execute m.nextByte

/-- Execute an instruction whose opcode does not come from memory. -/
def interrupt (opcode : Nat) : Machine := m.execute opcode

end Machine

end Mcs8
