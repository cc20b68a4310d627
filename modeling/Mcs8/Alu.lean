import Mcs8.Adder
import Mcs8.Code

/-!
# The arithmetic-logic unit

Eight operations combine the accumulator with an operand byte; additions and subtractions go
through the lookahead adder, a subtraction by adding the complement. The carry flag then holds the
borrow, the complement of the adder's carry. Increments and decrements use the same adder and leave
the carry flag alone. Rotations move the accumulator and the carry flag and touch no other flag.
-/

namespace Mcs8

/-- The output of an operation. -/
structure AluOutput where
  value : UInt8
  /-- The flags after the operation. -/
  flags : Flags
  /-- The byte goes to the destination. -/
  isStored : Bool := true
  deriving DecidableEq

/-- The output of an operation that gives the byte `sum` and the carry flag `carry`; the other flags
describe the byte. -/
def AluOutput.ofSum (sum : UInt8) (carry : Bool) : AluOutput where
  value := sum
  flags := .ofResult sum carry

/-- An operation of the accumulator with an operand, in the order of the three-bit operation
field. -/
inductive BinaryOp where
  | add
  | addCarry
  | sub
  | subBorrow
  | and
  | xor
  | or
  | compare
  deriving DecidableEq

namespace BinaryOp

/-- All operations in the order of their codes. -/
def all : List BinaryOp := [add, addCarry, sub, subBorrow, and, xor, or, compare]

/-- The operation with the given code. -/
def ofCode? (code : Int) : Option BinaryOp := Code.value? all code

/-- The operation in the low three bits of a field. -/
def ofField (field : UInt8) : BinaryOp :=
  match field % 8 with
  | 0 => add
  | 1 => addCarry
  | 2 => sub
  | 3 => subBorrow
  | 4 => and
  | 5 => xor
  | 6 => or
  | _ => compare

/-- The mnemonic of the operation with a register operand. -/
def mnemonic : BinaryOp → String
  | add => "ADD"
  | addCarry => "ADC"
  | sub => "SUB"
  | subBorrow => "SBB"
  | and => "ANA"
  | xor => "XRA"
  | or => "ORA"
  | compare => "CMP"

/-- The mnemonic of the operation with an immediate operand. -/
def immediateMnemonic : BinaryOp → String
  | add => "ADI"
  | addCarry => "ACI"
  | sub => "SUI"
  | subBorrow => "SBI"
  | and => "ANI"
  | xor => "XRI"
  | or => "ORI"
  | compare => "CPI"

end BinaryOp

namespace Alu

/-- Add the operand and a carry. -/
def sum (accumulator operand : UInt8) (carry : Bool) : AluOutput :=
  let r := Adder.add accumulator operand carry
  .ofSum r.sum r.carry

/-- Subtract the operand and a borrow, by adding the complement and the complemented borrow. -/
def difference (accumulator operand : UInt8) (borrow : Bool) : AluOutput :=
  let r := Adder.add accumulator (~~~operand) (!borrow)
  .ofSum r.sum !r.carry

/-- The output of an operation. A comparison gives the flags of the difference and stores nothing;
the logical operations clear the carry. -/
def apply (op : BinaryOp) (accumulator operand : UInt8) (flags : Flags) : AluOutput :=
  match op with
  | .add => sum accumulator operand false
  | .addCarry => sum accumulator operand flags.carry
  | .sub => difference accumulator operand false
  | .subBorrow => difference accumulator operand flags.carry
  | .and => .ofSum (accumulator &&& operand) false
  | .xor => .ofSum (accumulator ^^^ operand) false
  | .or => .ofSum (accumulator ||| operand) false
  | .compare => { difference accumulator operand false with isStored := false }

/-- The output of the operation with a given code. A code that names no operation leaves
accumulator and flags as they are and stores nothing. -/
def applyCode (code : Int) (accumulator operand : UInt8) (flags : Flags) : AluOutput :=
  match BinaryOp.ofCode? code with
  | some op => apply op accumulator operand flags
  | none => ⟨accumulator, flags, false⟩

/-- One more, modulo 256, with the carry flag kept. -/
def increment (value : UInt8) (flags : Flags) : AluOutput :=
  .ofSum (Adder.add value 1 false).sum flags.carry

/-- One less, modulo 256, with the carry flag kept. -/
def decrement (value : UInt8) (flags : Flags) : AluOutput :=
  .ofSum (Adder.add value 0xff false).sum flags.carry

end Alu

/-! ### Rotations -/

/-- A rotation of the accumulator, in the order of the two-bit rotation field. -/
inductive Rotation where
  | left
  | right
  | leftThroughCarry
  | rightThroughCarry
  deriving DecidableEq

namespace Rotation

/-- All rotations in the order of their codes. -/
def all : List Rotation := [left, right, leftThroughCarry, rightThroughCarry]

/-- The rotation with the given code. -/
def ofCode? (code : Int) : Option Rotation := Code.value? all code

/-- The rotation in the low two bits of a field. -/
def ofField (field : UInt8) : Rotation :=
  match field % 4 with
  | 0 => left
  | 1 => right
  | 2 => leftThroughCarry
  | _ => rightThroughCarry

/-- The mnemonic of the rotation. -/
def mnemonic : Rotation → String
  | left => "RLC"
  | right => "RRC"
  | leftThroughCarry => "RAL"
  | rightThroughCarry => "RAR"

end Rotation

namespace Alu

/-- Shift a byte one place to the left and fill the lowest bit. -/
def shiftLeft (value : UInt8) (low : Bool) : UInt8 := value * 2 + if low then 1 else 0

/-- Shift a byte one place to the right and fill the highest bit. -/
def shiftRight (value : UInt8) (high : Bool) : UInt8 := value / 2 + if high then 0x80 else 0

/-- The highest bit of a byte. -/
def topBit (value : UInt8) : Bool := 0x80 ≤ value

/-- The lowest bit of a byte. -/
def bottomBit (value : UInt8) : Bool := value % 2 == 1

/-- Rotate the accumulator. The bit that leaves the byte goes into the carry flag, and the bit
that enters is the one that left, or the old carry in a rotation through it. -/
def rotate (op : Rotation) (accumulator : UInt8) (flags : Flags) : AluOutput :=
  let top := topBit accumulator
  let bottom := bottomBit accumulator
  match op with
  | .left => { value := shiftLeft accumulator top, flags := { flags with carry := top } }
  | .right => { value := shiftRight accumulator bottom, flags := { flags with carry := bottom } }
  | .leftThroughCarry =>
    { value := shiftLeft accumulator flags.carry, flags := { flags with carry := top } }
  | .rightThroughCarry =>
    { value := shiftRight accumulator flags.carry, flags := { flags with carry := bottom } }

/-- The output of the rotation with a given code. A code that names no rotation leaves value and
flags as they are. -/
def rotateCode (code : Int) (accumulator : UInt8) (flags : Flags) : AluOutput :=
  match Rotation.ofCode? code with
  | some op => rotate op accumulator flags
  | none => { value := accumulator, flags }

end Alu

end Mcs8
