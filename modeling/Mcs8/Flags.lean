/-!
# Condition flags

The processor has four condition flags, and every arithmetic or logical result sets them in one
way: zero, sign and parity describe the result byte, and the carry is supplied by the operation.
As a number the flags take one bit each, carry lowest, which is also the order of the two-bit flag
field in conditional instructions.
-/

namespace Mcs8

/-- A condition flag, listed in the order of the two-bit flag field. -/
inductive Flag where
  | carry
  | zero
  | sign
  | parity
  deriving DecidableEq

namespace Flag

/-- The flag selected by the low two bits of a field. -/
def ofField (field : UInt8) : Flag :=
  match field % 4 with
  | 0 => carry
  | 1 => zero
  | 2 => sign
  | _ => parity

/-- The number of the flag in the flag field. -/
def index : Flag → Nat
  | carry => 0
  | zero => 1
  | sign => 2
  | parity => 3

@[simp] theorem ofField_index (f : Flag) : ofField (UInt8.ofNat f.index) = f := by
  cases f <;> rfl

end Flag

/-- The four condition flags. -/
structure Flags where
  /-- Carry out of an addition, or borrow of a subtraction. -/
  carry : Bool := false
  /-- The result was zero. -/
  zero : Bool := false
  /-- Bit 7 of the result was set. -/
  sign : Bool := false
  /-- The result had an even number of ones. -/
  parity : Bool := false
  deriving DecidableEq

namespace Flags

/-- The value of one flag. -/
def get (f : Flags) : Flag → Bool
  | .carry => f.carry
  | .zero => f.zero
  | .sign => f.sign
  | .parity => f.parity

/-- The flags held in the low four bits of a byte; the high four bits are ignored. -/
def ofByte (value : UInt8) : Flags where
  carry := value.toNat.testBit 0
  zero := value.toNat.testBit 1
  sign := value.toNat.testBit 2
  parity := value.toNat.testBit 3

/-- The flags as a number below 16, carry in the lowest bit. -/
def toByte (f : Flags) : UInt8 :=
  (if f.carry then 1 else 0) + (if f.zero then 2 else 0) + (if f.sign then 4 else 0) +
    (if f.parity then 8 else 0)

@[simp] theorem ofByte_toByte (f : Flags) : ofByte f.toByte = f := by
  obtain ⟨c, z, s, p⟩ := f
  cases c <;> cases z <;> cases s <;> cases p <;> rfl

theorem toByte_lt (f : Flags) : f.toByte < 16 := by
  obtain ⟨c, z, s, p⟩ := f
  cases c <;> cases z <;> cases s <;> cases p <;> decide

/-- Whether a byte has an even number of ones, found by folding its halves onto each other. -/
def hasEvenParity (value : UInt8) : Bool :=
  let nibbles := value ^^^ (value >>> 4)
  let pairs := nibbles ^^^ (nibbles >>> 2)
  let bits := pairs ^^^ (pairs >>> 1)
  bits % 2 == 0

/-- The flags that describe a result byte, with the carry given by the operation. -/
def ofResult (value : UInt8) (carry : Bool) : Flags where
  carry := carry
  zero := value == 0
  sign := 0x80 ≤ value
  parity := hasEvenParity value

@[simp] theorem carry_ofResult (value : UInt8) (c : Bool) : (ofResult value c).carry = c := rfl

end Flags

end Mcs8
