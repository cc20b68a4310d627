import Mcs8.Instruction

/-!
# Decoding

An opcode is read as three fields of two, three and three bits: a group, a first and a second
register field. Bits that a group does not look at may have any value, so that returns, jumps and
calls have several encodings.
-/

namespace Mcs8

namespace Opcode

variable (opcode : UInt8)

/-- The top two bits. -/
def group : UInt8 := opcode / 64

/-- Bits 5 to 3: the destination, the operation or the condition. -/
def first : UInt8 := opcode / 8 % 8

/-- Bits 2 to 0: the source, or the kind of operation within a group. -/
def second : UInt8 := opcode % 8

/-- The condition in the first field: two bits for the flag, below one bit for its value. -/
def condition : Condition := .when (.ofField (first opcode)) (4 ≤ first opcode)

/-- The port in bits 5 to 1. -/
def port : UInt8 := opcode / 2 % 32

end Opcode

namespace Operation

open Opcode

/-- The operations on one register, the returns, restarts and immediate operations. -/
def ofGroup0 (opcode : UInt8) : Operation :=
  let field := first opcode
  match second opcode with
  | 0 => if field = 0 then halt else if field = 7 then undefined else increment (.ofField field)
  | 1 => if field = 0 then halt else if field = 7 then undefined else decrement (.ofField field)
  | 2 => if field < 4 then rotate (.ofField field) else undefined
  | 3 => ret (Opcode.condition opcode)
  | 4 => aluImmediate (.ofField field)
  | 5 => restart field
  | 6 => moveImmediate (.ofField field)
  | _ => ret .always

/-- The jumps, the calls, and the input and output operations. -/
def ofGroup1 (opcode : UInt8) : Operation :=
  match second opcode with
  | 0 => jump (Opcode.condition opcode)
  | 2 => call (Opcode.condition opcode)
  | 4 => jump .always
  | 6 => call .always
  | _ => if Opcode.port opcode < 8 then input (Opcode.port opcode) else output (Opcode.port opcode)

/-- The operation that an opcode names. The move from memory to memory does not exist; its
opcode halts. -/
def ofOpcode (opcode : UInt8) : Operation :=
  match group opcode with
  | 0 => ofGroup0 opcode
  | 1 => ofGroup1 opcode
  | 2 => alu (.ofField (first opcode)) (.ofField (second opcode))
  | _ => if opcode = 0xff then halt else move (.ofField (first opcode)) (.ofField (second opcode))

end Operation

/-- Decode an opcode. -/
def decode (opcode : UInt8) : Descriptor where
  opcode := opcode
  operation := .ofOpcode opcode

/-- Decode the opcode `first` followed by two more bytes, as many of which make the operand as the
instruction is long. The top two bits of an address are ignored. -/
def Instruction.decode (first second third : UInt8) : Instruction where
  toDescriptor := Mcs8.decode first
  operand :=
    match (Mcs8.decode first).operation.length with
    | 2 => second.toUInt16
    | 3 => addressOf third second
    | _ => 0

@[simp] theorem opcode_decode (opcode : UInt8) : (decode opcode).opcode = opcode := rfl

/-- An instruction does not depend on the bytes that come after it. -/
theorem Instruction.decode_congr {opcode second second' third third' : UInt8}
    (hsecond : 2 ≤ (Operation.ofOpcode opcode).length → second = second')
    (hthird : 3 ≤ (Operation.ofOpcode opcode).length → third = third') :
    decode opcode second third = decode opcode second' third' := by
  have hoperation : (Mcs8.decode opcode).operation = .ofOpcode opcode := rfl
  simp only [decode, mk.injEq, true_and, hoperation]
  split
  next htwo => rw [hsecond (by omega)]
  next hthree => rw [hsecond (by omega), hthird (by omega)]
  next => rfl

theorem operand_lt (first second third : UInt8) :
    (Instruction.decode first second third).operand.toNat < 16384 := by
  simp only [Instruction.decode]
  split
  · have := second.toNat_lt
    simp
    omega
  · exact addressOf_lt _ _
  · decide

end Mcs8
