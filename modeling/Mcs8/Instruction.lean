import Mcs8.Alu
import Mcs8.Scratchpad

/-!
# Instructions

An opcode names an operation, and the operation holds the fields that it needs: registers, an
arithmetic operation, a condition, a restart vector or a port. What is usually read off an opcode
table (length, mnemonic, use of the bus) is a function of the operation. A field that an operation
does not have reads as the first value of its kind.
-/

namespace Mcs8

/-- When a jump, call or return is taken. -/
inductive Condition where
  /-- Always. -/
  | always
  /-- When the flag has the value `sense`. -/
  | when (flag : Flag) (sense : Bool)
  deriving DecidableEq

namespace Condition

/-- Whether the condition holds of the flags. -/
def holds (c : Condition) (flags : Flags) : Bool :=
  match c with
  | always => true
  | when flag sense => flags.get flag == sense

/-- Whether the condition depends on a flag. -/
def isConditional : Condition → Bool
  | always => false
  | when .. => true

/-- The number of the tested flag, 0 if there is none. -/
def flagIndex : Condition → Nat
  | always => 0
  | when flag _ => flag.index

/-- The value that the tested flag must have. -/
def sense : Condition → Bool
  | always => false
  | when _ sense => sense

/-- The letters that a condition adds to the mnemonic of a jump, call or return. -/
def suffix (c : Condition) (unconditional : String) : String :=
  match c with
  | always => unconditional
  | when .carry false => "NC"
  | when .zero false => "NZ"
  | when .sign false => "P"
  | when .parity false => "PO"
  | when .carry true => "C"
  | when .zero true => "Z"
  | when .sign true => "M"
  | when .parity true => "PE"

end Condition

/-- The class of an operation. -/
inductive Kind where
  | halt
  | move
  | moveImmediate
  | increment
  | decrement
  | alu
  | aluImmediate
  | rotate
  | jump
  | call
  | ret
  | restart
  | input
  | output
  | undefined
  deriving DecidableEq

namespace Kind

/-- All classes in order. -/
def all : List Kind :=
  [halt, move, moveImmediate, increment, decrement, alu, aluImmediate, rotate, jump, call, ret,
    restart, input, output, undefined]

/-- The abbreviation of a class. -/
def name : Kind → String
  | halt => "HLT"
  | move => "MOV"
  | moveImmediate => "MVI"
  | increment => "INR"
  | decrement => "DCR"
  | alu => "ALU"
  | aluImmediate => "ALI"
  | rotate => "ROT"
  | jump => "JMP"
  | call => "CAL"
  | ret => "RET"
  | restart => "RST"
  | input => "INP"
  | output => "OUT"
  | undefined => "UNDEFINED"

end Kind

/-- How an operation uses the bus after its opcode is fetched. -/
inductive Access where
  | none
  | immediate
  | read
  | write
  | branch
  | stack
  | io
  deriving DecidableEq

namespace Access

/-- All uses in order. -/
def all : List Access := [none, immediate, read, write, branch, stack, io]

/-- The name of a use. -/
def name : Access → String
  | none => "none"
  | immediate => "immediate"
  | read => "read"
  | write => "write"
  | branch => "branch"
  | stack => "stack"
  | io => "io"

end Access

/-- What an opcode does. -/
inductive Operation where
  | halt
  | move (dst src : Register)
  | moveImmediate (dst : Register)
  | increment (reg : Register)
  | decrement (reg : Register)
  | alu (op : BinaryOp) (src : Register)
  | aluImmediate (op : BinaryOp)
  | rotate (op : Rotation)
  | jump (condition : Condition)
  | call (condition : Condition)
  | ret (condition : Condition)
  /-- Call the subroutine at eight times `vector`. -/
  | restart (vector : UInt8)
  | input (port : UInt8)
  | output (port : UInt8)
  /-- No operation is defined for the opcode. -/
  | undefined
  deriving DecidableEq

namespace Operation

/-- The class of the operation. -/
def kind : Operation → Kind
  | halt => .halt
  | move .. => .move
  | moveImmediate _ => .moveImmediate
  | increment _ => .increment
  | decrement _ => .decrement
  | alu .. => .alu
  | aluImmediate _ => .aluImmediate
  | rotate _ => .rotate
  | jump _ => .jump
  | call _ => .call
  | ret _ => .ret
  | restart _ => .restart
  | input _ => .input
  | output _ => .output
  | undefined => .undefined

/-- The number of bytes of the instruction, opcode included. -/
def length : Operation → Nat
  | moveImmediate _ | aluImmediate _ => 2
  | jump _ | call _ => 3
  | _ => 1

/-- How the operation uses the bus after the opcode fetch. -/
def access : Operation → Access
  | move .M _ => .write
  | move _ .M => .read
  | moveImmediate .M => .write
  | moveImmediate _ => .immediate
  | alu _ .M => .read
  | aluImmediate _ => .immediate
  | jump _ | call _ => .branch
  | ret _ | restart _ => .stack
  | input _ | output _ => .io
  | _ => .none

/-- The mnemonic of the operation. -/
def mnemonic : Operation → String
  | halt => "HLT"
  | move .. => "MOV"
  | moveImmediate _ => "MVI"
  | increment _ => "INR"
  | decrement _ => "DCR"
  | alu op _ => op.mnemonic
  | aluImmediate op => op.immediateMnemonic
  | rotate op => op.mnemonic
  | jump c => "J" ++ c.suffix "MP"
  | call c => "C" ++ c.suffix "ALL"
  | ret c => "R" ++ c.suffix "ET"
  | restart _ => "RST"
  | input _ => "IN"
  | output _ => "OUT"
  | undefined => "???"

/-- The register that the operation changes. -/
def dst : Operation → Register
  | move dst _ => dst
  | moveImmediate dst => dst
  | increment reg => reg
  | decrement reg => reg
  | _ => .A

/-- The register that the operation reads. -/
def src : Operation → Register
  | move _ src => src
  | alu _ src => src
  | _ => .A

/-- The arithmetic or logical operation. -/
def binaryOp : Operation → BinaryOp
  | alu op _ => op
  | aluImmediate op => op
  | _ => .add

/-- The rotation. -/
def rotation : Operation → Rotation
  | rotate op => op
  | _ => .left

/-- The condition of a jump, call or return. -/
def condition : Operation → Condition
  | jump c => c
  | call c => c
  | ret c => c
  | _ => .always

/-- The restart vector. -/
def vector : Operation → UInt8
  | restart vector => vector
  | _ => 0

/-- The port: inputs are numbered 0 to 7, outputs 8 to 31. -/
def port : Operation → UInt8
  | input port => port
  | output port => port
  | _ => 0

/-- Whether no operation is defined. -/
def isUndefined (o : Operation) : Bool := o == undefined

theorem length_pos (o : Operation) : 0 < o.length := by
  unfold length
  split <;> decide

theorem length_le (o : Operation) : o.length ≤ 3 := by
  unfold length
  split <;> decide

theorem length_cases (o : Operation) : o.length = 1 ∨ o.length = 2 ∨ o.length = 3 := by
  have := o.length_pos
  have := o.length_le
  omega

end Operation

/-- An opcode with the operation that it names. -/
structure Descriptor where
  opcode : UInt8
  operation : Operation
  deriving DecidableEq

/-- An opcode with its operand: an immediate byte, a 14-bit address, or 0 if it takes none. -/
structure Instruction extends Descriptor where
  operand : UInt16
  deriving DecidableEq

end Mcs8
