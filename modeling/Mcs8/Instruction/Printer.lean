import Mcs8.Instruction.Decode
import Mcs8.Text.Pen

/-!
# Printed instructions

An instruction is printed as its mnemonic and its operands, and an undefined opcode as a data byte.
A descriptor, which has no operand value, is printed with the letter `h` in place of each digit.
Both can also be printed as the bytes that encode them. Printing leaves the format of the pen as it
was, the width included, so that a width asked for applies to the first item printed here and once
more to the item that comes next.
-/

namespace Mcs8

/-- How the operand of an instruction is shown. -/
inductive OperandText where
  /-- By a placeholder for each digit. -/
  | placeholder
  /-- By its value. -/
  | value (operand : UInt16)

namespace OperandText

/-- The character that fills the operand up to its width. -/
def fill : OperandText → Char
  | placeholder => 'h'
  | value _ => '0'

/-- Write the operand with the given number of digits. -/
def print (o : OperandText) (width : Nat) (pen : Pen) : Pen :=
  match o with
  | placeholder => { pen with width }.put ""
  | value operand => (pen.field width operand.toNat).put "h"

end OperandText

/-- Print an opcode as a data byte. -/
def printData (opcode : UInt8) (pen : Pen) : Pen :=
  pen.keepFormat <|
    ({ pen.put "DB " with hex := true, upper := true, fill := '0' }.field 2 opcode.toNat).put "h"

namespace Operation

/-- Print the operands of an operation. -/
def printOperands (o : Operation) (operand : OperandText) (pen : Pen) : Pen :=
  match o with
  | move dst src => (((pen.put " ").put dst.name).put ",").put src.name
  | moveImmediate dst => operand.print 2 (((pen.put " ").put dst.name).put ",")
  | increment reg => (pen.put " ").put reg.name
  | decrement reg => (pen.put " ").put reg.name
  | alu _ src => (pen.put " ").put src.name
  | aluImmediate _ => operand.print 2 (pen.put " ")
  | jump _ => operand.print 4 (pen.put " ")
  | call _ => operand.print 4 (pen.put " ")
  | restart vector => (pen.put " ").inDecimal.number vector.toNat
  | input port => (pen.put " ").inDecimal.number port.toNat
  | output port => (pen.put " ").inDecimal.number port.toNat
  | halt | rotate _ | ret _ | undefined => pen

/-- Print an operation as a mnemonic with operands. -/
def printMnemonic (o : Operation) (operand : OperandText) (pen : Pen) : Pen :=
  pen.keepFormat <|
    o.printOperands operand
      { pen.put o.mnemonic with hex := true, upper := true, fill := operand.fill }

end Operation

namespace Descriptor

/-- Print a descriptor and the given operand. -/
def printWith (d : Descriptor) (operand : OperandText) (pen : Pen) : Pen :=
  if d.operation = .undefined then printData d.opcode pen
  else d.operation.printMnemonic operand pen

/-- Print a descriptor with a placeholder for its operand. -/
def print (d : Descriptor) (pen : Pen) : Pen := d.printWith .placeholder pen

/-- The printed text. -/
def text (d : Descriptor) : String := (d.print {}).text

/-- Start the printing of bytes with the opcode. -/
def printOpcode (d : Descriptor) (pen : Pen) : Pen :=
  (pen.inHex.filledWith '0').field 2 d.opcode.toNat

/-- Print the opcode byte and a placeholder for each operand byte. -/
def printBytes (d : Descriptor) (pen : Pen) : Pen :=
  pen.keepFormat <|
    match d.operation.length with
    | 1 => d.printOpcode pen
    | 2 => (d.printOpcode pen).put " hh"
    | _ => ((d.printOpcode pen).put " hh").put " hh"

/-- The printed bytes. -/
def bytesText (d : Descriptor) : String := (d.printBytes {}).text

end Descriptor

namespace Instruction

/-- Print an instruction. -/
def print (i : Instruction) (pen : Pen) : Pen := i.printWith (.value i.operand) pen

/-- The printed text. -/
def text (i : Instruction) : String := (i.print {}).text

/-- Print the bytes of an instruction, as its opcode and its operand give them. -/
def printBytes (i : Instruction) (pen : Pen) : Pen :=
  let opcode := i.printOpcode pen
  let low := i.operand.toNat % 256
  let high := i.operand.toNat / 256
  pen.keepFormat <|
    match i.operation.length with
    | 1 => opcode
    | 2 => (opcode.put " ").field 2 low
    | _ => (((opcode.put " ").field 2 low).put " ").field 2 high

/-- The printed bytes. -/
def bytesText (i : Instruction) : String := (i.printBytes {}).text

end Instruction

end Mcs8
