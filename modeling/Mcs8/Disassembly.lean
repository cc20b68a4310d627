import Mcs8.Instruction.Printer

/-!
# Disassembly

A block of bytes is read as one instruction after the other. An instruction that the end of the
block cuts short is listed as a data byte, and what follows it is read afresh.
-/

namespace Mcs8

/-- What a line of a disassembly shows. -/
inductive ListingItem where
  | instruction (i : Instruction)
  /-- The opcode of an instruction whose operand is missing. -/
  | data (d : Descriptor)
  deriving DecidableEq

namespace ListingItem

/-- The opcode and the operation that it names, also where the operand is missing. -/
def descriptor : ListingItem → Descriptor
  | instruction i => i.toDescriptor
  | data d => d

/-- The class of the line: a data byte counts as undefined. -/
def kind : ListingItem → Kind
  | instruction i => i.operation.kind
  | data _ => .undefined

/-- The number of bytes shown. -/
def length : ListingItem → Nat
  | instruction i => i.operation.length
  | data _ => 1

/-- The operand, 0 for a data byte. -/
def operand : ListingItem → UInt16
  | instruction i => i.operand
  | data _ => 0

/-- Print what a line shows. -/
def print (item : ListingItem) (pen : Pen) : Pen :=
  match item with
  | instruction i => i.print pen
  | data d => printData d.opcode pen

/-- The printed text. -/
def text (item : ListingItem) : String := (item.print {}).text

/-- Print the bytes that a line shows. -/
def printBytes (item : ListingItem) (pen : Pen) : Pen :=
  match item with
  | instruction i => i.printBytes pen
  | data d => pen.keepFormat (d.printOpcode pen)

end ListingItem

/-- A line of a disassembly: a 14-bit address and what is found there. -/
structure ListingLine where
  address : UInt16
  item : ListingItem
  deriving DecidableEq

/-- Disassemble a block of bytes that starts at the address `origin`. -/
def disassemble (origin : UInt16) : List UInt8 → List ListingLine
  | [] => []
  | opcode :: rest =>
    let line := ListingLine.mk (origin % addressSpace)
    match (decode opcode).operation.length, rest with
    | 1, rest => line (.instruction (.decode opcode 0 0)) :: disassemble (origin + 1) rest
    | 2, x :: rest => line (.instruction (.decode opcode x 0)) :: disassemble (origin + 2) rest
    | 3, x :: y :: rest => line (.instruction (.decode opcode x y)) :: disassemble (origin + 3) rest
    | _, rest => line (.data (decode opcode)) :: disassemble (origin + 1) rest

namespace ListingLine

/-- Print a line: the address in four digits, the bytes in a column ten characters wide, and the
instruction. -/
def print (line : ListingLine) (pen : Pen) : Pen :=
  let bytes := (line.item.printBytes { upper := true }).text
  let address :=
    ({ pen with hex := true, upper := true, fill := '0' }.field 4 line.address.toNat).put "  "
  let column := { address with fill := ' ', alignLeft := true, width := 10 }.put bytes
  (line.item.print { column with alignLeft := false }).put "\n"

end ListingLine

/-- The text of a disassembly, one line after the other. -/
def listing (lines : List ListingLine) : String :=
  (lines.foldl (fun (pen : Pen) (line : ListingLine) ↦ line.print pen) {}).text

end Mcs8
