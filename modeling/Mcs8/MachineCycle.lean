import Mcs8.Instruction
import Mcs8.Sequencer

/-!
# Machine cycles

An instruction is one to three machine cycles: the fetch of its opcode, fetches of operand bytes,
reads or writes of memory, or one input or output cycle. The operation alone says how many cycles
there are and of which kind each is; whether a cycle goes on to an execute phase can also depend on
the condition of a jump, call or return. Cycles are counted from 0, the opcode fetch.
-/

namespace Mcs8

/-- The kind of a machine cycle, listed by its code, which the processor sends out in the top two
bits of the address. -/
inductive CycleKind where
  /-- Fetch of an opcode or operand byte. -/
  | pci
  /-- Read of a memory byte. -/
  | pcr
  /-- Write of a memory byte. -/
  | pcw
  /-- Input or output. -/
  | pcc
  deriving DecidableEq

namespace CycleKind

/-- All kinds in the order of their codes. -/
def all : List CycleKind := [pci, pcr, pcw, pcc]

/-- The code of a kind. -/
def code : CycleKind → Nat
  | pci => 0
  | pcr => 1
  | pcw => 2
  | pcc => 3

/-- The kind with the given code. -/
def ofCode? (code : Int) : Option CycleKind := Code.value? all code

/-- The kind in the low two bits of a field. -/
def ofField (field : UInt8) : CycleKind :=
  match field % 4 with
  | 0 => pci
  | 1 => pcr
  | 2 => pcw
  | _ => pcc

@[simp] theorem ofField_code (k : CycleKind) : ofField (UInt8.ofNat k.code) = k := by
  cases k <;> rfl

/-- The name of a kind. -/
def name : CycleKind → String
  | pci => "PCI"
  | pcr => "PCR"
  | pcw => "PCW"
  | pcc => "PCC"

/-- The name of the kind with a given code, a question mark if there is none. -/
def nameOfCode (code : Int) : String := Code.name all name code

end CycleKind

namespace Operation

/-- The number of machine cycles, the opcode fetch included. -/
def cycleCount (o : Operation) : Nat :=
  match o with
  | move .. | alu .. => if o.access = .none then 1 else 2
  | moveImmediate .M => 3
  | moveImmediate _ => 2
  | aluImmediate _ | input _ | output _ => 2
  | jump _ | call _ => 3
  | _ => 1

/-- The kind of the machine cycle `cycle`. -/
def cycleKind (o : Operation) (cycle : Int) : CycleKind :=
  if cycle = 0 then .pci
  else
    match o with
    | move .M _ => .pcw
    | move .. => .pcr
    | alu .. => .pcr
    | moveImmediate _ => if cycle = 2 then .pcw else .pci
    | input _ | output _ => .pcc
    | _ => .pci

/-- Whether the machine cycle `cycle` has an execute phase, when the condition of the operation
holds or not. Work on registers is done in the fetch cycle and work on a memory byte in the cycle
that reads it; a store to memory needs none. -/
def hasExecutePhase (o : Operation) (cycle : Int) (conditionHeld : Bool) : Bool :=
  match o with
  | move .M _ => false
  | move _ src => (cycle = 0) != (src = .M)
  | alu _ src => (cycle = 0) != (src = .M)
  | moveImmediate dst => cycle = 1 && dst ≠ .M
  | aluImmediate _ => cycle = 1
  | increment _ | decrement _ | rotate _ | restart _ => true
  | ret _ => conditionHeld
  | jump _ | call _ => cycle = 2 && conditionHeld
  | input _ | output _ => cycle = 1
  | halt | undefined => false

theorem cycleCount_pos (o : Operation) : 0 < o.cycleCount := by
  unfold cycleCount
  split <;> first | split <;> decide | decide

theorem cycleCount_le (o : Operation) : o.cycleCount ≤ 3 := by
  unfold cycleCount
  split <;> first | split <;> decide | decide

end Operation

end Mcs8
