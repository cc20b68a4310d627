import Mcs8.Board.Snapshot
import Mcs8.Disassembly
import Mcs8.Document

/-!
# Values of scripts

Scripts see the emulator through a few classes of objects, a few enumerations and plain values. This
module holds the values, what can go wrong in a call, and the enumerations.
-/

namespace Mcs8.Script

/-- An object that a script can hold. -/
inductive Entity where
  | processorState (s : ProcessorState)
  | processor (p : Processor)
  | descriptor (d : Descriptor)
  | instruction (i : ListingItem)
  | outputRecord (w : OutputRecord)
  | portBank (s : PortBank)
  | ports (p : Ports)
  | busRecord (e : BusRecord)
  | snapshot (s : Snapshot)
  | board (b : Board)

/-- A part of a board that is an object of its own. -/
inductive Part where
  | cpu
  | ports

/-- A block of bytes, with the layout that its owner gives it. -/
structure Buffer where
  bytes : List UInt8
  itemSize : Int := 1
  dimensions : Int := 1
  stride : Int := 1

/-- A value that a call takes or gives. -/
inductive Value where
  | none
  | bool (b : Bool)
  | int (n : Int)
  | text (s : String)
  | list (values : List Value)
  /-- A member of an enumeration. -/
  | enumerator (enumeration member : String)
  | buffer (b : Buffer)
  /-- An object that belongs to nobody else. -/
  | entity (e : Entity)
  /-- A part of the board that was asked, not a copy of it. -/
  | part (p : Part)

/-- What can go wrong in a call. -/
inductive Failure where
  /-- An address is out of range. -/
  | index (message : String)
  | runtime (message : String)
  /-- A text holds no document, or not one that can be read. -/
  | document (fault : Document.Fault)
  /-- There is no such method, or its arguments are of other types. -/
  | mismatch

namespace Value

/-- A byte as a value. -/
def byte (b : UInt8) : Value := int b.toNat

/-- A word as a value. -/
def word (w : UInt16) : Value := int w.toNat

/-- A count as a value. -/
def count (n : UInt64) : Value := int n.toNat

/-- Bytes as a value. -/
def bytes (bs : List UInt8) : Value := list (bs.map byte)

/-- The bytes in a list of numbers. -/
def toBytes? : List Value → Option (List UInt8)
  | [] => some []
  | int n :: rest => (toBytes? rest).map (.ofInt n :: ·)
  | _ => .none

end Value

namespace Buffer

/-- The bytes of a buffer, which has to be one run of bytes. -/
def contents (b : Buffer) : Except Failure (List UInt8) :=
  if b.itemSize = 1 ∧ b.dimensions = 1 ∧ b.stride = 1 then .ok b.bytes
  else .error (.runtime "Incompatible format: expected a 1D linear buffer of bytes.")

end Buffer

/-- The failure that a refused operation of a board gives. -/
def Failure.ofBoardError : BoardError → Failure
  | .noSuchAddress => .index BoardError.noSuchAddress.message
  | e => .runtime e.message

/-! ### Enumerations -/

/-- An enumeration; the number of a member is its place. -/
structure Enumeration where
  name : String
  members : List String

namespace Enumeration

/-- The member with a number. -/
def value (e : Enumeration) (number : Nat) : Value := .enumerator e.name (e.members.getD number "?")

/-- The number of a member. -/
def number? (e : Enumeration) (v : Value) : Option Nat :=
  match v with
  | .enumerator enumeration member =>
    if enumeration = e.name then e.members.idxOf? member else none
  | _ => none

/-- The processor states. -/
def state : Enumeration := ⟨"State", TState.all.map (·.name)⟩

/-- The kinds of machine cycles. -/
def cycleKind : Enumeration := ⟨"CycleType", CycleKind.all.map (·.name)⟩

/-- The register codes. -/
def register : Enumeration := ⟨"Reg", Register.all.map (·.name)⟩

/-- The arithmetic and logical operations. -/
def binaryOp : Enumeration := ⟨"AluOp", ["ADD", "ADC", "SUB", "SBB", "AND", "XOR", "OR", "CMP"]⟩

/-- The rotations. -/
def rotation : Enumeration := ⟨"RotateOp", Rotation.all.map (·.mnemonic)⟩

/-- The owners of the bus. -/
def busOwner : Enumeration := ⟨"BusDriver", BusOwner.all.map (·.name.toUpper)⟩

/-- The classes of operations. -/
def kind : Enumeration := ⟨"I8008.InstructionType", Kind.all.map (·.name)⟩

/-- The uses of the bus. -/
def access : Enumeration := ⟨"I8008.AccessType", Access.all.map (·.name.toUpper)⟩

/-- The reasons for which a run stops. -/
def stoppingReason : Enumeration :=
  ⟨"System.StoppingReason", ["HALTED", "BREAKPOINT", "NUM_CYCLES_REACHED"]⟩

/-- All enumerations. -/
def all : List Enumeration :=
  [state, cycleKind, register, binaryOp, rotation, busOwner, kind, access, stoppingReason]

/-- The member that a value of an enumerated type is, by its place among all values. -/
def ofMember {α : Type} [BEq α] (e : Enumeration) (values : List α) (x : α) : Value :=
  e.value (values.idxOf x)

/-- The value of an enumerated type that a member is. -/
def toMember? {α : Type} (e : Enumeration) (values : List α) (v : Value) : Option α := do
  values[← e.number? v]?

end Enumeration

end Mcs8.Script
