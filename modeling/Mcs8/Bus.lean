import Mcs8.MachineCycle

/-!
# The shared bus

One byte-wide bus carries addresses, data and the kind of a machine cycle. In each clock state
several devices may offer a byte; a fixed priority chooses the owner of the bus, and a bus without
an owner keeps its byte. Because the address is sent in two halves, a latch on the board collects
it.
-/

namespace Mcs8

/-- What a device offers to put on the bus in one state. -/
structure BusOffer where
  enabled : Bool := false
  value : UInt8 := 0
  deriving DecidableEq

/-- The device whose byte is on the bus. -/
inductive BusOwner where
  | none
  | interrupt
  | cpu
  | memory
  | io
  deriving DecidableEq

namespace BusOwner

/-- All owners in the order of their codes. -/
def all : List BusOwner := [none, interrupt, cpu, memory, io]

/-- The code of an owner. -/
def code : BusOwner → Nat
  | none => 0
  | interrupt => 1
  | cpu => 2
  | memory => 3
  | io => 4

/-- The owner with the given code. -/
def ofCode? (code : Int) : Option BusOwner := Code.value? all code

@[simp] theorem ofCode?_code (o : BusOwner) : ofCode? o.code = some o := by
  cases o <;> rfl

/-- The name of an owner. -/
def name : BusOwner → String
  | none => "none"
  | interrupt => "interrupt"
  | cpu => "cpu"
  | memory => "memory"
  | io => "io"

/-- The name of the owner with a given code, a question mark if there is none. -/
def nameOfCode (code : Int) : String := Code.name all name code

end BusOwner

/-- What the devices offer in one state. -/
structure BusOffers where
  interrupt : BusOffer := {}
  cpu : BusOffer := {}
  memory : BusOffer := {}
  io : BusOffer := {}

/-- Choose the owner of the bus and the byte on it: the interrupting device comes first, then the
processor, then memory, then the ports. Without an owner the bus keeps the byte `held`. -/
def BusOffers.resolve (offers : BusOffers) (held : UInt8) : BusOwner × UInt8 :=
  if offers.interrupt.enabled then (.interrupt, offers.interrupt.value)
  else if offers.cpu.enabled then (.cpu, offers.cpu.value)
  else if offers.memory.enabled then (.memory, offers.memory.value)
  else if offers.io.enabled then (.io, offers.io.value)
  else (.none, held)

/-! ### The address latch -/

/-- The address of the running machine cycle as it was collected from the bus: the low byte in the
first state, the kind and the high six bits in the second. -/
structure BusLatch where
  low : UInt8 := 0
  high : UInt8 := 0
  kind : CycleKind := .pci
  /-- The cycle began as an interrupt acknowledge. -/
  acknowledge : Bool := false
  deriving DecidableEq

namespace BusLatch

/-- Collect what the bus carries in a state. -/
def update (latch : BusLatch) (state : TState) (bus : UInt8) : BusLatch :=
  match state with
  | .t1 => { latch with low := bus, acknowledge := false }
  | .t1i => { latch with low := bus, acknowledge := true }
  | .t2 => { latch with kind := .ofField (bus / 64), high := bus % 64 }
  | _ => latch

/-- The memory address of the cycle. -/
def address (latch : BusLatch) : UInt16 := addressOf latch.high latch.low

/-- The port of an input or output cycle, bits 5 to 1 of the high part. -/
def port (latch : BusLatch) : UInt8 := latch.high / 2 % 32

theorem address_lt (latch : BusLatch) : latch.address.toNat < 16384 := addressOf_lt _ _

theorem port_lt (latch : BusLatch) : latch.port.toNat < 32 := by
  simp only [port, UInt8.toNat_mod]
  exact Nat.mod_lt _ (by decide)

end BusLatch

end Mcs8
