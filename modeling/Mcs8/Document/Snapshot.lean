import Mcs8.Board.Snapshot
import Mcs8.Document.Ports
import Mcs8.Document.Processor

/-!
# Saved boards as documents

The document of a snapshot has the documents of its parts and a version, which is written and never
looked at. Memory of any length is read and then brought to its full size, and a code that names no
owner of the bus is read as none.
-/

namespace Mcs8

namespace Document

namespace Library

variable {D : Type} (lib : Library D)

/-- The address latch. -/
def busLatch : Codec D BusLatch :=
  lib.record [
    .part "low" (·.low) (fun l low ↦ { l with low }) lib.byte.codec,
    .part "high" (·.high) (fun l high ↦ { l with high }) lib.byte.codec,
    .part "acknowledge" (·.acknowledge) (fun l acknowledge ↦ { l with acknowledge })
      lib.bool.codec,
    .part "type" (·.kind) (fun l kind ↦ { l with kind }) (lib.coded CycleKind.code .ofField)]

/-- The interrupting device. -/
def interrupter : Codec D Interrupter :=
  lib.record [
    .part "line" (·.line) (fun s line ↦ { s with line }) lib.bool.codec,
    .part "opcode" (·.opcode) (fun s opcode ↦ { s with opcode }) lib.byte.codec,
    .part "jammed" (·.answer) (fun s answer ↦ { s with answer }) lib.byte.codec,
    .part "queued" (·.waiting) (fun s waiting ↦ { s with waiting }) lib.bool.codec,
    .part "queuedOpcode" (·.waitingOpcode) (fun s waitingOpcode ↦ { s with waitingOpcode })
      lib.byte.codec,
    .part "armed" (·.armed) (fun s armed ↦ { s with armed }) lib.bool.codec]

/-- A part that may be missing. A missing part is written as null and cannot be read. -/
def present {α : Type} (codec : Codec D α) : Codec D (Option α) where
  write
    | some value => codec.write value
    | none => lib.null
  read d
    | some value => (codec.read d value).map some
    | none => ⟨none, some .wrongType⟩

/-- The owner of the bus; a code that names no owner counts as none. -/
def busOwner : Codec D BusOwner :=
  lib.integer.coded (fun o ↦ .ofNat o.code) fun n ↦ (BusOwner.ofCode? n.toInt).getD .none

/-- The bytes of a memory, brought to its full size. -/
def memory : Codec D (Array UInt8) := lib.buffer.coded id (Snapshot.resizeMemory memoryCapacity)

/-- A snapshot without its version. -/
def snapshotFields : List (Field D Snapshot) := [
  .part "cpu" (·.cpu) (fun s cpu ↦ { s with cpu }) (lib.present lib.processor),
  .part "ports" (·.ports) (fun s ports ↦ { s with ports }) (lib.present lib.ports),
  .part "memory" (·.memory) (fun s memory ↦ { s with memory }) lib.memory,
  .part "latch" (·.latch) (fun s latch ↦ { s with latch }) lib.busLatch,
  .part "interruptDevice" (·.interrupter) (fun s interrupter ↦ { s with interrupter })
    lib.interrupter,
  .part "bus" (·.bus) (fun s bus ↦ { s with bus }) lib.byte.codec,
  .part "driver" (·.owner) (fun s owner ↦ { s with owner }) lib.busOwner,
  .part "readyLine" (·.readyLevel) (fun s readyLevel ↦ { s with readyLevel }) lib.bool.codec,
  .part "numTicks" (·.ticks) (fun s ticks ↦ { s with ticks }) lib.counter.codec]

/-- A snapshot. -/
def snapshot : Codec D Snapshot where
  write s :=
    lib.object (("version", lib.text "1.0") ::
      lib.snapshotFields.map fun field ↦ (field.key, field.write s))
  read d := lib.readFields d lib.snapshotFields

end Library

/-- The address latch, in trees of data. -/
def busLatch : Codec Document BusLatch := library.busLatch

/-- A snapshot, in trees of data. -/
def snapshot : Codec Document Snapshot := library.snapshot

end Document

end Mcs8
