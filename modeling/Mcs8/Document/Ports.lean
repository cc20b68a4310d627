import Mcs8.Document.Codec
import Mcs8.Ports

/-!
# Saved ports

The document of the ports has the bytes of the inputs and outputs and the record of writes. The
record is emptied before it is read, and its entries are stored one by one, so that an entry at
fault leaves those before it.
-/

namespace Mcs8

namespace Document

namespace Library

variable {D : Type} (lib : Library D)

/-- A recorded write. -/
def outputRecord : Codec D OutputRecord :=
  lib.record [
    .part "port" (·.port) (fun w port ↦ { w with port }) lib.integer.codec,
    .part "value" (·.value) (fun w value ↦ { w with value }) lib.byte.codec,
    .part "tick" (·.tick) (fun w tick ↦ { w with tick }) lib.counter.codec]

/-- Store recorded writes until one is at fault. -/
def appendRecords : List D → Array OutputRecord → Reading (Array OutputRecord)
  | [], log => ⟨log, none⟩
  | d :: rest, log =>
    match lib.outputRecord.readNew ⟨0, 0, 0⟩ d with
    | .ok write => appendRecords rest (log.push write)
    | .error fault => ⟨log, some fault⟩

/-- The record of writes. -/
def outputLog : Codec D (Array OutputRecord) where
  write log := lib.list (log.toList.map lib.outputRecord.write)
  read d log :=
    match lib.items d with
    | .ok items => lib.appendRecords items log
    | .error fault => ⟨log, some fault⟩

/-- The ports. -/
def ports : Codec D PortBank :=
  lib.record [
    .part "inputs" (·.inputs) (fun s inputs ↦ { s with inputs }) (lib.bytes 8).codec,
    .part "outputs" (·.outputs) (fun s outputs ↦ { s with outputs }) (lib.bytes 24).codec,
    { Field.part "writeLog" (·.log) (fun (s : PortBank) log ↦ { s with log }) lib.outputLog with
      prepare := PortBank.clearLog }]

end Library

/-- The ports, in trees of data. -/
def ports : Codec Document PortBank := library.ports

end Document

end Mcs8
