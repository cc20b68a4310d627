/-!
# Input and output ports

Of 32 port numbers the first eight are inputs, whose bytes are set from outside, and the other 24
are outputs, which hold the last byte written. Every write to an output is also recorded, with the
port and the tick at which it happened.
-/

namespace Mcs8

/-- A byte written to an output port. -/
structure OutputRecord where
  port : Int32
  value : UInt8
  /-- The tick of the board at which the byte was written. -/
  tick : UInt64
  deriving DecidableEq

/-- The bytes at the ports and the record of writes. -/
structure PortBank where
  inputs : Vector UInt8 8 := .replicate 8 0
  /-- The output ports from number 8 on. -/
  outputs : Vector UInt8 24 := .replicate 24 0
  /-- Every write, the oldest first. -/
  log : Array OutputRecord := #[]
  deriving DecidableEq

namespace PortBank

/-- The ports numbered 0 to 7 are inputs. -/
def isInput (port : Int) : Bool := 0 ≤ port && port < 8

/-- The ports numbered 8 to 31 are outputs. -/
def isOutput (port : Int) : Bool := 8 ≤ port && port < 32

/-- The byte that a port puts on the bus; nothing drives the bus for a port that is no input, and
it reads as all ones. -/
def read (s : PortBank) (port : Int) : UInt8 :=
  if isInput port then s.inputs[port.toNat]?.getD 0 else 0xff

/-- The byte at an input port, 0 for any other port. -/
def input (s : PortBank) (port : Int) : UInt8 :=
  if isInput port then s.inputs[port.toNat]?.getD 0 else 0

/-- The byte at an output port, 0 for any other port. -/
def output (s : PortBank) (port : Int) : UInt8 :=
  if isOutput port then s.outputs[port.toNat - 8]?.getD 0 else 0

/-- Set the byte at an input port; any other port is left alone. -/
def setInput (s : PortBank) (port : Int) (value : UInt8) : PortBank :=
  if isInput port then { s with inputs := s.inputs.setIfInBounds port.toNat value } else s

/-- Write a byte to an output port and record it; any other port is left alone. -/
def write (s : PortBank) (port : Int) (value : UInt8) (tick : UInt64) : PortBank :=
  if isOutput port then
    { s with
      outputs := s.outputs.setIfInBounds (port.toNat - 8) value
      log := s.log.push { port := .ofInt port, value, tick } }
  else s

/-- Forget the record of writes. -/
def clearLog (s : PortBank) : PortBank := { s with log := #[] }

end PortBank

/-- The ports of a board, which can announce their writes. -/
structure Ports extends PortBank where
  announces : Bool := false

namespace Ports

/-- Take over the bytes and the record of `s`. -/
def load (p : Ports) (s : PortBank) : Ports := { p with toPortBank := s }

/-- Clear all ports and the record of writes. -/
def reset (p : Ports) : Ports := p.load {}

end Ports

end Mcs8
