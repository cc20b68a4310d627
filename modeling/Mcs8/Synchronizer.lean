/-!
# The interrupt synchronizer

The interrupt line passes through two flip-flops before it is looked at. A rising edge of the
second one makes a request, which stays until the interrupt is acknowledged; a line that merely
stays high makes no second one.
-/

namespace Mcs8

/-- Two flip-flops and a latch. -/
structure Synchronizer where
  /-- The first flip-flop, which takes the level of the line. -/
  first : Bool := false
  /-- The second flip-flop, one clock behind the first. -/
  second : Bool := false
  /-- The second flip-flop as it was a clock ago. -/
  former : Bool := false
  /-- The latched request. -/
  request : Bool := false
  deriving DecidableEq

namespace Synchronizer

/-- Advance one clock with the level of the interrupt line. -/
def clock (s : Synchronizer) (line : Bool) : Synchronizer where
  first := line
  second := s.first
  former := s.second
  request := s.request || (s.first && !s.second)

/-- Clear the request. -/
def acknowledge (s : Synchronizer) : Synchronizer := { s with request := false }

/-- Whether a request waits to be acknowledged. -/
def pending (s : Synchronizer) : Bool := s.request

end Synchronizer

end Mcs8
