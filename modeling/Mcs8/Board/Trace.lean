import Mcs8.Bus
import Mcs8.Text.Pen

/-!
# The bus trace

A board can record what its bus carries, one record for each tick.
-/

namespace Mcs8

/-- What the bus carried in one tick. -/
structure BusRecord where
  tick : UInt64
  state : TState
  cycleKind : CycleKind
  bus : UInt8
  owner : BusOwner
  deriving DecidableEq

namespace BusRecord

/-- Whether the tick begins a machine cycle. -/
def sync (r : BusRecord) : Bool := r.state.startsCycle

/-- The record as one line: tick, code of the state, a mark at the start of a machine cycle, kind of
the cycle, byte and owner. -/
def text (r : BusRecord) : String :=
  let pen := ((({} : Pen).number r.tick.toNat).put " ").number r.state.code
  let pen := ((pen.put " ").put (if r.sync then "S" else "-")).put " "
  let pen := (pen.put r.cycleKind.name).put " "
  let pen := (pen.inHex.filledWith '0').field 2 r.bus.toNat
  ((pen.put " ").put r.owner.name).text

end BusRecord

end Mcs8
