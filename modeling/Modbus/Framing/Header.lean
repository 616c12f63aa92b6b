import Modbus.Bytes

/-!
# What surrounds a PDU

Whatever the framing, a frame names the unit that is spoken to, and a frame on a network link also
carries a transaction number that the reply repeats.  A `Header` is both; the framings without
transactions leave that field empty.
-/

namespace Modbus

/-- **The addressing fields of a frame**, which a reply echoes. -/
structure Header where
  unit : UnitId
  /-- The number of the exchange, on links that carry one. -/
  transaction : Option UInt16 := none
deriving DecidableEq, Repr

end Modbus
