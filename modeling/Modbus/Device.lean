import Modbus.Response
import Modbus.Store

/-!
# A simulated device

`Device.handle` answers one request from a store.  A unit that does not exist stays silent; an
existing one answers every request, and only a confirmed write changes the store.  Each such write
is reported once, with the cells in the order they were written, to whoever listens.

The device is a value: handling a request gives the reply, the writes reported and the device after
it.
-/

namespace Modbus

/-- **A write that a client made**, as the device reports it. -/
inductive Notification where
  | coils (unit : UnitId) (coils : List Coil)
  | registers (unit : UnitId) (registers : List Register)
deriving DecidableEq, Repr

/-- A store that is served, and whether anyone listens to the writes. -/
structure Device where
  store : Store := {}
  listened : Bool := false

/-- What handling a request comes to. -/
structure Handled where
  /-- The reply; a unit that does not exist gives none. -/
  reply : Option Response
  /-- The store afterwards. -/
  store : Store
  /-- The writes made. -/
  writes : List Notification := []

namespace Store

/-- Coils written, reported and confirmed with `reply`. -/
def confirmCoils (store : Store) (unit : UnitId) (coils : List Coil) (reply : Response) :
    Handled :=
  ⟨some reply, store.setCoils unit coils, [.coils unit coils]⟩

/-- Registers written, reported and confirmed with `reply`. -/
def confirmRegisters (store : Store) (unit : UnitId) (registers : List Register)
    (reply : Response) : Handled :=
  ⟨some reply, store.setRegisters unit registers, [.registers unit registers]⟩

/-- **Handling a request.** -/
def handle (store : Store) (unit : UnitId) (request : Request) : Handled :=
  if !store.hasUnit unit then ⟨none, store, []⟩
  else
    match request with
    | .readBits table start count =>
      ⟨(store.readBits unit table start count).map (.bits table), store, []⟩
    | .readWords table start count =>
      ⟨(store.readWords unit table start count).map (.words table), store, []⟩
    | .writeCoil coil => store.confirmCoils unit [coil] (.coilWritten coil)
    | .writeRegister register =>
      store.confirmRegisters unit [register] (.registerWritten register)
    | .writeCoils coils =>
      let (start, count) := Request.range coils
      store.confirmCoils unit coils (.coilsWritten start count)
    | .writeRegisters registers =>
      let (start, count) := Request.range registers
      store.confirmRegisters unit registers (.registersWritten start count)
    | .identify category object =>
      ⟨some (store.identity.answer category object Limit.maxPdu), store, []⟩
    | .invalid function code => ⟨some (.exception function code), store, []⟩
    | .unsupported _ => ⟨some (request.exception .illegalFunction), store, []⟩

end Store

namespace Device

/-- **Handling a request** and reporting its writes, if anyone listens. -/
def handle (device : Device) (unit : UnitId) (request : Request) :
    Option Response × List Notification × Device :=
  let handled := device.store.handle unit request
  (handled.reply, if device.listened then handled.writes else [],
    { device with store := handled.store })

def silence (device : Device) : Device :=
  { device with listened := false }

end Device

end Modbus
