import Modbus.Device
import Modbus.Proofs.Batch
import Modbus.Proofs.BitPacking
import Modbus.Proofs.Operation
import Modbus.Proofs.PduShape

/-!
# Accesses to a device's memory

An `Access` is one of the six ways in which a client reads or writes the memory of a unit.  It has
two sides.  On one it is a program that talks to a link (`Access.operation`).  On the other it says
what it is meant to do, with no bytes at all: what becomes of the memory (`Access.effect`,
`Access.apply`) and what the client is told about it (`Access.Answered`).

The two meet where the bytes are.  `Access.operation_of_pdu` brings the program of an access into a
form in which it makes one exchange and concludes from what comes back (`Access.read`), so that
everything else is about one request and one reply.
-/

namespace Modbus

/-! ## Changing a unit that exists -/

namespace Store

/-- A store in which one unit is changed, if it exists. -/
def adjust (store : Store) (unit : UnitId) (change : Image → Image) : Store :=
  { store with
    unit := fun other => if other = unit then (store.unit other).map change else store.unit other }

variable {store : Store} {unit : UnitId}

lemma adjust_id (store : Store) (unit : UnitId) : store.adjust unit (fun image => image) = store := by
  have hunit : (fun other => if other = unit then (store.unit other).map (fun image => image)
      else store.unit other) = store.unit := by
    funext other
    split_ifs <;> simp
  rw [adjust, hunit]

lemma adjust_adjust (first second : Image → Image) :
    (store.adjust unit first).adjust unit second
      = store.adjust unit fun image => second (first image) := by
  simp only [adjust, Store.mk.injEq, and_true]
  funext other
  split_ifs with h
  · rw [Option.map_map]
    rfl
  · rfl

lemma hasUnit_adjust (change : Image → Image) (other : UnitId) :
    (store.adjust unit change).hasUnit other = store.hasUnit other := by
  simp only [hasUnit, adjust]
  split_ifs <;> simp

/-- A unit that exists is changed, not made. -/
lemma modify_eq_adjust (h : store.hasUnit unit = true) (change : Image → Image) :
    store.modify unit change = store.adjust unit change := by
  obtain ⟨image, himage⟩ := Option.isSome_iff_exists.mp h
  simp only [modify, adjust, Store.mk.injEq, and_true]
  funext other
  split_ifs with heq
  · rw [heq, himage]
    rfl
  · rfl

/-- **Cells written one after the other** are one change of the unit. -/
lemma foldl_modify {β : Type} (write : Image → β → Image) (h : store.hasUnit unit = true)
    (cells : List β) :
    cells.foldl (fun store cell => store.modify unit fun image => write image cell) store
      = store.adjust unit fun image => cells.foldl write image := by
  induction cells generalizing store with
  | nil => exact (adjust_id store unit).symm
  | cons cell rest ih =>
      have hexists : (store.adjust unit fun image => write image cell).hasUnit unit = true := by
        rw [hasUnit_adjust]
        exact h
      rw [List.foldl_cons, modify_eq_adjust h, ih hexists, adjust_adjust]
      rfl

/-- Coils written one after the other change the table of coils, cell by cell. -/
lemma setCoils_eq_foldl (h : store.hasUnit unit = true) (coils : List Coil) :
    store.setCoils unit coils = store.adjust unit fun image =>
      { image with
        coil := coils.foldl (fun table cell => Image.update table cell.address cell.value)
          image.coil } := by
  rw [setCoils]
  simp only [setBit, foldl_modify _ h]
  congr 1
  funext image
  induction coils generalizing image with
  | nil => rfl
  | cons coil rest ih => exact ih (image.setBit .coils coil)

lemma setRegisters_eq_foldl (h : store.hasUnit unit = true) (registers : List Register) :
    store.setRegisters unit registers = store.adjust unit fun image =>
      { image with
        holdingRegister :=
          registers.foldl (fun table cell => Image.update table cell.address cell.value)
            image.holdingRegister } := by
  rw [setRegisters]
  simp only [setWord, foldl_modify _ h]
  congr 1
  funext image
  induction registers generalizing image with
  | nil => rfl
  | cons register rest ih => exact ih (image.setWord .holdingRegisters register)

/-- Coils of which no two have the same address lie over what was there. -/
lemma setCoils_eq (h : store.hasUnit unit = true) {coils : List Coil}
    (hnodup : (coils.map Cell.address).Nodup) :
    store.setCoils unit coils
      = store.adjust unit fun image => { image with coil := overlay image.coil coils } := by
  simp only [setCoils_eq_foldl h, foldl_update _ hnodup]

lemma setRegisters_eq (h : store.hasUnit unit = true) {registers : List Register}
    (hnodup : (registers.map Cell.address).Nodup) :
    store.setRegisters unit registers = store.adjust unit fun image =>
      { image with holdingRegister := overlay image.holdingRegister registers } := by
  simp only [setRegisters_eq_foldl h, foldl_update _ hnodup]

end Store

/-! ## The two sides of an access -/

/-- **One read or write of a unit's memory.** -/
inductive Access where
  | readBits (table : BitTable) (start count : UInt16)
  | readWords (table : WordTable) (start count : UInt16)
  | writeCoil (coil : Coil)
  | writeRegister (register : Register)
  | writeCoils (coils : List Coil)
  | writeRegisters (registers : List Register)

/-- What a client is told. -/
inductive Outcome where
  | bits (cells : List (Cell Bool))
  | words (cells : List (Cell UInt16))
  /-- Whether the device confirmed what was written. -/
  | written (confirmed : Bool)

namespace Access

/-- **The client's program** for an access. -/
def operation (framing : Framing) (unit : UnitId) : Access → Operation Outcome
  | readBits table start count => Outcome.bits <$> Client.readBits framing table unit start count
  | readWords table start count => Outcome.words <$> Client.readWords framing table unit start count
  | writeCoil coil => Outcome.written <$> Client.writeCoil framing unit coil
  | writeRegister register => Outcome.written <$> Client.writeRegister framing unit register
  | writeCoils coils => Outcome.written <$> Client.writeCoils framing unit coils
  | writeRegisters registers => Outcome.written <$> Client.writeRegisters framing unit registers

/-- The PDU of an access, or the error that its arguments deserve. -/
def pdu : Access → Result Bytes
  | readBits table start count => Request.readPdu table.code start count
  | readWords table start count => Request.readPdu table.code start count
  | writeCoil coil => .ok (Request.writeCoilPdu coil)
  | writeRegister register => .ok (Request.writeRegisterPdu register)
  | writeCoils coils => Request.writeCoilsPdu coils
  | writeRegisters registers => Request.writeRegistersPdu registers

/-- **What an access is meant to do** to the memory of its unit: nothing, or lay the written cells
over it. -/
def effect : Access → Image → Image
  | readBits _ _ _, image => image
  | readWords _ _ _, image => image
  | writeCoil coil, image => { image with coil := overlay image.coil [coil] }
  | writeRegister register, image =>
    { image with holdingRegister := overlay image.holdingRegister [register] }
  | writeCoils coils, image => { image with coil := overlay image.coil coils }
  | writeRegisters registers, image =>
    { image with holdingRegister := overlay image.holdingRegister registers }

/-- The store after an access to one of its units. -/
def apply (access : Access) (unit : UnitId) (store : Store) : Store :=
  store.adjust unit access.effect

/-- **What a client is meant to be told**: the cells of the range that it asked for, with the values
of the memory, or that its write was confirmed. -/
def Answered (image : Image) : Access → Outcome → Prop
  | readBits table start count, .bits cells => Covers (image.bits table) start count cells
  | readWords table start count, .words cells => Covers (image.words table) start count cells
  | writeCoil _, .written confirmed => confirmed = true
  | writeRegister _, .written confirmed => confirmed = true
  | writeCoils _, .written confirmed => confirmed = true
  | writeRegisters _, .written confirmed => confirmed = true
  | _, _ => False

/-- What the client concludes from the PDU of a reply. -/
def conclude : Access → Bytes → Result Outcome
  | readBits table start count, reply => do
    return .bits (Cell.sequence start (← Reply.bits table.code reply count))
  | readWords table start count, reply => do
    return .words (Cell.sequence start (← Reply.words table.code reply count))
  | writeCoil coil, reply => do return .written ((← Reply.coil reply) == coil)
  | writeRegister register, reply => do return .written ((← Reply.register reply) == register)
  | writeCoils coils, reply => do
    return .written ((← Reply.range Function.writeCoils.code reply) == Client.written coils)
  | writeRegisters registers, reply => do
    return .written ((← Reply.range Function.writeRegisters.code reply)
      == Client.written registers)

/-- What the client does with the bytes that come back for a request. -/
def read (framing : Framing) (access : Access) (request : Bytes) (reply : Result Bytes) :
    Result Outcome := do
  let response ← reply
  framing.validate request response
  let (_, pdu) ← framing.parse response
  access.conclude pdu

/-! ## The program, effects first -/

variable {framing : Framing} {unit : UnitId} {access : Access}

/-- **An accepted access makes one exchange** and concludes from what comes back. -/
lemma operation_of_pdu {pdu : Bytes} (h : access.pdu = .ok pdu) :
    access.operation framing unit = .frame unit pdu fun request =>
      .invoke request framing.responseComplete fun reply =>
        .done (access.read framing request reply) := by
  have hexchange : access.operation framing unit
      = Client.exchange framing unit pdu >>= fun response =>
          Operation.ofResult (do
            let (_, pdu) ← framing.parse response
            access.conclude pdu) := by
    cases access with
    | readBits table start count =>
        simp only [Access.pdu] at h
        simp [operation, Client.readBits, h, Framing.readBits, conclude]
    | readWords table start count =>
        simp only [Access.pdu] at h
        simp [operation, Client.readWords, h, Framing.readWords, conclude]
    | writeCoil coil =>
        simp only [Access.pdu, Except.ok.injEq] at h
        simp [operation, Client.writeCoil, h, Framing.readCoil, conclude,
          Operation.ofResult_bind]
    | writeRegister register =>
        simp only [Access.pdu, Except.ok.injEq] at h
        simp [operation, Client.writeRegister, h, Framing.readRegister, conclude,
          Operation.ofResult_bind]
    | writeCoils coils =>
        simp only [Access.pdu] at h
        simp [operation, Client.writeCoils, h, Framing.readRange, conclude,
          Operation.ofResult_bind]
    | writeRegisters registers =>
        simp only [Access.pdu] at h
        simp [operation, Client.writeRegisters, h, Framing.readRange, conclude,
          Operation.ofResult_bind]
  rw [hexchange, Client.exchange_bind]
  rfl

/-- An access whose arguments are refused takes no effect. -/
lemma operation_of_error {error : Error} (h : access.pdu = .error error) :
    access.operation framing unit = .done (.error error) := by
  cases access with
  | readBits table start count =>
      simp only [Access.pdu] at h
      simp [operation, Client.readBits, h]
      rfl
  | readWords table start count =>
      simp only [Access.pdu] at h
      simp [operation, Client.readWords, h]
      rfl
  | writeCoil coil => simp [Access.pdu] at h
  | writeRegister register => simp [Access.pdu] at h
  | writeCoils coils =>
      simp only [Access.pdu] at h
      simp [operation, Client.writeCoils, h]
      rfl
  | writeRegisters registers =>
      simp only [Access.pdu] at h
      simp [operation, Client.writeRegisters, h]
      rfl

end Access

end Modbus
