import Modbus.Proofs.Guarded.NetworkFrames
import Modbus.Proofs.Guarded.SerialFrames
import Modbus.Proofs.Guarded.Serving

/-!
# Nothing that arrives leads outside its bytes

This file puts the readers by position together, framing by framing, and says what they are for:
whatever bytes arrive, and whatever request and reply are held against each other, every index that
the readers use lies inside its slice, no subtraction goes below zero and no sum beyond 32 bits, and
the same holds of a device from the request PDU to the frame of its reply.

`StaysWithin` lists the functions of a framing.  Each of its fields is an equation with the function
of the library, which has no position that could be wrong; on the other side of the equation the
steps are checked, so `none` would be the outcome if one of them failed.
-/

namespace Modbus.Guarded

namespace Frame

/-! ## The functions of a framing -/

/-- **Taking a frame apart.** -/
def parse (framing : Framing) (adu : Bytes) : Guarded (Header × Bytes) :=
  match framing with
  | .rtu => Binary.parse adu
  | .ascii => Characters.parse adu
  | .tcp _ => Network.parse adu

/-- Whether the bytes of a reply are all there; a character frame shows it by its line end. -/
def responseComplete (framing : Framing) (bytes : Bytes) : Guarded Bool :=
  match framing with
  | .rtu => Binary.responseComplete bytes
  | .ascii => return Ascii.complete bytes
  | .tcp _ => Network.complete bytes

def requestComplete (framing : Framing) (bytes : Bytes) : Guarded Bool :=
  match framing with
  | .rtu => Binary.requestComplete bytes
  | .ascii => return Ascii.complete bytes
  | .tcp _ => Network.complete bytes

/-- **Whether a reply frame answers a request frame.** -/
def validate (framing : Framing) (request response : Bytes) : Guarded Unit :=
  match framing with
  | .rtu => Binary.validate request response
  | .ascii => Characters.validate request response
  | .tcp checked => Network.validate checked request response

def readRequest (framing : Framing) (adu : Bytes) : Guarded (Header × Request) := do
  let (header, pdu) ← parse framing adu
  return (header, ← request pdu)

def readBits (framing : Framing) (table : BitTable) (adu : Bytes) (start count : UInt16) :
    Guarded (List (Cell Bool)) := do
  let (_, pdu) ← parse framing adu
  return Cell.sequence start (← Guarded.readBits table.code pdu count)

def readWords (framing : Framing) (table : WordTable) (adu : Bytes) (start count : UInt16) :
    Guarded (List (Cell UInt16)) := do
  let (_, pdu) ← parse framing adu
  return Cell.sequence start (← Guarded.readWords table.code pdu count)

def readCoil (framing : Framing) (adu : Bytes) : Guarded Coil := do
  let (_, pdu) ← parse framing adu
  coil pdu

def readRegister (framing : Framing) (adu : Bytes) : Guarded Register := do
  let (_, pdu) ← parse framing adu
  register pdu

def readRange (framing : Framing) (function : Function) (adu : Bytes) :
    Guarded (UInt16 × UInt16) := do
  let (_, pdu) ← parse framing adu
  echo function.code pdu

def readFragment (framing : Framing) (adu : Bytes) : Guarded Fragment := do
  let (_, pdu) ← parse framing adu
  fragment pdu

/-- Wrapping a PDU, with the room that its frame takes computed first. -/
def wrap (framing : Framing) (header : Header) (pdu : Bytes) : Guarded Bytes := do
  match framing with
  | .rtu =>
    let _room ← plus (← plus 1 pdu.length) 2
    return framing.wrap header pdu
  | .ascii =>
    let body ← plus pdu.length 2
    let _room ← plus (← plus 1 (← times body 2)) 2
    return framing.wrap header pdu
  | .tcp _ =>
    let _following ← plus pdu.length 1
    let _room ← plus Network.header pdu.length
    return framing.wrap header pdu

/-- **A device behind a framing**: a request PDU read, handled by a store, and the reply written. -/
def serve (framing : Framing) (header : Header) (store : Store) (asked : Bytes) :
    Guarded (Option Bytes × Store) := do
  let request ← request asked
  let handled ← handle store header.unit request
  match handled.reply with
  | some response => return (some (← wrap framing header (← pdu response)), handled.store)
  | none => return (none, handled.store)

/-! ## They stay within -/

lemma parse_eq (framing : Framing) (adu : Bytes) :
    parse framing adu = within (framing.parse adu) := by
  cases framing with
  | rtu => exact Binary.parse_eq adu
  | ascii => exact Characters.parse_eq adu
  | tcp _ => exact Network.parse_eq adu

/-- What is read from the parts of a frame. -/
lemma parse_bind {α : Type} {framing : Framing} {adu : Bytes} {read : Header × Bytes → Guarded α}
    {result : Header × Bytes → Result α} (h : ∀ parts, read parts = within (result parts)) :
    (parse framing adu >>= read) = within (framing.parse adu >>= result) := by
  rw [parse_eq]
  exact bind_within fun parts _ => h parts

lemma wrap_eq (framing : Framing) (header : Header) {pdu : Bytes} (h : pdu.length < 2 ^ 18) :
    wrap framing header pdu = pure (framing.wrap header pdu) := by
  cases framing with
  | rtu => rw [wrap, plus_eq (by omega), pure_bind, plus_eq (by omega), pure_bind]
  | ascii =>
      rw [wrap, plus_eq (by omega), pure_bind, times_eq (by omega), pure_bind, plus_eq (by omega),
        pure_bind, plus_eq (by omega), pure_bind]
  | tcp _ =>
      rw [wrap, plus_eq (by omega), pure_bind, plus_eq (by rw [Network.header]; omega), pure_bind]

lemma serve_eq (framing : Framing) (header : Header) {store : Store} (h : store.identity.Built)
    (asked : Bytes) :
    serve framing header store asked
      = within ((Request.ofPdu asked).map fun request =>
          ((store.handle header.unit request).reply.map (framing.writeResponse header),
            (store.handle header.unit request).store)) := by
  rw [serve, request_eq, ← map_within]
  refine bind_congr fun request => ?_
  rw [handle_eq h, pure_bind]
  cases hreply : (store.handle header.unit request).reply with
  | none => rfl
  | some response =>
      have hmoderate := moderate_of_handle hreply
      dsimp only
      rw [pdu_eq hmoderate, pure_bind, wrap_eq framing header (length_toPdu_lt hmoderate),
        pure_bind]
      rfl

end Frame

/-- **No byte string leads outside.** -/
structure StaysWithin (framing : Framing) : Prop where
  parse (adu : Bytes) : (Frame.parse framing adu).run = some (framing.parse adu)
  responseComplete (bytes : Bytes) :
    (Frame.responseComplete framing bytes).run = some (.ok (framing.responseComplete bytes))
  requestComplete (bytes : Bytes) :
    (Frame.requestComplete framing bytes).run = some (.ok (framing.requestComplete bytes))
  validate (request response : Bytes) :
    (Frame.validate framing request response).run = some (framing.validate request response)
  readRequest (adu : Bytes) : (Frame.readRequest framing adu).run = some (framing.readRequest adu)
  readBits (table : BitTable) (adu : Bytes) (start count : UInt16) :
    (Frame.readBits framing table adu start count).run
      = some (framing.readBits table adu start count)
  readWords (table : WordTable) (adu : Bytes) (start count : UInt16) :
    (Frame.readWords framing table adu start count).run
      = some (framing.readWords table adu start count)
  readCoil (adu : Bytes) : (Frame.readCoil framing adu).run = some (framing.readCoil adu)
  readRegister (adu : Bytes) :
    (Frame.readRegister framing adu).run = some (framing.readRegister adu)
  readRange (function : Function) (adu : Bytes) :
    (Frame.readRange framing function adu).run = some (framing.readRange function adu)
  readFragment (adu : Bytes) :
    (Frame.readFragment framing adu).run = some (framing.readFragment adu)
  /-- A device whose identification was stored object by object. -/
  serve (header : Header) (store : Store) (asked : Bytes) (hbuilt : store.identity.Built) :
    (Frame.serve framing header store asked).run
      = some ((Request.ofPdu asked).map fun request =>
          ((store.handle header.unit request).reply.map (framing.writeResponse header),
            (store.handle header.unit request).store))

/-- **Nothing that arrives leads outside its bytes**, in any framing: not when a frame is taken
apart, found complete, checked against a request or read as a request or a reply, and not when a
device reads a request PDU, handles it and writes its reply. -/
theorem framing_staysWithin (framing : Framing) : StaysWithin framing where
  parse adu := by rw [Frame.parse_eq, run_within]
  responseComplete bytes := by
    cases framing with
    | rtu => exact congrArg ExceptT.run (Binary.responseComplete_eq bytes)
    | ascii => rfl
    | tcp _ => exact congrArg ExceptT.run (Network.complete_eq bytes)
  requestComplete bytes := by
    cases framing with
    | rtu => exact congrArg ExceptT.run (Binary.requestComplete_eq bytes)
    | ascii => rfl
    | tcp _ => exact congrArg ExceptT.run (Network.complete_eq bytes)
  validate request response := by
    cases framing with
    | rtu => exact congrArg ExceptT.run (Binary.validate_eq request response)
    | ascii => exact congrArg ExceptT.run (Characters.validate_eq request response)
    | tcp checked => exact congrArg ExceptT.run (Network.validate_eq checked request response)
  readRequest adu := by
    refine congrArg ExceptT.run (Frame.parse_bind fun (header, pdu) => ?_)
    dsimp only
    rw [request_eq]
    exact bind_within fun _ _ => rfl
  readBits table adu start count := by
    refine congrArg ExceptT.run (Frame.parse_bind fun (_, pdu) => ?_)
    dsimp only
    rw [readBits_eq]
    exact bind_within fun _ _ => rfl
  readWords table adu start count := by
    refine congrArg ExceptT.run (Frame.parse_bind fun (_, pdu) => ?_)
    dsimp only
    rw [readWords_eq]
    exact bind_within fun _ _ => rfl
  readCoil adu := congrArg ExceptT.run (Frame.parse_bind fun (_, pdu) => coil_eq pdu)
  readRegister adu := congrArg ExceptT.run (Frame.parse_bind fun (_, pdu) => register_eq pdu)
  readRange function adu :=
    congrArg ExceptT.run (Frame.parse_bind fun (_, pdu) => echo_eq function.code pdu)
  readFragment adu := congrArg ExceptT.run (Frame.parse_bind fun (_, pdu) => fragment_eq pdu)
  serve header store asked hbuilt := by rw [Frame.serve_eq framing header hbuilt, run_within]

/-- The object of a device that has one, asked for by a network frame. -/
theorem one_object_served_within :
    let identity : Identity :=
      { object := fun id => if id = 0x00 then some [0x56, 0x4D] else Identity.empty.object id }
    let store : Store := { unit := fun unit => if unit = 0x01 then some {} else none, identity }
    let frame : Bytes := [0x00, 0x07, 0x00, 0x00, 0x00, 0x0C, 0x01, 0x2B, 0x0E, 0x04, 0x81, 0x00,
      0x00, 0x01, 0x00, 0x02, 0x56, 0x4D]
    store.identity.Built ∧
      (Frame.serve (.tcp true) ⟨0x01, some 0x0007⟩ store [0x2B, 0x0E, 0x04, 0x00]).run
        = some (.ok (some frame, store)) := by
  intro identity store frame
  have hset : Identity.empty.set 0x00 [0x56, 0x4D] = .ok identity := rfl
  have hbuilt : store.identity.Built := .set .empty hset
  have hserve := (framing_staysWithin (.tcp true)).serve ⟨0x01, some 0x0007⟩ store
    [0x2B, 0x0E, 0x04, 0x00] hbuilt
  have hreply : (store.handle 0x01 (.identify .individual 0x00)).reply.map
      ((Framing.tcp true).writeResponse ⟨0x01, some 0x0007⟩) = some frame := by decide +kernel
  refine ⟨hbuilt, hserve.trans ?_⟩
  rw [← hreply]
  rfl

end Modbus.Guarded
