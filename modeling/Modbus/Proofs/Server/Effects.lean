import Modbus.Proofs.Grammar
import Modbus.Wire

/-!
# What a frame does to a device

A device is given one frame (`Device.serve`), which may hold anything.  This file shows that it does
all of what the frame asks for or nothing (`exact_of_frame`).  Unless the response confirms a write
the device is as before and reports nothing.  If it does, the frame holds the PDU of a write
(`Write.Ordered`), and all that has changed is what this write says: the cells of its range read as
its values, as `Write.laid` has it, and they are reported once.

The device writes cell after cell and finds the range in the cells.  `Write.overlay_sequence` is the
bridge between the two: a sequence of cells laid over a table is its values laid from its start on,
since the range was checked not to run past the last address.
-/

namespace Modbus

/-! ## One frame -/

/-- **What one frame comes to at a device.** -/
structure Device.Service where
  /-- The response to the request, if there is one. -/
  response : Option Response := none
  /-- The frame that carries it. -/
  frame : Option Bytes := none
  /-- The writes reported. -/
  writes : List Notification := []
  device : Device

/-- **A device given one frame**: the request in it is handled, and the response wrapped like the
request.  A frame that cannot be read is dropped. -/
def Device.serve (framing : Framing) (device : Device) (adu : Bytes) : Device.Service :=
  match framing.readRequest adu with
  | .error _ => { device }
  | .ok (header, request) =>
    let (response, writes, after) := device.handle header.unit request
    ⟨response, response.map (framing.writeResponse header), writes, after⟩

/-- A simulated device at the end of a link does the same. -/
lemma Responder.serve_eq (framing : Framing) (device : Device) (adu : Bytes) :
    Responder.serve framing device.store adu
      = ((device.serve framing adu).frame, (device.serve framing adu).device.store) := by
  cases hread : framing.readRequest adu with
  | error error => simp only [Responder.serve, Device.serve, hread]
  | ok parsed =>
      simp only [Responder.serve, Device.serve, hread]
      rfl

/-! ## Writes -/

/-- **What a write says**: which values are written, from which address on. -/
inductive Write where
  | coils (start : UInt16) (values : List Bool)
  | registers (start : UInt16) (values : List UInt16)

namespace Write

variable {α : Type}

def start : Write → UInt16
  | coils start _ => start
  | registers start _ => start

/-- The number of cells that are written. -/
def count : Write → Nat
  | coils _ values => values.length
  | registers _ values => values.length

/-- **A table with values laid over it** from an address on; it reads as before everywhere else. -/
def laid (table : UInt16 → α) (start : UInt16) (values : List α) : UInt16 → α :=
  fun address =>
    if start ≤ address then values[address.toNat - start.toNat]?.getD (table address)
    else table address

/-- **What a write does to a unit.** -/
def effect : Write → Image → Image
  | coils start values, image => { image with coil := laid image.coil start values }
  | registers start values, image =>
    { image with holdingRegister := laid image.holdingRegister start values }

/-- **The report of a write**: its cells, from its start on. -/
def notification (unit : UnitId) : Write → Notification
  | coils start values => .coils unit (Cell.sequence start values)
  | registers start values => .registers unit (Cell.sequence start values)

/-- A read of the range that a write covers. -/
def reading : Write → Request
  | coils start values => .readBits .coils start (UInt16.ofNat values.length)
  | registers start values => .readWords .holdingRegisters start (UInt16.ofNat values.length)

/-- The response that carries the values written. -/
def readout : Write → Response
  | coils _ values => .bits .coils values
  | registers _ values => .words .holdingRegisters values

/-- **The PDU of a write.** -/
inductive Ordered : Bytes → Write → Prop where
  | coil (address : UInt16) (on : Bool) :
      Ordered (Function.writeCoil.code :: (Word.toBytes address ++ Word.toBytes (coilWord on)))
        (.coils address [on])
  | register (address value : UInt16) :
      Ordered (Function.writeRegister.code :: (Word.toBytes address ++ Word.toBytes value))
        (.registers address [value])
  | coils {start count : UInt16} {size : UInt8} {data : Bytes}
      (hsize : size.toNat = Bits.bytesFor count.toNat) (hdata : data.length = size.toNat) :
      Ordered (Function.writeCoils.code
          :: (Word.toBytes start ++ Word.toBytes count ++ size :: data))
        (.coils start (Bits.unpack data count.toNat))
  | registers {start count : UInt16} {size : UInt8} {values : List UInt16}
      (hsize : size.toNat = 2 * values.length) (hcount : count.toNat = values.length) :
      Ordered (Function.writeRegisters.code
          :: (Word.toBytes start ++ Word.toBytes count ++ size :: Word.listToBytes values))
        (.registers start values)

/-! ## Values laid over a table -/

/-- The cell at a place of a sequence. -/
lemma getElem?_sequence : ∀ (start : UInt16) (values : List α) (index : Nat),
    (Cell.sequence start values)[index]?
      = values[index]?.map fun value => ⟨start + UInt16.ofNat index, value⟩
  | _, [], index => by simp [Cell.sequence]
  | start, first :: rest, 0 => by simp [Cell.sequence]
  | start, first :: rest, index + 1 => by
      have hnext : start + 1 + UInt16.ofNat index = start + UInt16.ofNat (index + 1) := by
        rw [UInt16.add_assoc, UInt16.ofNat_add, UInt16.add_comm 1]
        rfl
      rw [Cell.sequence, List.getElem?_cons_succ, List.getElem?_cons_succ,
        getElem?_sequence (start + 1) rest index, hnext]

lemma nodup_sequence {start : UInt16} {values : List α}
    (hspace : start.toNat + values.length ≤ 65536) :
    ((Cell.sequence start values).map Cell.address).Nodup := by
  refine .of_map UInt16.toNat ?_
  rw [List.map_map]
  exact Cell.map_address_sequence start values hspace ▸ List.nodup_range' ..

/-- An address within a range that does not run past the last one. -/
lemma toNat_place {start : UInt16} {index length : Nat} (hspace : start.toNat + length ≤ 65536)
    (hindex : index < length) : (start + UInt16.ofNat index).toNat = start.toNat + index := by
  rw [UInt16.toNat_add, UInt16.toNat_ofNat']
  omega

lemma laid_place (table : UInt16 → α) {start : UInt16} {values : List α} {index : Nat} {value : α}
    (hspace : start.toNat + values.length ≤ 65536) (hvalue : values[index]? = some value) :
    laid table start values (start + UInt16.ofNat index) = value := by
  have haddress := toNat_place hspace (List.getElem?_eq_some_iff.mp hvalue).1
  have hle : start ≤ start + UInt16.ofNat index := by
    rw [UInt16.le_iff_toNat_le, haddress]
    omega
  rw [laid, if_pos hle, haddress, Nat.add_sub_cancel_left, hvalue, Option.getD_some]

/-- **Cells in sequence laid over a table** are their values laid from the first address on. -/
lemma overlay_sequence (table : UInt16 → α) {start : UInt16} {values : List α}
    (hspace : start.toNat + values.length ≤ 65536) :
    overlay table (Cell.sequence start values) = laid table start values := by
  funext address
  by_cases hin : ∃ cell ∈ Cell.sequence start values, cell.address = address
  · obtain ⟨cell, hcell, rfl⟩ := hin
    rw [overlay_of_mem table (nodup_sequence hspace) hcell]
    obtain ⟨index, hindex⟩ := List.mem_iff_getElem?.mp hcell
    rw [getElem?_sequence, Option.map_eq_some_iff] at hindex
    obtain ⟨value, hvalue, rfl⟩ := hindex
    exact (laid_place table hspace hvalue).symm
  · push Not at hin
    rw [overlay_of_notMem table hin, laid]
    split_ifs with hle
    · cases hvalue : values[address.toNat - start.toNat]? with
      | none => rfl
      | some value =>
          have hindex := (List.getElem?_eq_some_iff.mp hvalue).1
          have haddress : start + UInt16.ofNat (address.toNat - start.toNat) = address := by
            rw [← UInt16.toNat_inj, toNat_place hspace hindex]
            exact Nat.add_sub_cancel' (UInt16.le_iff_toNat_le.mp hle)
          have hcell : (Cell.sequence start values)[address.toNat - start.toNat]?
              = some ⟨start + UInt16.ofNat (address.toNat - start.toNat), value⟩ := by
            rw [getElem?_sequence, hvalue, Option.map_some]
          exact absurd haddress (hin _ (List.mem_of_getElem? hcell))
    · rfl

/-- **Values laid over a table are read back.** -/
lemma read_laid (table : UInt16 → α) {start : UInt16} {values : List α}
    (hspace : start.toNat + values.length ≤ 65536) :
    Image.read (laid table start values) start values.length = values := by
  refine List.ext_getElem (by rw [length_read]) fun index _ hindex => ?_
  have hvalue := laid_place table hspace (List.getElem?_eq_getElem hindex)
  simpa only [Image.read, List.getElem_map, List.getElem_range] using hvalue

end Write

/-! ## What a device does with a write -/

/-- Whether a response confirms a write. -/
def Response.confirms : Response → Bool
  | coilWritten _ => true
  | registerWritten _ => true
  | coilsWritten _ _ => true
  | registersWritten _ _ => true
  | _ => false

lemma Identity.confirms_answer (identity : Identity) (category : Category) (object : UInt8) :
    (identity.answer category object Limit.maxPdu).confirms = false := by
  unfold Identity.answer
  split <;> rfl

/-- The write that a request asks for, if it asks for one. -/
def Request.order? : Request → Option Write
  | writeCoil coil => some (.coils coil.address [coil.value])
  | writeRegister register => some (.registers register.address [register.value])
  | writeCoils coils => some (.coils (range coils).1 (coils.map Cell.value))
  | writeRegisters registers => some (.registers (range registers).1 (registers.map Cell.value))
  | _ => none

namespace Store

variable {store : Store} {unit : UnitId}

lemma confirmCoils_sequence (h : store.hasUnit unit = true) {start : UInt16} {values : List Bool}
    (hspace : start.toNat + values.length ≤ 65536) (reply : Response) :
    store.confirmCoils unit (Cell.sequence start values) reply
      = ⟨some reply, store.adjust unit (Write.coils start values).effect,
          [(Write.coils start values).notification unit]⟩ := by
  rw [confirmCoils, setCoils_eq h (Write.nodup_sequence hspace)]
  simp only [Write.overlay_sequence _ hspace]
  rfl

lemma confirmRegisters_sequence (h : store.hasUnit unit = true) {start : UInt16}
    {values : List UInt16} (hspace : start.toNat + values.length ≤ 65536) (reply : Response) :
    store.confirmRegisters unit (Cell.sequence start values) reply
      = ⟨some reply, store.adjust unit (Write.registers start values).effect,
          [(Write.registers start values).notification unit]⟩ := by
  rw [confirmRegisters, setRegisters_eq h (Write.nodup_sequence hspace)]
  simp only [Write.overlay_sequence _ hspace]
  rfl

/-- **Without a write, or without the unit,** a store is as before, and nothing is reported or
confirmed. -/
lemma handle_of_unordered {request : Request}
    (h : request.order? = none ∨ store.hasUnit unit = false) :
    (store.handle unit request).store = store ∧ (store.handle unit request).writes = [] ∧
      ∀ response, (store.handle unit request).reply = some response →
        response.confirms = false := by
  have hfixed {reply response : Response} (hreply : reply.confirms = false)
      (hsame : some reply = some response) : response.confirms = false :=
    Option.some.inj hsame ▸ hreply
  by_cases hunit : store.hasUnit unit = true
  · have horder : request.order? = none := h.resolve_right (by simp [hunit])
    simp only [handle, hunit, Bool.not_true, Bool.false_eq_true, if_false]
    cases request with
    | writeCoil coil => simp [Request.order?] at horder
    | writeRegister register => simp [Request.order?] at horder
    | writeCoils coils => simp [Request.order?] at horder
    | writeRegisters registers => simp [Request.order?] at horder
    | readBits table start count =>
        refine ⟨rfl, rfl, fun response hresponse => ?_⟩
        obtain ⟨values, -, rfl⟩ := Option.map_eq_some_iff.mp hresponse
        rfl
    | readWords table start count =>
        refine ⟨rfl, rfl, fun response hresponse => ?_⟩
        obtain ⟨values, -, rfl⟩ := Option.map_eq_some_iff.mp hresponse
        rfl
    | identify category object =>
        exact ⟨rfl, rfl, fun _ => hfixed (Identity.confirms_answer store.identity category object)⟩
    | invalid function fault => exact ⟨rfl, rfl, fun _ => hfixed rfl⟩
    | unsupported function => exact ⟨rfl, rfl, fun _ => hfixed rfl⟩
  · simp [handle, hunit]

end Store

/-- **A write as a device makes it**, at a unit that exists. -/
structure Write.Done (write : Write) (pdu : Bytes) (request : Request) : Prop where
  ordered : Ordered pdu write
  space : write.start.toNat + write.count ≤ 65536
  short : write.count < 65536
  handled : ∀ (store : Store) (unit : UnitId), store.hasUnit unit = true →
    ∃ response : Response, response.confirms = true ∧ response.toPdu = pdu.take 5 ∧
      store.handle unit request
        = ⟨some response, store.adjust unit write.effect, [write.notification unit]⟩

/-- **Every write that is served** is made as it is ordered. -/
lemma Request.Layout.done {function : Function} {payload : Bytes} {request : Request}
    {write : Write} (h : Layout function payload request) (horder : request.order? = some write) :
    write.Done (function.code :: payload) request := by
  cases h with
  | readBits _ => simp [order?] at horder
  | readWords _ => simp [order?] at horder
  | identify _ => simp [order?] at horder
  | @writeCoil address word on hword =>
      obtain rfl := Option.some.inj horder
      obtain rfl := coilWord_of_coilState? hword
      have hspace : address.toNat + [on].length ≤ 65536 := address.toNat_lt
      refine ⟨.coil address on, hspace, by simp [Write.count], fun store unit hunit =>
        ⟨.coilWritten ⟨address, on⟩, rfl, rfl, ?_⟩⟩
      simp only [Store.handle, hunit]
      exact Store.confirmCoils_sequence hunit hspace _
  | @writeRegister address value =>
      obtain rfl := Option.some.inj horder
      have hspace : address.toNat + [value].length ≤ 65536 := address.toNat_lt
      refine ⟨.register address value, hspace, by simp [Write.count], fun store unit hunit =>
        ⟨.registerWritten ⟨address, value⟩, rfl, rfl, ?_⟩⟩
      simp only [Store.handle, hunit]
      exact Store.confirmRegisters_sequence hunit hspace _
  | @writeCoils start count size data hrange hsize hdata =>
      have hvalues : (Bits.unpack data count.toNat).length = count.toNat := Bits.length_unpack ..
      have hcells : range (Cell.sequence start (Bits.unpack data count.toNat)) = (start, count) :=
        range_sequence hrange hvalues
      have hspace : start.toNat + (Bits.unpack data count.toNat).length ≤ 65536 := by
        rw [hvalues]
        exact (rangeFault?_eq_none.mp hrange).2.2
      simp only [order?, hcells, Cell.map_value_sequence, Option.some.injEq] at horder
      subst horder
      refine ⟨.coils hsize hdata, hspace, hvalues.trans_lt count.toNat_lt, fun store unit hunit =>
        ⟨.coilsWritten start count, rfl, rfl, ?_⟩⟩
      simp only [Store.handle, hunit, hcells]
      exact Store.confirmCoils_sequence hunit hspace _
  | @writeRegisters start count size data hrange hsize hdata =>
      have hvalues : (Word.listOfBytes data).length = count.toNat := by
        rw [length_listOfBytes]
        omega
      have hbytes : Word.listToBytes (Word.listOfBytes data) = data :=
        Word.listToBytes_listOfBytes data (by omega)
      have hcells : range (Cell.sequence start (Word.listOfBytes data)) = (start, count) :=
        range_sequence hrange hvalues
      have hspace : start.toNat + (Word.listOfBytes data).length ≤ 65536 := by
        rw [hvalues]
        exact (rangeFault?_eq_none.mp hrange).2.2
      simp only [order?, hcells, Cell.map_value_sequence, Option.some.injEq] at horder
      subst horder
      have hordered : Write.Ordered (Function.writeRegisters.code
          :: (Word.toBytes start ++ Word.toBytes count ++ size :: data))
          (.registers start (Word.listOfBytes data)) := by
        have h : size.toNat = 2 * (Word.listOfBytes data).length := hvalues ▸ hsize
        have hpdu := @Write.Ordered.registers start count size _ h hvalues.symm
        rwa [hbytes] at hpdu
      refine ⟨hordered, hspace, hvalues.trans_lt count.toNat_lt, fun store unit hunit =>
        ⟨.registersWritten start count, rfl, rfl, ?_⟩⟩
      simp only [Store.handle, hunit, hcells]
      exact Store.confirmRegisters_sequence hunit hspace _

/-! ## All or nothing -/

/-- **A frame that orders a write**, at a unit that exists, and what it comes to. -/
structure Write.Made (write : Write) (framing : Framing) (device : Device) (header : Header)
    (pdu : Bytes) (service : Device.Service) : Prop where
  ordered : Ordered pdu write
  /-- The range does not run past the last address. -/
  space : write.start.toNat + write.count ≤ 65536
  known : device.store.hasUnit header.unit = true
  /-- The cells of the range are changed, and nothing else is. -/
  changed : service.device = { device with store := device.store.adjust header.unit write.effect }
  /-- They are reported once, if anybody listens. -/
  reported : service.writes = if device.listened then [write.notification header.unit] else []
  /-- The reply repeats the start and the count, or the address and the value. -/
  echoed : service.frame = some (framing.wrap header (pdu.take 5))
  /-- A read of the range that follows, over whatever framing, gives what was written. -/
  readBack : ∀ (other : Framing) (asked : Bytes) (asking : Header),
    other.readRequest asked = .ok (asking, write.reading) → asking.unit = header.unit →
      (service.device.serve other asked).response = some write.readout

/-- **All of what a frame asks for is done, or nothing.** -/
structure Device.Exact (device : Device) (framing : Framing) (adu : Bytes) : Prop where
  /-- Without a confirmation nothing has changed. -/
  spared : (∀ response, (device.serve framing adu).response = some response →
      response.confirms = false) →
    (device.serve framing adu).writes = [] ∧ (device.serve framing adu).device = device
  /-- Nothing changes for a request that is not for a write. -/
  kept : ∀ header request, framing.readRequest adu = .ok (header, request) →
    request.order? = none →
      (device.serve framing adu).writes = [] ∧ (device.serve framing adu).device = device
  /-- What is confirmed has been done. -/
  made : ∀ response, (device.serve framing adu).response = some response →
    response.confirms = true → ∃ header pdu write, framing.parse adu = .ok (header, pdu) ∧
      Write.Made write framing device header pdu (device.serve framing adu)
  /-- A write that is read is confirmed, if the unit exists. -/
  granted : ∀ header request, framing.readRequest adu = .ok (header, request) →
    request.order?.isSome = true → device.store.hasUnit header.unit = true →
      ∃ response, (device.serve framing adu).response = some response ∧ response.confirms = true

variable {device : Device} {framing : Framing} {adu : Bytes} {header : Header} {request : Request}

lemma Device.serve_of_read (device : Device)
    (hread : framing.readRequest adu = .ok (header, request)) :
    device.serve framing adu =
      ⟨(device.store.handle header.unit request).reply,
        (device.store.handle header.unit request).reply.map (framing.writeResponse header),
        if device.listened then (device.store.handle header.unit request).writes else [],
        { device with store := (device.store.handle header.unit request).store }⟩ := by
  simp only [serve, hread]
  rfl

/-- **A write that is read** can be made as it is ordered. -/
lemma Write.done_of_ofPdu {pdu : Bytes} {write : Write} (hread : Request.ofPdu pdu = .ok request)
    (horder : request.order? = some write) : write.Done pdu request := by
  have hserved : request.isServed = true := by
    cases request <;> first | rfl | simp [Request.order?] at horder
  obtain ⟨code, payload, function, rfl, hfunction, hlayout⟩ :=
    Request.layout_of_ofPdu hread hserved
  obtain rfl := Function.code_of_ofCode? hfunction
  exact hlayout.done horder

/-- **What was written is read back.** -/
lemma Write.handle_reading {store : Store} {unit : UnitId} {write : Write}
    (hunit : store.hasUnit unit = true) (hspace : write.start.toNat + write.count ≤ 65536)
    (hshort : write.count < 65536) :
    ((store.adjust unit write.effect).handle unit write.reading).reply = some write.readout := by
  obtain ⟨image, himage⟩ := Option.isSome_iff_exists.mp hunit
  have hafter : (store.adjust unit write.effect).unit unit = some (write.effect image) := by
    simp [Store.adjust, himage]
  have hcount : (UInt16.ofNat write.count).toNat = write.count := by
    rw [UInt16.toNat_ofNat']
    omega
  cases write with
  | coils start values =>
      have hread : (store.adjust unit (Write.coils start values).effect).readBits unit .coils start
          (UInt16.ofNat values.length) = some values := by
        rw [Store.readBits, hafter, Option.map_some]
        exact congrArg some ((congrArg _ hcount).trans (read_laid image.coil hspace))
      simp [Store.handle, Store.hasUnit, hafter, reading, readout, hread]
  | registers start values =>
      have hread : (store.adjust unit (Write.registers start values).effect).readWords unit
          .holdingRegisters start (UInt16.ofNat values.length) = some values := by
        rw [Store.readWords, hafter, Option.map_some]
        exact congrArg some ((congrArg _ hcount).trans (read_laid image.holdingRegister hspace))
      simp [Store.handle, Store.hasUnit, hafter, reading, readout, hread]

/-- **A write that is read is made**, at a unit that exists, and confirmed. -/
lemma Write.Done.made {pdu : Bytes} {write : Write} (h : write.Done pdu request)
    (hread : framing.readRequest adu = .ok (header, request))
    (hknown : device.store.hasUnit header.unit = true) :
    write.Made framing device header pdu (device.serve framing adu) ∧
      ∃ response, (device.serve framing adu).response = some response ∧
        response.confirms = true := by
  obtain ⟨response, hconfirms, hecho, hhandled⟩ := h.handled device.store header.unit hknown
  have hserve := device.serve_of_read hread
  rw [hhandled] at hserve
  rw [hserve]
  refine ⟨⟨h.ordered, h.space, hknown, rfl, rfl, ?_, fun other asked asking hasked hunit => ?_⟩,
    response, rfl, hconfirms⟩
  · simp only [Option.map_some, Framing.writeResponse, hecho]
  · rw [Device.serve_of_read _ hasked, hunit]
    exact Write.handle_reading hknown h.space h.short

/-- Without a write, or without the unit, a device is as before. -/
lemma Device.serve_of_unordered (hread : framing.readRequest adu = .ok (header, request))
    (hnone : request.order? = none ∨ device.store.hasUnit header.unit = false) :
    ((device.serve framing adu).writes = [] ∧ (device.serve framing adu).device = device) ∧
      ∀ response, (device.serve framing adu).response = some response →
        response.confirms = false := by
  obtain ⟨hstore, hwrites, hunconfirmed⟩ := Store.handle_of_unordered hnone
  rw [device.serve_of_read hread]
  exact ⟨⟨by simp only [hwrites, ite_self], by rw [hstore]⟩, hunconfirmed⟩

/-- **Whatever a frame holds, a device does all of what it asks for or nothing.** -/
theorem exact_of_frame (device : Device) (framing : Framing) (adu : Bytes) :
    device.Exact framing adu := by
  cases hread : framing.readRequest adu with
  | error error =>
      have hserve : device.serve framing adu = { device } := by simp only [Device.serve, hread]
      refine ⟨fun _ => by simp [hserve], fun header request hother => ?_,
        fun response hresponse => ?_, fun header request hother => ?_⟩
      · exact absurd (hread.symm.trans hother) nofun
      · simp [hserve] at hresponse
      · exact absurd (hread.symm.trans hother) nofun
  | ok read =>
      obtain ⟨header, request⟩ := read
      have hsame {header' : Header} {request' : Request}
          (hother : framing.readRequest adu = .ok (header', request')) :
          header = header' ∧ request = request' :=
        Prod.mk.inj (Except.ok.inj (hread.symm.trans hother))
      by_cases hnone : request.order? = none ∨ device.store.hasUnit header.unit = false
      · obtain ⟨hkept, hunconfirmed⟩ := Device.serve_of_unordered hread hnone
        refine ⟨fun _ => hkept, fun _ _ _ _ => hkept, fun response hresponse hconfirms => ?_,
          fun header' request' hother horder hunit => ?_⟩
        · simp [hunconfirmed response hresponse] at hconfirms
        · obtain ⟨rfl, rfl⟩ := hsame hother
          rcases hnone with hnone | hnone
          · simp [hnone] at horder
          · simp [hnone] at hunit
      · obtain ⟨horder, hunit⟩ := not_or.mp hnone
        obtain ⟨write, hwrite⟩ := Option.ne_none_iff_exists'.mp horder
        obtain ⟨pdu, hparse, hpdu⟩ := Framing.parse_of_readRequest hread
        obtain ⟨hmade, response, hresponse, hconfirms⟩ :=
          (Write.done_of_ofPdu hpdu hwrite).made hread (by simpa using hunit)
        refine ⟨fun hspared => ?_, fun header' request' hother hunordered => ?_,
          fun _ _ _ => ⟨header, pdu, write, hparse, hmade⟩,
          fun _ _ _ _ _ => ⟨response, hresponse, hconfirms⟩⟩
        · simp [hspared response hresponse] at hconfirms
        · obtain ⟨rfl, rfl⟩ := hsame hother
          exact absurd hunordered horder

/-- Three coils written at the top of the address space, where there are as many. -/
example :
    let device : Device := { store := ({} : Store).addUnit 0x11, listened := true }
    let sent : Bytes := [0x00, 0x01, 0x00, 0x00, 0x00, 0x08, 0x11,
      0x0F, 0xFF, 0xFD, 0x00, 0x03, 0x01, 0xFD]
    let service := device.serve (.tcp true) sent
    service.frame = some [0x00, 0x01, 0x00, 0x00, 0x00, 0x06, 0x11, 0x0F, 0xFF, 0xFD, 0x00, 0x03] ∧
      service.writes
        = [.coils 0x11 [⟨0xFFFD, true⟩, ⟨0xFFFE, false⟩, ⟨0xFFFF, true⟩]] ∧
      service.device.store.readBits 0x11 .coils 0xFFFC 4 = some [false, true, false, true] := by
  decide

end Modbus
