import Modbus.Proofs.Access
import Modbus.Proofs.BitPacking
import Modbus.Proofs.Framing.Wrapping

/-!
# Every accepted access is served

`Access.Served` follows one access through its PDUs: the request that the device reads, the
response it gives, the reply that the client concludes from.  Each of the six accesses has its own
lemma, since each has its own layout, and `Access.served_of_pdu` puts them together: an access
whose arguments are accepted is served, the device's memory changes as it is meant to, and the
client is told what it is meant to be told.  The last section says the same of the frames around
the PDUs.
-/

namespace Modbus

/-! ## Written payloads can be read -/

namespace Request

/-- **Accepted arguments of a read** are a range in order. -/
lemma readPdu_eq_ok {function : UInt8} {start count : UInt16} {pdu : Bytes}
    (h : readPdu function start count = .ok pdu) :
    pdu = function :: (Word.toBytes start ++ Word.toBytes count) ∧
      rangeFault? (if function = 0x01 ∨ function = 0x02 then Limit.readBits else Limit.readWords)
        start count = none := by
  simp only [readPdu] at h
  generalize (if function = 0x01 ∨ function = 0x02 then Limit.readBits else Limit.readWords) = max
    at h ⊢
  split_ifs at h with hcount hspace
  rw [Except.ok.injEq] at h
  rw [rangeFault?, if_neg hcount, if_neg hspace]
  exact ⟨h.symm, rfl⟩

lemma ofPdu_code (function : Function) (payload : Bytes) :
    ofPdu (function.code :: payload) = .ok (ofPayload function payload) := by
  simp [ofPdu]

lemma ofPdu_identifyPdu (category : Category) (object : UInt8) :
    ofPdu (identifyPdu category object) = .ok (.identify category object) := by
  rw [identifyPdu, ofPdu_code]
  simp [ofPayload]

lemma checked_eq {function : Function} {max start count : UInt16} {request : Request}
    (h : rangeFault? max start count = none) :
    checked function max start count request = request := by
  rw [checked, h]

lemma toNat_ofNat_length {data : Bytes} (h : data.length < 256) :
    (UInt8.ofNat data.length).toNat = data.length := by
  rw [UInt8.toNat_ofNat']
  omega

lemma writePayload?_written {bytesFor : Nat → Nat} {start count : UInt16} {data : Bytes}
    (hfits : data.length < 256) (hsize : data.length = bytesFor count.toNat) :
    writePayload? bytesFor
        (Word.toBytes start ++ Word.toBytes count ++ UInt8.ofNat data.length :: data)
      = some (start, count, data) := by
  rw [List.append_assoc]
  simp only [writePayload?, startAndCount_toBytes, toNat_ofNat_length hfits]
  rw [if_pos ⟨hsize, trivial⟩]

/-- **An accepted batch** has a range in order. -/
lemma Batched.rangeFault? {α : Type} {max : UInt16} {cells sorted : List (Cell α)}
    (h : Batched max cells sorted) :
    rangeFault? max (range sorted).1 (range sorted).2 = none := by
  have hsome := List.length_pos_iff.mpr h.some
  rw [rangeFault?_eq_none, h.count_toNat]
  exact ⟨hsome, h.short, h.space⟩

lemma batchPdu_eq {α : Type} (function : Function) (cells : List (Cell α)) (payload : Bytes) :
    batchPdu function cells payload = function.code ::
      (Word.toBytes (range cells).1 ++ Word.toBytes (range cells).2
        ++ UInt8.ofNat payload.length :: payload) := by
  simp [batchPdu]

lemma length_listToBytes (words : List UInt16) :
    (Word.listToBytes words).length = 2 * words.length := by
  induction words with
  | nil => rfl
  | cons word rest ih =>
      simp only [Word.listToBytes] at ih
      simp only [Word.listToBytes, List.flatMap_cons, List.length_append, Word.length_toBytes, ih,
        List.length_cons]
      omega

end Request

namespace Reply

lemma payload_code (code : UInt8) (rest : Bytes) : payload code (code :: rest) = .ok rest := by
  simp [payload]

lemma data_counted (code : UInt8) {bytes : Bytes} (h : bytes.length < 256) :
    data code (code :: Response.counted bytes) = .ok bytes :=
  data_eq_ok.mpr ⟨_, rfl, (Request.toNat_ofNat_length h).symm⟩

lemma echo_written (code : UInt8) (first second : UInt16) :
    echo code (code :: (Word.toBytes first ++ Word.toBytes second)) = .ok (first, second) :=
  echo_eq_ok.mpr rfl

end Reply

/-! ## The six accesses -/

namespace Access

/-- **An access followed through its PDUs**, at a unit with a given image. -/
structure Served (access : Access) (pdu : Bytes) (image : Image) (request : Request)
    (response : Response) : Prop where
  read : Request.ofPdu pdu = .ok request
  served : request.isServed = true
  handled : ∀ (store : Store) (unit : UnitId), store.unit unit = some image →
    (store.handle unit request).reply = some response ∧
      (store.handle unit request).store = access.apply unit store
  echoed : ∃ (function : Function) (asked answer : Bytes),
    pdu = function.code :: asked ∧ response.toPdu = function.code :: answer
  fits : response.toPdu.length ≤ Limit.maxPdu
  shape : Reply.checkShape pdu response.toPdu = .ok ()
  concluded : ∃ outcome,
    access.conclude response.toPdu = .ok outcome ∧ access.Answered image outcome

lemma served_readBits {table : BitTable} {start count : UInt16} (image : Image)
    (hrange : Request.rangeFault? Limit.readBits start count = none) :
    Served (.readBits table start count)
      (table.code :: (Word.toBytes start ++ Word.toBytes count)) image
      (.readBits table start count)
      (.bits table (Image.read (image.bits table) start count.toNat)) := by
  have hcode : Function.ofCode? table.code = some (.readBits table) :=
    Function.ofCode?_code (.readBits table)
  obtain ⟨-, hmax, hspace⟩ := Request.rangeFault?_eq_none.mp hrange
  have hlimit : Limit.readBits.toNat = 2000 := rfl
  have hlen : (Bits.pack (Image.read (image.bits table) start count.toNat)).length
      = Bits.bytesFor count.toNat := by
    rw [Bits.length_pack, length_read]
  have hshort : (Bits.pack (Image.read (image.bits table) start count.toNat)).length < 251 := by
    rw [hlen, Bits.bytesFor]
    omega
  have hdata := Reply.data_counted table.code
    (show (Bits.pack (Image.read (image.bits table) start count.toNat)).length < 256 by omega)
  refine ⟨?_, rfl, ?_, ⟨.readBits table, _, _, rfl, rfl⟩, ?_, ?_, ?_⟩
  · rw [Request.ofPdu, hcode]
    simp [Request.ofPayload, Request.startAndCount, Word.toBytes, Request.checked_eq hrange]
  · intro store unit hunit
    simp only [Store.handle, Store.hasUnit, hunit, Store.readBits]
    exact ⟨rfl, (Store.adjust_id store unit).symm⟩
  · simp only [Response.toPdu, Response.counted, List.length_cons, Limit.maxPdu]
    omega
  · simp only [Reply.checkShape, Response.toPdu, hcode, hdata]
    rfl
  · refine ⟨.bits (Cell.sequence start (Image.read (image.bits table) start count.toNat)), ?_,
      covers_sequence (image.bits table) hspace⟩
    have hunpack := Bits.unpack_pack (Image.read (image.bits table) start count.toNat)
    rw [length_read] at hunpack
    simp only [conclude, Reply.bits, Response.toPdu, hdata, Result.ok_bind, hlen, if_true,
      hunpack]
    rfl

lemma served_readWords {table : WordTable} {start count : UInt16} (image : Image)
    (hrange : Request.rangeFault? Limit.readWords start count = none) :
    Served (.readWords table start count)
      (table.code :: (Word.toBytes start ++ Word.toBytes count)) image
      (.readWords table start count)
      (.words table (Image.read (image.words table) start count.toNat)) := by
  have hcode : Function.ofCode? table.code = some (.readWords table) :=
    Function.ofCode?_code (.readWords table)
  obtain ⟨-, hmax, hspace⟩ := Request.rangeFault?_eq_none.mp hrange
  have hlimit : Limit.readWords.toNat = 125 := rfl
  have hlen : (Word.listToBytes (Image.read (image.words table) start count.toNat)).length
      = 2 * count.toNat := by
    rw [Request.length_listToBytes, length_read]
  have hdata := Reply.data_counted table.code
    (show (Word.listToBytes (Image.read (image.words table) start count.toNat)).length < 256 by
      omega)
  refine ⟨?_, rfl, ?_, ⟨.readWords table, _, _, rfl, rfl⟩, ?_, ?_, ?_⟩
  · rw [Request.ofPdu, hcode]
    simp [Request.ofPayload, Request.startAndCount, Word.toBytes, Request.checked_eq hrange]
  · intro store unit hunit
    simp only [Store.handle, Store.hasUnit, hunit, Store.readWords]
    exact ⟨rfl, (Store.adjust_id store unit).symm⟩
  · simp only [Response.toPdu, Response.counted, List.length_cons, Limit.maxPdu]
    omega
  · simp only [Reply.checkShape, Response.toPdu, hcode, hdata]
    rfl
  · refine ⟨.words (Cell.sequence start (Image.read (image.words table) start count.toNat)), ?_,
      covers_sequence (image.words table) hspace⟩
    have htake : (Image.read (image.words table) start count.toNat).take count.toNat
        = Image.read (image.words table) start count.toNat :=
      List.take_of_length_le (by rw [length_read])
    simp only [conclude, Reply.words, Response.toPdu, hdata, Result.ok_bind, hlen,
      Nat.lt_irrefl, if_false, Word.listOfBytes_listToBytes, htake]
    rfl

lemma served_writeCoil (coil : Coil) (image : Image) :
    Served (.writeCoil coil) (Request.writeCoilPdu coil) image (.writeCoil coil)
      (.coilWritten coil) := by
  have hecho := Reply.echo_written Function.writeCoil.code coil.address (coilWord coil.value)
  refine ⟨?_, rfl, ?_, ⟨.writeCoil, _, _, rfl, rfl⟩, ?_, ?_, ?_⟩
  · rw [Request.writeCoilPdu, List.cons_append, Request.ofPdu_code]
    simp [Request.ofPayload, Request.startAndCount, Word.toBytes]
  · intro store unit hunit
    have hexists : store.hasUnit unit = true := by simp [Store.hasUnit, hunit]
    simp only [Store.handle, hexists, Store.confirmCoils]
    exact ⟨rfl, Store.setCoils_eq hexists (List.nodup_singleton _)⟩
  · simp [Response.toPdu, Request.writeCoilPdu, Limit.maxPdu]
  · simp only [Reply.checkShape, Response.toPdu, Request.writeCoilPdu, List.cons_append,
      Function.ofCode?_code, hecho]
    rfl
  · refine ⟨.written true, ?_, rfl⟩
    simp only [conclude, Reply.coil, Response.toPdu, Request.writeCoilPdu, List.cons_append, hecho,
      Result.ok_bind, coilState?_coilWord]
    simp

lemma served_writeRegister (register : Register) (image : Image) :
    Served (.writeRegister register) (Request.writeRegisterPdu register) image
      (.writeRegister register) (.registerWritten register) := by
  have hecho := Reply.echo_written Function.writeRegister.code register.address register.value
  refine ⟨?_, rfl, ?_, ⟨.writeRegister, _, _, rfl, rfl⟩, ?_, ?_, ?_⟩
  · rw [Request.writeRegisterPdu, List.cons_append, Request.ofPdu_code]
    simp [Request.ofPayload, Request.startAndCount, Word.toBytes]
  · intro store unit hunit
    have hexists : store.hasUnit unit = true := by simp [Store.hasUnit, hunit]
    simp only [Store.handle, hexists, Store.confirmRegisters]
    exact ⟨rfl, Store.setRegisters_eq hexists (List.nodup_singleton _)⟩
  · simp [Response.toPdu, Request.writeRegisterPdu, Limit.maxPdu]
  · simp only [Reply.checkShape, Response.toPdu, Request.writeRegisterPdu, List.cons_append,
      Function.ofCode?_code, hecho]
    rfl
  · refine ⟨.written true, ?_, rfl⟩
    simp only [conclude, Reply.register, Response.toPdu, Request.writeRegisterPdu,
      List.cons_append, hecho, Result.ok_bind]
    simp

lemma served_writeCoils {coils sorted : List Coil} (image : Image)
    (h : Request.Batched Limit.writeCoils coils sorted) :
    Served (.writeCoils coils)
      (Request.batchPdu .writeCoils sorted (Bits.pack (sorted.map Cell.value))) image
      (.writeCoils sorted)
      (.coilsWritten (Request.range sorted).1 (Request.range sorted).2) := by
  have hlimit : Limit.writeCoils.toNat = 1968 := rfl
  have hshort := h.short
  have hlen : (Bits.pack (sorted.map Cell.value)).length
      = Bits.bytesFor (Request.range sorted).2.toNat := by
    rw [Bits.length_pack, List.length_map, h.count_toNat]
  have hfits : (Bits.pack (sorted.map Cell.value)).length < 256 := by
    rw [hlen, h.count_toNat, Bits.bytesFor]
    omega
  have hecho := Reply.echo_written Function.writeCoils.code (Request.range sorted).1
    (Request.range sorted).2
  rw [Request.batchPdu_eq]
  refine ⟨?_, rfl, ?_, ⟨.writeCoils, _, _, rfl, rfl⟩, ?_, ?_, ?_⟩
  · have hvalues := Bits.unpack_pack (sorted.map Cell.value)
    rw [List.length_map] at hvalues
    rw [Request.ofPdu_code]
    simp only [Request.ofPayload, Request.writePayload?_written hfits hlen,
      Request.checked_eq h.rangeFault?, h.count_toNat, hvalues, h.consecutive]
  · intro store unit hunit
    have hexists : store.hasUnit unit = true := by simp [Store.hasUnit, hunit]
    have hnodup := (h.perm.symm.map Cell.address).nodup_iff.mp h.nodup
    simp only [Store.handle, hexists, Store.confirmCoils, Store.setCoils_eq hexists hnodup,
      ← overlay_perm _ h.perm.symm h.nodup]
    exact ⟨rfl, rfl⟩
  · simp [Response.toPdu, Limit.maxPdu]
  · simp only [Reply.checkShape, Response.toPdu, List.cons_append, Function.ofCode?_code, hecho]
    rfl
  · refine ⟨.written true, ?_, rfl⟩
    simp only [conclude, Reply.range, Response.toPdu, List.cons_append, hecho, Result.ok_bind,
      h.written_eq]
    simp

lemma served_writeRegisters {registers sorted : List Register} (image : Image)
    (h : Request.Batched Limit.writeRegisters registers sorted) :
    Served (.writeRegisters registers)
      (Request.batchPdu .writeRegisters sorted (Word.listToBytes (sorted.map Cell.value))) image
      (.writeRegisters sorted)
      (.registersWritten (Request.range sorted).1 (Request.range sorted).2) := by
  have hlimit : Limit.writeRegisters.toNat = 123 := rfl
  have hshort := h.short
  have hlen : (Word.listToBytes (sorted.map Cell.value)).length
      = 2 * (Request.range sorted).2.toNat := by
    rw [Request.length_listToBytes, List.length_map, h.count_toNat]
  have hfits : (Word.listToBytes (sorted.map Cell.value)).length < 256 := by
    rw [hlen, h.count_toNat]
    omega
  have hecho := Reply.echo_written Function.writeRegisters.code (Request.range sorted).1
    (Request.range sorted).2
  rw [Request.batchPdu_eq]
  refine ⟨?_, rfl, ?_, ⟨.writeRegisters, _, _, rfl, rfl⟩, ?_, ?_, ?_⟩
  · rw [Request.ofPdu_code]
    simp only [Request.ofPayload, Request.writePayload?_written hfits hlen,
      Request.checked_eq h.rangeFault?, Word.listOfBytes_listToBytes, h.consecutive]
  · intro store unit hunit
    have hexists : store.hasUnit unit = true := by simp [Store.hasUnit, hunit]
    have hnodup := (h.perm.symm.map Cell.address).nodup_iff.mp h.nodup
    simp only [Store.handle, hexists, Store.confirmRegisters, Store.setRegisters_eq hexists hnodup,
      ← overlay_perm _ h.perm.symm h.nodup]
    exact ⟨rfl, rfl⟩
  · simp [Response.toPdu, Limit.maxPdu]
  · simp only [Reply.checkShape, Response.toPdu, List.cons_append, Function.ofCode?_code, hecho]
    rfl
  · refine ⟨.written true, ?_, rfl⟩
    simp only [conclude, Reply.range, Response.toPdu, List.cons_append, hecho, Result.ok_bind,
      h.written_eq]
    simp

/-- **Every accepted access is served.** -/
lemma served_of_pdu {access : Access} {pdu : Bytes} (h : access.pdu = .ok pdu) (image : Image) :
    ∃ request response, access.Served pdu image request response := by
  cases access with
  | readBits table start count =>
      obtain ⟨rfl, hrange⟩ := Request.readPdu_eq_ok h
      rw [if_pos (by cases table <;> decide)] at hrange
      exact ⟨_, _, served_readBits image hrange⟩
  | readWords table start count =>
      obtain ⟨rfl, hrange⟩ := Request.readPdu_eq_ok h
      rw [if_neg (by cases table <;> decide)] at hrange
      exact ⟨_, _, served_readWords image hrange⟩
  | writeCoil coil =>
      simp only [Access.pdu, Except.ok.injEq] at h
      exact ⟨_, _, h ▸ served_writeCoil coil image⟩
  | writeRegister register =>
      simp only [Access.pdu, Except.ok.injEq] at h
      exact ⟨_, _, h ▸ served_writeRegister register image⟩
  | writeCoils coils =>
      obtain ⟨sorted, hbatch, h⟩ := Result.bind_eq_ok.mp h
      simp only [Result.pure_eq, Except.ok.injEq] at h
      exact ⟨_, _, h ▸ served_writeCoils image (Request.batched_of_batch hbatch)⟩
  | writeRegisters registers =>
      obtain ⟨sorted, hbatch, h⟩ := Result.bind_eq_ok.mp h
      simp only [Result.pure_eq, Except.ok.injEq] at h
      exact ⟨_, _, h ▸ served_writeRegisters image (Request.batched_of_batch hbatch)⟩

/-! ## In frames -/

namespace Served

variable {access : Access} {pdu : Bytes} {image : Image} {request : Request} {response : Response}

lemma toPdu_ne_nil (h : access.Served pdu image request response) : response.toPdu ≠ [] := by
  obtain ⟨function, asked, answer, -, hanswer⟩ := h.echoed
  rw [hanswer]
  exact List.cons_ne_nil _ _

lemma fits_field (h : access.Served pdu image request response) :
    response.toPdu.length < 65535 := by
  have hfits := h.fits
  simp only [Limit.maxPdu] at hfits
  omega

/-- **The frame of the reply shows its end.** -/
lemma endsAt (h : access.Served pdu image request response) (framing : Framing)
    (header : Header) :
    EndsAt framing.responseComplete (framing.writeResponse header response) := by
  obtain ⟨function, asked, answer, -, hanswer⟩ := h.echoed
  exact framing.responseEndsAt header (by rw [hanswer]; rfl) h.shape h.fits

/-- **The frame of the reply answers the frame of the request.** -/
lemma validate (h : access.Served pdu image request response) (framing : Framing)
    (header : Header) :
    framing.validate (framing.wrap header pdu) (framing.writeResponse header response)
      = .ok () := by
  obtain ⟨function, asked, answer, hasked, hanswer⟩ := h.echoed
  have hpayload : Reply.payload function.code response.toPdu = .ok answer := by
    rw [hanswer]
    exact Reply.payload_code _ _
  have hshape := h.shape
  rw [hasked] at hshape
  rw [hasked, Framing.writeResponse]
  exact framing.validate_wrap header h.toPdu_ne_nil h.fits_field hpayload hshape

/-- **The client reads the reply** as the answer that the access is meant to have. -/
lemma read_reply (h : access.Served pdu image request response) (framing : Framing)
    (header : Header) :
    ∃ outcome, access.Answered image outcome ∧
      access.read framing (framing.wrap header pdu)
        (.ok (framing.writeResponse header response)) = .ok outcome := by
  obtain ⟨outcome, houtcome, hanswered⟩ := h.concluded
  have hparse := framing.parse_wrap header h.toPdu_ne_nil h.fits_field
  refine ⟨outcome, hanswered, ?_⟩
  simp only [Access.read, Result.ok_bind, h.validate framing header]
  rw [Framing.writeResponse, hparse]
  exact houtcome

end Served

end Access

end Modbus
