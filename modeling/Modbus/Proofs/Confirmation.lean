import Modbus.Proofs.Exchange
import Modbus.Proofs.Framing.Intact
import Modbus.Proofs.Grammar
import Modbus.Proofs.Proxy.Requests

/-!
# What confirms a write

A client tells its caller whether the device confirmed exactly what was written.  Whether it did is
decided in four places, which see different parts of the reply: the check of the frame against the
request, the shape of the PDU, the reading of its two words, and the comparison with what was
written; for several cells the range to compare with is computed anew from the batch, which is not
sorted.  This file says what they decide together: for each write there is one PDU that confirms it
(`Access.confirmation?`), and the caller is told so exactly if the reply is an intact frame that
belongs to the request and holds this PDU (`Access.read_eq_confirmed`).

What the reader of the PDU lets through is `Access.conclude_eq_confirmed`; that nothing on the way
stops the confirming PDU is known from an access that a device serves (`Access.Served`), since the
reply of a device is this PDU.
-/

namespace Modbus

namespace Reply

/-! ## Reading what was written -/

lemma coil_eq_ok {pdu : Bytes} {coil : Coil} :
    Reply.coil pdu = .ok coil ↔ pdu = Request.writeCoilPdu coil := by
  constructor
  · intro h
    obtain ⟨⟨address, word⟩, hecho, h⟩ := Result.bind_eq_ok.mp h
    cases hword : coilState? word with
    | none => simp [hword] at h
    | some on =>
        simp only [hword, Result.pure_eq, Except.ok.injEq] at h
        obtain rfl := coilWord_of_coilState? hword
        rw [echo_eq_ok.mp hecho, ← h]
        rfl
  · rintro rfl
    have hecho := echo_written Function.writeCoil.code coil.address (coilWord coil.value)
    simp [Reply.coil, Request.writeCoilPdu, hecho]

lemma register_eq_ok {pdu : Bytes} {register : Register} :
    Reply.register pdu = .ok register ↔ pdu = Request.writeRegisterPdu register := by
  constructor
  · intro h
    obtain ⟨⟨address, word⟩, hecho, h⟩ := Result.bind_eq_ok.mp h
    obtain rfl := Except.ok.inj h
    exact echo_eq_ok.mp hecho
  · rintro rfl
    have hecho := echo_written Function.writeRegister.code register.address register.value
    simp [Reply.register, Request.writeRegisterPdu, hecho]

end Reply

/-- A comparison that comes out true. -/
lemma Result.bind_beq_eq_true {α : Type} [BEq α] [LawfulBEq α] {read : Result α} {expected : α} :
    (do return Outcome.written ((← read) == expected)) = (.ok (.written true) : Result Outcome) ↔
      read = .ok expected := by
  cases read with
  | error error => simp
  | ok got => simp

namespace Access

/-! ## The PDU that confirms -/

/-- **The PDU that confirms a write**: of one cell the request itself, of several their function
and their range. -/
def confirmation? : Access → Option Bytes
  | readBits _ _ _ => none
  | readWords _ _ _ => none
  | writeCoil coil => some (Request.writeCoilPdu coil)
  | writeRegister register => some (Request.writeRegisterPdu register)
  | writeCoils coils =>
    let (lowest, count) := Client.written coils
    some (Response.coilsWritten lowest count).toPdu
  | writeRegisters registers =>
    let (lowest, count) := Client.written registers
    some (Response.registersWritten lowest count).toPdu

variable {framing : Framing} {unit : UnitId} {transaction : UInt16} {access : Access}

/-- **One PDU is read as a confirmation.** -/
lemma conclude_eq_confirmed {pdu : Bytes} :
    access.conclude pdu = .ok (.written true) ↔ access.confirmation? = some pdu := by
  cases access with
  | readBits table start count => simp [conclude, confirmation?, Result.bind_eq_ok]
  | readWords table start count => simp [conclude, confirmation?, Result.bind_eq_ok]
  | writeCoil coil =>
      rw [conclude, Result.bind_beq_eq_true, Reply.coil_eq_ok, confirmation?, Option.some.injEq,
        eq_comm]
  | writeRegister register =>
      rw [conclude, Result.bind_beq_eq_true, Reply.register_eq_ok, confirmation?,
        Option.some.injEq, eq_comm]
  | writeCoils coils =>
      rw [conclude, Result.bind_beq_eq_true, Reply.range, Reply.echo_eq_ok, confirmation?,
        Option.some.injEq, eq_comm]
      rfl
  | writeRegisters registers =>
      rw [conclude, Result.bind_beq_eq_true, Reply.range, Reply.echo_eq_ok, confirmation?,
        Option.some.injEq, eq_comm]
      rfl

/-- The function of a request and of the reply that confirms it is the same, and so the reply is of
the shape that its request calls for. -/
lemma shape_of_confirmation? {asked confirmation : Bytes} (hasked : access.pdu = .ok asked)
    (hconfirmation : access.confirmation? = some confirmation) :
    ∃ code rest answer, asked = code :: rest ∧ confirmation = code :: answer ∧
      Reply.checkShape asked confirmation = .ok () := by
  obtain ⟨request, response, hserved⟩ := served_of_pdu hasked {}
  obtain ⟨outcome, hconcluded, hanswered⟩ := hserved.concluded
  have hwrite : access.isWrite = true := by
    cases access with
    | readBits _ _ _ => simp [confirmation?] at hconfirmation
    | readWords _ _ _ => simp [confirmation?] at hconfirmation
    | writeCoil _ => rfl
    | writeRegister _ => rfl
    | writeCoils _ => rfl
    | writeRegisters _ => rfl
  obtain rfl := hanswered.eq_written hwrite
  obtain rfl : response.toPdu = confirmation :=
    Option.some.inj ((conclude_eq_confirmed.mp hconcluded).symm.trans hconfirmation)
  obtain ⟨function, rest, answer, hrequest, hresponse⟩ := hserved.echoed
  exact ⟨function.code, rest, answer, hrequest, hresponse, hserved.shape⟩

lemma pdu_cons {asked : Bytes} (hasked : access.pdu = .ok asked) :
    ∃ code rest, asked = code :: rest := by
  obtain ⟨request, response, hserved⟩ := served_of_pdu hasked {}
  obtain ⟨function, rest, answer, hrequest, -⟩ := hserved.echoed
  exact ⟨function.code, rest, hrequest⟩

/-- **What a client is told of a reply** that it got for an access: what the PDU of a reply that
belongs to its request says. -/
lemma read_eq_ok {asked reply : Bytes} {outcome : Outcome} (hasked : access.pdu = .ok asked) :
    access.read framing (framing.wrap ⟨unit, some transaction⟩ asked) (.ok reply) = .ok outcome ↔
      ∃ pdu, framing.Bears unit transaction reply pdu ∧ Reply.checkShape asked pdu = .ok () ∧
        (∃ code rest answer, asked = code :: rest ∧ pdu = code :: answer) ∧
        access.conclude pdu = .ok outcome := by
  obtain ⟨code, rest, rfl⟩ := pdu_cons hasked
  constructor
  · intro h
    rw [read, Result.ok_bind] at h
    obtain ⟨_, hvalid, h⟩ := Result.bind_eq_ok.mp h
    obtain ⟨⟨header, pdu⟩, hparse, hconclude⟩ := Result.bind_eq_ok.mp h
    obtain ⟨pdu', hbears, ⟨answer, hanswer⟩, hshape⟩ := Framing.validate_eq_ok.mp hvalid
    obtain ⟨_, hparse', -⟩ := hbears.intact
    rw [hparse] at hparse'
    obtain ⟨-, rfl⟩ := Prod.mk.inj (Except.ok.inj hparse')
    exact ⟨pdu, hbears, hshape, ⟨code, rest, answer, rfl, hanswer⟩, hconclude⟩
  · rintro ⟨pdu, hbears, hshape, ⟨code', rest', answer, hcode, hanswer⟩, hconclude⟩
    obtain ⟨rfl, rfl⟩ := List.cons.inj hcode
    have hvalid := Framing.validate_eq_ok.mpr ⟨pdu, hbears, ⟨answer, hanswer⟩, hshape⟩
    obtain ⟨header, hparse, -⟩ := hbears.intact
    simp only [read, Result.ok_bind, hvalid, hparse]
    exact hconclude

/-- **A write is confirmed by one PDU**, in whatever frame that belongs to the request. -/
lemma read_eq_confirmed {asked reply : Bytes} (hasked : access.pdu = .ok asked) :
    access.read framing (framing.wrap ⟨unit, some transaction⟩ asked) (.ok reply)
        = .ok (.written true) ↔
      ∃ confirmation, access.confirmation? = some confirmation ∧
        framing.Bears unit transaction reply confirmation := by
  rw [read_eq_ok hasked]
  constructor
  · rintro ⟨pdu, hbears, -, -, hconclude⟩
    exact ⟨pdu, conclude_eq_confirmed.mp hconclude, hbears⟩
  · rintro ⟨pdu, hconfirmation, hbears⟩
    obtain ⟨code, rest, answer, hrequest, hanswer, hshape⟩ :=
      shape_of_confirmation? hasked hconfirmation
    exact ⟨pdu, hbears, hshape, ⟨code, rest, answer, hrequest, hanswer⟩,
      conclude_eq_confirmed.mpr hconfirmation⟩

end Access

/-! ## Over a link -/

lemma Operation.against_map {α β : Type} (exchange : Bytes → (Bytes → Bool) → Result Bytes)
    (change : α → β) (operation : Operation α) :
    ∀ codec, (change <$> operation).against exchange codec
      = (operation.against exchange codec).map change := by
  induction operation with
  | done outcome => cases outcome <;> exact fun _ => rfl
  | frame unit pdu next ih => exact fun codec => ih _ _
  | invoke request complete next ih => exact fun codec => ih _ codec

/-- **The range of written cells**: their smallest address and their number. -/
structure Request.Spans {α : Type} (cells : List (Cell α)) (lowest count : UInt16) : Prop where
  reached : lowest ∈ cells.map Cell.address
  least : ∀ address ∈ cells.map Cell.address, lowest ≤ address
  counted : count.toNat = cells.length

lemma Request.Batched.spans {α : Type} {max : UInt16} {cells sorted : List (Cell α)}
    (h : Batched max cells sorted) :
    Spans cells (Client.written cells).1 (Client.written cells).2 := by
  rw [h.written_eq]
  obtain ⟨cell, hcell, hlowest⟩ := h.exists_lowest
  refine ⟨List.mem_map.mpr ⟨cell, hcell, hlowest⟩, fun address haddress => ?_, ?_⟩
  · obtain ⟨other, hother, rfl⟩ := List.mem_map.mp haddress
    exact h.lowest_le other hother
  · rw [h.count_toNat, h.perm.length_eq]

namespace Codec

variable (codec : Codec) (unit : UnitId) (exchange : Bytes → (Bytes → Bool) → Result Bytes)

/-- **A write is confirmed exactly by one PDU.**  The caller is told so if and only if the reply to
its request is an intact frame that belongs to the request and holds this PDU; after anything else
it is told that the write was not confirmed, or gets an error. -/
structure ConfirmedBy (write : Operation Bool) (request confirmation : Bytes) : Prop where
  confirmed : write.against exchange codec = .ok true ↔
    ∃ reply, exchange (codec.request unit request).1 codec.framing.responseComplete = .ok reply ∧
      codec.framing.Bears unit codec.transaction reply confirmation
  otherwise : (¬ ∃ reply,
      exchange (codec.request unit request).1 codec.framing.responseComplete = .ok reply ∧
        codec.framing.Bears unit codec.transaction reply confirmation) →
    write.against exchange codec = .ok false ∨
      ∃ error, write.against exchange codec = .error error

variable {codec unit exchange}

lemma confirmedBy_of_access (access : Access) {write : Operation Bool}
    {request confirmation : Bytes}
    (hwrite : access.operation codec.framing unit = Outcome.written <$> write)
    (hrequest : access.pdu = .ok request) (hconfirmation : access.confirmation? = some confirmation) :
    codec.ConfirmedBy unit exchange write request confirmation := by
  have htold : (write.against exchange codec).map Outcome.written
      = access.read codec.framing (codec.request unit request).1
          (exchange (codec.request unit request).1 codec.framing.responseComplete) := by
    rw [← Operation.against_map, ← hwrite, Access.operation_of_pdu hrequest]
    rfl
  have hconfirmed : write.against exchange codec = .ok true ↔
      ∃ reply, exchange (codec.request unit request).1 codec.framing.responseComplete = .ok reply ∧
        codec.framing.Bears unit codec.transaction reply confirmation := by
    have hlift : write.against exchange codec = .ok true ↔
        (write.against exchange codec).map Outcome.written = .ok (.written true) := by
      cases write.against exchange codec <;> simp [Except.map]
    rw [hlift, htold]
    cases exchange (codec.request unit request).1 codec.framing.responseComplete with
    | error error => simp [Access.read]
    | ok reply => simp [Codec.request, Access.read_eq_confirmed hrequest, hconfirmation]
  refine ⟨hconfirmed, fun hnot => ?_⟩
  rw [← hconfirmed] at hnot
  cases htold : write.against exchange codec with
  | error error => exact .inr ⟨error, rfl⟩
  | ok matched =>
      cases matched with
      | true => exact absurd htold hnot
      | false => exact .inl rfl

/-- **Write confirmation is sound and complete.**  Whatever the framing and whatever the link makes
of a request, a write of one cell is confirmed exactly by the echo of its request, and an accepted
write of several cells by the reply that names their function, their smallest address and their
number. -/
theorem writes_confirmed_exactly (codec : Codec) (unit : UnitId)
    (exchange : Bytes → (Bytes → Bool) → Result Bytes) :
    (∀ coil, codec.ConfirmedBy unit exchange (Client.writeCoil codec.framing unit coil)
        (Request.writeCoilPdu coil) (Request.writeCoilPdu coil)) ∧
      (∀ register, codec.ConfirmedBy unit exchange (Client.writeRegister codec.framing unit register)
        (Request.writeRegisterPdu register) (Request.writeRegisterPdu register)) ∧
      (∀ coils request, Request.writeCoilsPdu coils = .ok request →
        ∃ lowest count, Request.Spans coils lowest count ∧
          codec.ConfirmedBy unit exchange (Client.writeCoils codec.framing unit coils) request
            (Function.writeCoils.code :: Word.toBytes lowest ++ Word.toBytes count)) ∧
      ∀ registers request, Request.writeRegistersPdu registers = .ok request →
        ∃ lowest count, Request.Spans registers lowest count ∧
          codec.ConfirmedBy unit exchange (Client.writeRegisters codec.framing unit registers)
            request (Function.writeRegisters.code :: Word.toBytes lowest ++ Word.toBytes count) := by
  refine ⟨fun coil => ?_, fun register => ?_, fun coils request hrequest => ?_,
    fun registers request hrequest => ?_⟩
  · exact confirmedBy_of_access (.writeCoil coil) rfl rfl rfl
  · exact confirmedBy_of_access (.writeRegister register) rfl rfl rfl
  · obtain ⟨sorted, hbatch, -⟩ := Result.bind_eq_ok.mp hrequest
    exact ⟨_, _, (Request.batched_of_batch hbatch).spans,
      confirmedBy_of_access (.writeCoils coils) rfl hrequest rfl⟩
  · obtain ⟨sorted, hbatch, -⟩ := Result.bind_eq_ok.mp hrequest
    exact ⟨_, _, (Request.batched_of_batch hbatch).spans,
      confirmedBy_of_access (.writeRegisters registers) rfl hrequest rfl⟩

/-- Two coils at the end of the address space, the last one first, confirmed by `:2a0ffffe0002c8`
on a line of characters in lower case. -/
theorem last_coils_confirmed :
    let codec : Codec := ⟨.ascii, 9⟩
    let coils : List Coil := [⟨65535, true⟩, ⟨65534, false⟩]
    let request : Bytes := [0x0F, 0xFF, 0xFE, 0x00, 0x02, 0x01, 0x02]
    let reply : Bytes := [0x3A, 0x32, 0x61, 0x30, 0x66, 0x66, 0x66, 0x66, 0x65, 0x30, 0x30, 0x30,
      0x32, 0x63, 0x38, 0x0D, 0x0A]
    Request.writeCoilsPdu coils = .ok request ∧
      (Client.writeCoils codec.framing 0x2A coils).against (fun _ _ => .ok reply) codec
        = .ok true := by
  intro codec coils request reply
  have hrequest : Request.writeCoilsPdu coils = .ok request := by
    simp [coils, Request.writeCoilsPdu, Request.batch, List.mergeSort]
    decide +kernel
  obtain ⟨lowest, count, hspans, hexactly⟩ :=
    (writes_confirmed_exactly codec 0x2A fun _ _ => .ok reply).2.2.1 coils request hrequest
  have hlowest : lowest = 65534 := by
    have hreached := hspans.reached
    have hleast := hspans.least 65534 (by simp [coils])
    simp only [coils, List.map_cons, List.map_nil, List.mem_cons, List.not_mem_nil, or_false]
      at hreached
    rcases hreached with rfl | rfl
    · exact absurd hleast (by decide)
    · rfl
  have hcount : count = 2 := UInt16.toNat_inj.mp hspans.counted
  have hparse : codec.framing.parse reply = .ok (⟨0x2A, none⟩, [0x0F, 0xFF, 0xFE, 0x00, 0x02]) := by
    decide +kernel
  rw [hlowest, hcount] at hexactly
  exact ⟨hrequest, hexactly.confirmed.mpr ⟨reply, rfl, ⟨_, hparse, rfl, by simp [codec]⟩⟩⟩

end Codec

end Modbus
