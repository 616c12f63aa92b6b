import Modbus.Proofs.Framing.Intact
import Modbus.Proofs.ReadReply

/-!
# What can be read from an accepted reply

A reply is looked at twice, first by the check against its request and then by the reader that takes
the values from it, and both take the frame apart on their own.  This file says what the reader can
still refuse after the check: a read whose data is not of the size that its count calls for, and a
coil with a word that is neither of the two states (`Codec.accepted_reply_read`).

An accepted frame can be taken apart into a PDU of the function that was asked for
(`Codec.Accepts.holds`), and the shape of this PDU is what its reader begins with
(`Reply.data_of_checkShape`, `Reply.echo_of_checkShape`, `Reply.fragment_of_checkShape`).
-/

namespace Modbus

namespace Reply

variable {asked rest : Bytes}

/-! ## What the shape gives the reader -/

lemma data_of_checkShape {code : UInt8}
    (hcode : (∃ table, code = BitTable.code table) ∨ ∃ table, code = WordTable.code table)
    (h : checkShape asked (code :: rest) = .ok ()) :
    ∃ size bytes, rest = size :: bytes ∧ data code (code :: rest) = .ok bytes := by
  have hdata : (data code (code :: rest)).map (fun _ => ()) = .ok () := by
    rcases hcode with ⟨table, rfl⟩ | ⟨table, rfl⟩ <;> cases table <;> exact h
  obtain ⟨bytes, hbytes, -⟩ := Result.map_eq_ok.mp hdata
  obtain ⟨size, hpdu, -⟩ := data_eq_ok.mp hbytes
  exact ⟨size, bytes, (List.cons.inj hpdu).2, hbytes⟩

lemma echo_of_checkShape {function : Function}
    (hfunction : function = .writeCoil ∨ function = .writeRegister ∨ function = .writeCoils ∨
      function = .writeRegisters)
    (h : checkShape asked (function.code :: rest) = .ok ()) :
    ∃ first second, echo function.code (function.code :: rest) = .ok (first, second) := by
  have hecho : (echo function.code (function.code :: rest)).map (fun _ => ()) = .ok () := by
    rcases hfunction with rfl | rfl | rfl | rfl <;>
      simpa only [checkShape, Function.ofCode?_code] using h
  obtain ⟨⟨first, second⟩, hread, -⟩ := Result.map_eq_ok.mp hecho
  exact ⟨first, second, hread⟩

lemma fragment_of_checkShape (h : checkShape asked (Function.identify.code :: rest) = .ok ()) :
    ∃ page, fragment (Function.identify.code :: rest) = .ok page := by
  simp only [checkShape, Function.ofCode?_code] at h
  obtain ⟨page, hpage, -⟩ := Result.bind_eq_ok.mp h
  exact ⟨page, hpage⟩

/-! ## Coils -/

/-- **The coil of an echo**: its word is one of the two states, or it is a fault. -/
lemma coil_of_echo {pdu : Bytes} {address word : UInt16}
    (h : echo Function.writeCoil.code pdu = .ok (address, word)) :
    coil pdu = if word = 0xFF00 ∨ word = 0x0000 then .ok ⟨address, word == 0xFF00⟩
      else .error (.framing (.coilValue word)) := by
  rw [coil, h, Result.ok_bind]
  by_cases hon : word = 0xFF00
  · subst hon
    rfl
  · by_cases hoff : word = 0x0000
    · subst hoff
      rfl
    · simp [coilState?, coilOn, coilOff, hon, hoff]

end Reply

/-! ## What an accepted frame holds -/

/-- **A reply that the check accepts** for a request of this codec. -/
def Codec.Accepts (codec : Codec) (unit : UnitId) (request reply : Bytes) : Prop :=
  codec.framing.validate (codec.request unit request).1 reply = .ok ()

/-- **A frame that holds a PDU.** -/
def Framing.Holds (framing : Framing) (adu pdu : Bytes) : Prop :=
  ∃ header, framing.parse adu = .ok (header, pdu)

namespace Framing.Holds

variable {framing : Framing} {adu pdu : Bytes}

lemma readBits (h : framing.Holds adu pdu) (table : BitTable) (start count : UInt16) :
    framing.readBits table adu start count
      = (Reply.bits table.code pdu count).map (Cell.sequence start) := by
  obtain ⟨header, hparse⟩ := h
  simp only [Framing.readBits, hparse, Result.ok_bind]
  cases Reply.bits table.code pdu count <;> rfl

lemma readWords (h : framing.Holds adu pdu) (table : WordTable) (start count : UInt16) :
    framing.readWords table adu start count
      = (Reply.words table.code pdu count).map (Cell.sequence start) := by
  obtain ⟨header, hparse⟩ := h
  simp only [Framing.readWords, hparse, Result.ok_bind]
  cases Reply.words table.code pdu count <;> rfl

lemma readCoil (h : framing.Holds adu pdu) : framing.readCoil adu = Reply.coil pdu := by
  obtain ⟨header, hparse⟩ := h
  rw [Framing.readCoil, hparse, Result.ok_bind]

lemma readRegister (h : framing.Holds adu pdu) : framing.readRegister adu = Reply.register pdu := by
  obtain ⟨header, hparse⟩ := h
  rw [Framing.readRegister, hparse, Result.ok_bind]

lemma readRange (h : framing.Holds adu pdu) (function : Function) :
    framing.readRange function adu = Reply.echo function.code pdu := by
  obtain ⟨header, hparse⟩ := h
  rw [Framing.readRange, hparse, Result.ok_bind]
  rfl

lemma readFragment (h : framing.Holds adu pdu) : framing.readFragment adu = Reply.fragment pdu := by
  obtain ⟨header, hparse⟩ := h
  rw [Framing.readFragment, hparse, Result.ok_bind]

end Framing.Holds

namespace Codec

variable {codec : Codec} {unit : UnitId} {reply : Bytes}

/-- **An accepted reply holds a PDU** of the function that was asked for, in its shape. -/
lemma Accepts.holds {code : UInt8} {asked : Bytes}
    (h : codec.Accepts unit (code :: asked) reply) :
    ∃ rest, codec.framing.Holds reply (code :: rest) ∧
      Reply.checkShape (code :: asked) (code :: rest) = .ok () := by
  obtain ⟨pdu, ⟨header, hparse, -⟩, ⟨rest, rfl⟩, hshape⟩ := Framing.validate_eq_ok.mp h
  exact ⟨rest, ⟨header, hparse⟩, hshape⟩

/-- **An accepted echo is two words** behind its function. -/
lemma Accepts.echo {asked : Bytes} (function : Function)
    (hfunction : function = .writeCoil ∨ function = .writeRegister ∨ function = .writeCoils ∨
      function = .writeRegisters) (h : codec.Accepts unit (function.code :: asked) reply) :
    ∃ first second, codec.framing.Holds reply
      (function.code :: (Word.toBytes first ++ Word.toBytes second)) := by
  obtain ⟨rest, hholds, hshape⟩ := h.holds
  obtain ⟨first, second, hecho⟩ := Reply.echo_of_checkShape hfunction hshape
  rw [Reply.echo_eq_ok.mp hecho] at hholds
  exact ⟨first, second, hholds⟩

lemma Accepts.bits {table : BitTable} {start count : UInt16} {request : Bytes}
    (hrequest : Request.readPdu table.code start count = .ok request)
    (h : codec.Accepts unit request reply) :
    ∃ size data, codec.framing.Holds reply (table.code :: size :: data) ∧
      codec.framing.readBits table reply start count
        = if data.length = Bits.bytesFor count.toNat then
            .ok (Cell.sequence start (Bits.unpack data count.toNat))
          else .error (.framing
            (.bitByteCount (Bits.bytesFor count.toNat) count data.length)) := by
  obtain ⟨rfl, -⟩ := Request.readPdu_eq_ok hrequest
  obtain ⟨rest, hholds, hshape⟩ := h.holds
  obtain ⟨size, data, rfl, hdata⟩ := Reply.data_of_checkShape (.inl ⟨table, rfl⟩) hshape
  refine ⟨size, data, hholds, ?_⟩
  rw [hholds.readBits, Reply.bits_eq, hdata, Result.ok_bind, apply_ite (Except.map _)]
  rfl

lemma Accepts.words {table : WordTable} {start count : UInt16} {request : Bytes}
    (hrequest : Request.readPdu table.code start count = .ok request)
    (h : codec.Accepts unit request reply) :
    ∃ size data, codec.framing.Holds reply (table.code :: size :: data) ∧
      codec.framing.readWords table reply start count
        = if 2 * count.toNat ≤ data.length then
            .ok (Cell.sequence start ((Word.listOfBytes data).take count.toNat))
          else .error (.framing (.wordByteCount data.length count)) := by
  obtain ⟨rfl, -⟩ := Request.readPdu_eq_ok hrequest
  obtain ⟨rest, hholds, hshape⟩ := h.holds
  obtain ⟨size, data, rfl, hdata⟩ := Reply.data_of_checkShape (.inr ⟨table, rfl⟩) hshape
  refine ⟨size, data, hholds, ?_⟩
  rw [hholds.readWords, Reply.words_eq, hdata, Result.ok_bind, apply_ite (Except.map _)]
  rfl

/-- **What an accepted reply is read as.**  Whatever the framing and whatever the bytes of a reply
that the check accepts for a request of the client, the reader that belongs to the request takes it,
with two exceptions: a read whose data is not of the size that its count calls for, and a coil with
a word that is neither on nor off.  Both are framing faults, and nothing else is ever reported of
such a reply. -/
theorem accepted_reply_read (codec : Codec) (unit : UnitId) (reply : Bytes) :
    (∀ table start count request, Request.readPdu (BitTable.code table) start count = .ok request →
      codec.Accepts unit request reply →
        ∃ size data, codec.framing.Holds reply (table.code :: size :: data) ∧
          codec.framing.readBits table reply start count
            = if data.length = Bits.bytesFor count.toNat then
                .ok (Cell.sequence start (Bits.unpack data count.toNat))
              else .error (.framing
                (.bitByteCount (Bits.bytesFor count.toNat) count data.length))) ∧
    (∀ table start count request, Request.readPdu (WordTable.code table) start count = .ok request →
      codec.Accepts unit request reply →
        ∃ size data, codec.framing.Holds reply (table.code :: size :: data) ∧
          codec.framing.readWords table reply start count
            = if 2 * count.toNat ≤ data.length then
                .ok (Cell.sequence start ((Word.listOfBytes data).take count.toNat))
              else .error (.framing (.wordByteCount data.length count))) ∧
    (∀ coil, codec.Accepts unit (Request.writeCoilPdu coil) reply →
      ∃ address word, codec.framing.Holds reply
          (Function.writeCoil.code :: (Word.toBytes address ++ Word.toBytes word)) ∧
        codec.framing.readCoil reply
          = if word = 0xFF00 ∨ word = 0x0000 then .ok ⟨address, word == 0xFF00⟩
            else .error (.framing (.coilValue word))) ∧
    (∀ register, codec.Accepts unit (Request.writeRegisterPdu register) reply →
      ∃ written, codec.framing.Holds reply (Request.writeRegisterPdu written) ∧
        codec.framing.readRegister reply = .ok written) ∧
    (∀ coils request, Request.writeCoilsPdu coils = .ok request →
      codec.Accepts unit request reply →
        ∃ start count, codec.framing.Holds reply
            (Function.writeCoils.code :: (Word.toBytes start ++ Word.toBytes count)) ∧
          codec.framing.readRange .writeCoils reply = .ok (start, count)) ∧
    (∀ registers request, Request.writeRegistersPdu registers = .ok request →
      codec.Accepts unit request reply →
        ∃ start count, codec.framing.Holds reply
            (Function.writeRegisters.code :: (Word.toBytes start ++ Word.toBytes count)) ∧
          codec.framing.readRange .writeRegisters reply = .ok (start, count)) ∧
    ∀ category object, codec.Accepts unit (Request.identifyPdu category object) reply →
      ∃ pdu page, codec.framing.Holds reply pdu ∧ Reply.fragment pdu = .ok page ∧
        codec.framing.readFragment reply = .ok page := by
  refine ⟨fun table start count request hrequest h => h.bits hrequest,
    fun table start count request hrequest h => h.words hrequest, fun coil h => ?_,
    fun register h => ?_, fun coils request hrequest h => ?_,
    fun registers request hrequest h => ?_, fun category object h => ?_⟩
  · obtain ⟨address, word, hholds⟩ := Accepts.echo .writeCoil (by simp) h
    exact ⟨address, word, hholds,
      hholds.readCoil.trans (Reply.coil_of_echo (Reply.echo_written _ address word))⟩
  · obtain ⟨address, word, hholds⟩ := Accepts.echo .writeRegister (by simp) h
    refine ⟨⟨address, word⟩, hholds, hholds.readRegister.trans ?_⟩
    rw [Reply.register, Reply.echo_written]
    rfl
  · obtain ⟨sorted, -, hpdu⟩ := Result.bind_eq_ok.mp hrequest
    obtain rfl := Except.ok.inj hpdu
    obtain ⟨start, count, hholds⟩ := Accepts.echo .writeCoils (by simp) h
    exact ⟨start, count, hholds, (hholds.readRange _).trans (Reply.echo_written _ start count)⟩
  · obtain ⟨sorted, -, hpdu⟩ := Result.bind_eq_ok.mp hrequest
    obtain rfl := Except.ok.inj hpdu
    obtain ⟨start, count, hholds⟩ := Accepts.echo .writeRegisters (by simp) h
    exact ⟨start, count, hholds, (hholds.readRange _).trans (Reply.echo_written _ start count)⟩
  · obtain ⟨rest, hholds, hshape⟩ := h.holds
    obtain ⟨page, hpage⟩ := Reply.fragment_of_checkShape hshape
    exact ⟨_, page, hholds, hpage, hholds.readFragment.trans hpage⟩

/-- Ten coils are asked for in characters and a reply with one byte for them is accepted; then its
reader reports the two bytes that ten coils take. -/
theorem short_bits_accepted_not_read :
    let codec : Codec := ⟨.ascii, 9⟩
    let request : Bytes := [0x01, 0x00, 0x00, 0x00, 0x0A]
    let reply : Bytes :=
      [0x3A, 0x32, 0x61, 0x30, 0x31, 0x30, 0x31, 0x35, 0x35, 0x37, 0x66, 0x0D, 0x0A]
    (Request.readPdu (BitTable.code .coils) 0 10 = .ok request ∧
        codec.Accepts 0x2A request reply) ∧
      codec.framing.readBits .coils reply 0 10 = .error (.framing (.bitByteCount 2 10 1)) := by
  intro codec request reply
  have hrequest : Request.readPdu (BitTable.code .coils) 0 10 = .ok request := rfl
  have haccepts : codec.Accepts 0x2A request reply := by
    unfold Accepts
    decide +kernel
  obtain ⟨size, data, ⟨header, hholds⟩, hread⟩ :=
    (accepted_reply_read codec 0x2A reply).1 .coils 0 10 request hrequest haccepts
  have hparse : codec.framing.parse reply = .ok (⟨0x2A, none⟩, [0x01, 0x01, 0x55]) := by
    decide +kernel
  obtain ⟨-, hpdu⟩ := Prod.mk.inj (Except.ok.inj (hholds.symm.trans hparse))
  obtain ⟨-, hdata⟩ := List.cons.inj (List.cons.inj hpdu).2
  rw [hdata] at hread
  exact ⟨⟨hrequest, haccepts⟩, hread⟩

end Codec

end Modbus
