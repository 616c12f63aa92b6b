import Modbus.Proofs.Framing.Wrapping

/-!
# What framings have in common

The three framings are checked and taken apart by functions of their own, each in its own order and
at its own offsets.  This file shows that nothing of that is seen from above.  A reply that was
framed is judged by its unit and its PDU alone (`Framing.validate_wrap_eq`, with `Reply.verdict` as
the judgement), and whatever is read out of a frame is read out of its PDU (`Framing.bind_parse_wrap`).

`Codec.Agree` says what this comes to for two codecs, and `Codec.agree_of_fits` that any two agree,
on every PDU that a frame can hold: on good replies, on exceptions, and on every way in which a
reply or a request can be wrong.
-/

namespace Modbus

/-! ## Replies -/

/-- **Whether a reply answers a request**, by their units and their PDUs: the same unit, the same
function, and a PDU of the right shape. -/
def Reply.verdict (asked got : UnitId) (request response : Bytes) : Result Unit := do
  if got ≠ asked then throw (.framing (.unitMismatch asked got))
  let _ ← Reply.payload (request.headD 0) response
  Reply.checkShape request response

section

variable {request response : Bytes} (asked got : UnitId)

lemma Rtu.validate_frame (hrequest : request ≠ []) (hresponse : response ≠ []) :
    Rtu.validate (Rtu.frame asked request) (Rtu.frame got response)
      = Reply.verdict asked got request response := by
  simp only [Rtu.validate, Rtu.split?_frame _ hrequest, Rtu.split?_frame _ hresponse,
    Rtu.crcMatches_frame, Reply.verdict]
  rfl

lemma Ascii.validate_frame (hrequest : request ≠ []) (hresponse : response ≠ []) :
    Ascii.validate (Ascii.frame asked request) (Ascii.frame got response)
      = Reply.verdict asked got request response := by
  have hasked : Ascii.request? (Ascii.frame asked request) = some (asked, request) := by
    rw [Ascii.request?, Ascii.body_frame asked hrequest]
    exact Ascii.split?_body asked hrequest _
  have hintact := Checksum.lrcMatches_append_lrc (got :: response)
  have hsplit := Ascii.split?_body got hresponse (Checksum.lrc (got :: response))
  simp only [Ascii.validate, hasked, Ascii.body_frame got hresponse, Result.ok_bind, hsplit,
    hintact, Reply.verdict]
  rfl

/-- Header fields that were written agree with each other, so that nothing is left to check but the
unit and the PDU. -/
lemma Tcp.validate_frame (checked : Bool) (transaction : UInt16) (hrequest : request ≠ [])
    (hresponse : response ≠ []) (hfits : response.length < 65535) :
    Tcp.validate checked (Tcp.frame transaction asked request) (Tcp.frame transaction got response)
      = Reply.verdict asked got request response := by
  simp only [Tcp.validate, Tcp.split?_frame _ _ hrequest, Tcp.split?_frame _ _ hresponse,
    Tcp.Fields.present, Tcp.following_eq hfits, bne_self_eq_false, Bool.and_false, ne_eq, not_true,
    Reply.verdict]
  rfl

end

namespace Framing

/-- **A framed reply is judged by its unit and its PDU.** -/
lemma validate_wrap_eq (framing : Framing) (transaction : Option UInt16) (asked got : UnitId)
    {request response : Bytes} (hrequest : request ≠ []) (hresponse : response ≠ [])
    (hfits : response.length < 65535) :
    framing.validate (framing.wrap ⟨asked, transaction⟩ request)
        (framing.wrap ⟨got, transaction⟩ response)
      = Reply.verdict asked got request response := by
  cases framing with
  | rtu => exact Rtu.validate_frame asked got hrequest hresponse
  | ascii => exact Ascii.validate_frame asked got hrequest hresponse
  | tcp checked => exact Tcp.validate_frame asked got checked _ hrequest hresponse hfits

/-- **What is read out of a frame is read out of its PDU.** -/
lemma bind_parse_wrap {α : Type} (framing : Framing) (header : Header) {pdu : Bytes}
    (hpdu : pdu ≠ []) (hfits : pdu.length < 65535) (read : Header × Bytes → Result α) :
    (framing.parse (framing.wrap header pdu) >>= read) = read (framing.heading header, pdu) := by
  rw [parse_wrap framing header hpdu hfits, Result.ok_bind]

end Framing

/-! ## Any two codecs -/

/-- A reply framed for the request that a codec frames next. -/
def Codec.reply (codec : Codec) (unit : UnitId) (pdu : Bytes) : Bytes :=
  codec.framing.wrap ⟨unit, some codec.transaction⟩ pdu

/-- The unit and the request in a frame. -/
def Framing.askedOf (framing : Framing) (adu : Bytes) : Result (UnitId × Request) :=
  (framing.readRequest adu).map fun read => (read.1.unit, read.2)

/-- **Two codecs agree** on a request and a reply: on whether the one answers the other, on the
unit and the request that a device reads, and on everything that a client can read in the reply.
Where one has an error the other has the same. -/
structure Codec.Agree (first second : Codec) (asked got : UnitId) (request response : Bytes) :
    Prop where
  validate : first.framing.validate (first.request asked request).1 (first.reply got response)
    = second.framing.validate (second.request asked request).1 (second.reply got response)
  /-- What they agree on is the judgement of units and PDUs. -/
  judged : first.framing.validate (first.request asked request).1 (first.reply got response)
    = Reply.verdict asked got request response
  addressed : first.framing.askedOf (first.request asked request).1
    = second.framing.askedOf (second.request asked request).1
  /-- What a device reads is what the client asked, at the unit that it was sent to. -/
  decoded : first.framing.askedOf (first.request asked request).1
    = (Request.ofPdu request).map fun decoded => (asked, decoded)
  bits : ∀ table start count, first.framing.readBits table (first.reply got response) start count
    = second.framing.readBits table (second.reply got response) start count
  words : ∀ table start count, first.framing.readWords table (first.reply got response) start count
    = second.framing.readWords table (second.reply got response) start count
  coil : first.framing.readCoil (first.reply got response)
    = second.framing.readCoil (second.reply got response)
  register : first.framing.readRegister (first.reply got response)
    = second.framing.readRegister (second.reply got response)
  range : ∀ function, first.framing.readRange function (first.reply got response)
    = second.framing.readRange function (second.reply got response)
  fragment : first.framing.readFragment (first.reply got response)
    = second.framing.readFragment (second.reply got response)

namespace Codec

/-- The request in a frame, by its unit and its PDU. -/
lemma askedOf_request (codec : Codec) (unit : UnitId) {pdu : Bytes} (hpdu : pdu ≠ [])
    (hfits : pdu.length < 65535) :
    codec.framing.askedOf (codec.request unit pdu).1
      = (Request.ofPdu pdu).map fun request => (unit, request) := by
  simp only [Framing.askedOf, Framing.readRequest, Codec.request]
  rw [Framing.bind_parse_wrap _ _ hpdu hfits]
  cases Request.ofPdu pdu with
  | error error => rfl
  | ok request => simp [Except.map]

/-- **Any two codecs agree** on every request and every reply that a frame can hold, whatever their
framings and the numbers of their transactions. -/
theorem agree_of_fits (first second : Codec) (asked got : UnitId) {request response : Bytes}
    (hrequest : request ≠ []) (hrequestFits : request.length ≤ 65534) (hresponse : response ≠ [])
    (hresponseFits : response.length ≤ 65534) : Agree first second asked got request response := by
  have hasked := Nat.lt_succ_of_le hrequestFits
  have hgot := Nat.lt_succ_of_le hresponseFits
  have hread {α : Type} (codec : Codec) (read : Header × Bytes → Result α) :
      (codec.framing.parse (codec.reply got response) >>= read)
        = read (codec.framing.heading ⟨got, some codec.transaction⟩, response) :=
    codec.framing.bind_parse_wrap _ hresponse hgot read
  have hjudged (codec : Codec) :
      codec.framing.validate (codec.request asked request).1 (codec.reply got response)
        = Reply.verdict asked got request response :=
    codec.framing.validate_wrap_eq _ asked got hrequest hresponse hgot
  have hdecoded (codec : Codec) := askedOf_request codec asked hrequest hasked
  refine ⟨(hjudged first).trans (hjudged second).symm, hjudged first,
    (hdecoded first).trans (hdecoded second).symm, hdecoded first, fun table start count => ?_,
    fun table start count => ?_, ?_, ?_, fun function => ?_, ?_⟩
  · simp only [Framing.readBits, hread]
  · simp only [Framing.readWords, hread]
  · simp only [Framing.readCoil, hread]
  · simp only [Framing.readRegister, hread]
  · simp only [Framing.readRange, hread]
  · simp only [Framing.readFragment, hread]

/-- A reply that announces more bytes than it has, on a character line and on a network. -/
theorem agree_on_announced_bytes :
    let request : Bytes := [0x03, 0x00, 0x10, 0x00, 0x02]
    let response : Bytes := [0x03, 0x04, 0x12, 0x34]
    let character : Codec := ⟨.ascii, 1⟩
    let network : Codec := ⟨.tcp true, 65535⟩
    (request ≠ [] ∧ request.length ≤ 65534 ∧ response ≠ [] ∧ response.length ≤ 65534) ∧
      Agree character network 17 17 request response ∧
      character.framing.validate (character.request 17 request).1 (character.reply 17 response)
        = .error (.framing (.declaredByteCount 4 2)) ∧
      network.framing.validate (network.request 17 request).1 (network.reply 17 response)
        = .error (.framing (.declaredByteCount 4 2)) := by
  intro request response character network
  have hagree : Agree character network 17 17 request response :=
    agree_of_fits character network 17 17 (by decide) (by decide) (by decide) (by decide)
  have hnetwork : network.framing.validate (network.request 17 request).1
      (network.reply 17 response) = .error (.framing (.declaredByteCount 4 2)) := by decide
  exact ⟨by decide, hagree, hagree.validate.trans hnetwork, hnetwork⟩

end Codec

end Modbus
