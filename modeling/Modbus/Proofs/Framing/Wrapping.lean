import Modbus.Proofs.Framing.Completion

/-!
# Wrapping and taking apart

`Framing.wrap` and `Framing.parse` are inverse to each other as far as a framing carries the header
(`Framing.parse_wrap`): a serial frame drops the transaction number, and a network frame without
one has number zero, which is what `Framing.heading` says.  In the other direction a frame that can
be taken apart has exactly the bytes that its PDU calls for (`Framing.length_of_parse`).

Above them stands `Framing.validate_wrap`: a reply that is wrapped like its request is accepted
for it as soon as its PDU is.
-/

namespace Modbus

namespace Rtu

lemma split?_frame (unit : UnitId) {pdu : Bytes} (hpdu : pdu ≠ []) :
    split? (frame unit pdu) = some (unit, pdu) := by
  have hpos := List.length_pos_iff.mpr hpdu
  have htake : (pdu ++ Checksum.crcTrailer (unit :: pdu)).take
      ((pdu ++ Checksum.crcTrailer (unit :: pdu)).length - 2) = pdu := by
    simp
  simp only [frame, List.cons_append, split?, htake]
  rw [if_neg (by simp; omega)]

lemma crcMatches_frame (unit : UnitId) (pdu : Bytes) :
    Checksum.crcMatches (frame unit pdu) = true :=
  Checksum.crcMatches_append_crcTrailer (unit :: pdu)

lemma parse_frame (unit : UnitId) {pdu : Bytes} (hpdu : pdu ≠ []) :
    parse (frame unit pdu) = .ok (⟨unit, none⟩, pdu) := by
  simp only [parse, split?_frame unit hpdu, crcMatches_frame, if_true]

lemma length_of_parse {adu pdu : Bytes} {header : Header} (h : parse adu = .ok (header, pdu)) :
    adu.length = pdu.length + 3 := by
  unfold parse at h
  split at h
  · simp at h
  · rename_i unit held heq
    split_ifs at h
    simp only [Except.ok.injEq, Prod.mk.injEq] at h
    obtain ⟨-, rfl⟩ := h
    unfold split? at heq
    split at heq
    · simp at heq
    · split_ifs at heq with hshort
      simp only [Option.some.injEq, Prod.mk.injEq] at heq
      obtain ⟨-, rfl⟩ := heq
      simp only [List.length_cons, List.length_take]
      omega

end Rtu

namespace Ascii

lemma isDelimited_append (digits : Bytes) :
    isDelimited (opening :: digits ++ closing) = true := by
  have hdrop : (opening :: digits ++ closing).drop ((opening :: digits ++ closing).length - 2)
      = closing := List.drop_left' (by simp [closing])
  simp only [isDelimited, hdrop]
  rfl

lemma digits_append (digits : Bytes) :
    ((opening :: digits ++ closing).drop 1).take ((opening :: digits ++ closing).length - 3)
      = digits :=
  List.take_left' (by simp [closing])

lemma body_frame (unit : UnitId) {pdu : Bytes} (hpdu : pdu ≠ []) :
    body (frame unit pdu) = .ok (unit :: pdu ++ [Checksum.lrc (unit :: pdu)]) := by
  have hpos := List.length_pos_iff.mpr hpdu
  have hlong : ¬ (frame unit pdu).length < minFrame := by
    rw [length_frame, minFrame]
    omega
  have hdelimited : isDelimited (frame unit pdu) = true := isDelimited_append _
  have hdigits : ((frame unit pdu).drop 1).take ((frame unit pdu).length - 3)
      = Hex.encode (unit :: pdu ++ [Checksum.lrc (unit :: pdu)]) := digits_append _
  rw [body, if_neg hlong, hdigits, Hex.decode_encode, hdelimited]
  rfl

lemma split?_body (unit : UnitId) {pdu : Bytes} (hpdu : pdu ≠ []) (check : UInt8) :
    split? (unit :: pdu ++ [check]) = some (unit, pdu) := by
  have hpos := List.length_pos_iff.mpr hpdu
  rw [List.cons_append, split?, if_neg (by simp; omega), List.dropLast_concat]

lemma parse_frame (unit : UnitId) {pdu : Bytes} (hpdu : pdu ≠ []) :
    parse (frame unit pdu) = .ok (⟨unit, none⟩, pdu) := by
  simp only [parse, body_frame unit hpdu, Result.ok_bind, split?_body unit hpdu]
  rw [Checksum.lrcMatches_append_lrc (unit :: pdu)]
  rfl

lemma length_decodeFrom : ∀ (position : Nat) (text bytes : Bytes),
    Hex.decodeFrom position text = .ok bytes → text.length = 2 * bytes.length
  | _, [], _, h => by simp_all [Hex.decodeFrom]
  | _, [_], _, h => by simp [Hex.decodeFrom] at h
  | position, first :: second :: rest, bytes, h => by
      simp only [Hex.decodeFrom] at h
      split at h
      · simp at h
      · simp at h
      · cases hrest : Hex.decodeFrom (position + 2) rest with
        | error fault => simp [hrest, Except.map] at h
        | ok later =>
            have hlen := length_decodeFrom (position + 2) rest later hrest
            simp only [hrest, Except.map, Except.ok.injEq] at h
            subst h
            simp only [List.length_cons]
            omega

lemma length_of_body {adu bytes : Bytes} (h : body adu = .ok bytes) :
    adu.length = 2 * bytes.length + 3 := by
  unfold body at h
  split_ifs at h with hshort hdelimited
  split at h
  · rename_i held hdecode
    rw [Except.ok.injEq] at h
    subst h
    simp only [Hex.decode] at hdecode
    split_ifs at hdecode
    have hlen := length_decodeFrom 0 _ _ hdecode
    simp only [List.length_take, List.length_drop, minFrame] at hlen hshort
    omega
  · simp at h

lemma length_of_parse {adu pdu : Bytes} {header : Header} (h : parse adu = .ok (header, pdu)) :
    adu.length = 2 * pdu.length + 7 := by
  obtain ⟨bytes, hbody, h⟩ := Result.bind_eq_ok.mp h
  have hlen := length_of_body hbody
  split at h
  · simp at h
  · rename_i unit held heq
    split_ifs at h
    · simp only [Result.pure_eq, Except.ok.injEq, Prod.mk.injEq] at h
      obtain ⟨-, rfl⟩ := h
      unfold split? at heq
      split at heq
      · simp at heq
      · split_ifs at heq with hshort
        simp only [Option.some.injEq, Prod.mk.injEq] at heq
        obtain ⟨-, rfl⟩ := heq
        simp only [List.length_cons, List.length_dropLast] at hlen ⊢
        omega

end Ascii

namespace Tcp

/-- The fields of a frame whose length the field can hold. -/
lemma split?_frame (transaction : UInt16) (unit : UnitId) {pdu : Bytes} (hpdu : pdu ≠ []) :
    split? (frame transaction unit pdu)
      = some ⟨transaction, 0, UInt16.ofNat (pdu.length + 1), unit, pdu⟩ := by
  obtain ⟨code, payload, rfl⟩ := List.exists_cons_of_ne_nil hpdu
  simp [frame, split?, Word.toBytes]

lemma following_eq {pdu : Bytes} (hfits : pdu.length < 65535) :
    (UInt16.ofNat (pdu.length + 1)).toNat = pdu.length + 1 := by
  rw [UInt16.toNat_ofNat']
  omega

lemma parse_frame (transaction : UInt16) (unit : UnitId) {pdu : Bytes} (hpdu : pdu ≠ [])
    (hfits : pdu.length < 65535) :
    parse (frame transaction unit pdu) = .ok (⟨unit, some transaction⟩, pdu) := by
  simp only [parse, split?_frame transaction unit hpdu, following_eq hfits, Fields.present, ne_eq,
    not_true, if_false]

lemma length_of_parse {adu pdu : Bytes} {header : Header} (h : parse adu = .ok (header, pdu)) :
    adu.length = pdu.length + 7 := by
  unfold parse at h
  split at h
  · simp at h
  · rename_i fields heq
    split_ifs at h
    simp only [Except.ok.injEq, Prod.mk.injEq] at h
    obtain ⟨-, rfl⟩ := h
    unfold split? at heq
    split at heq
    · rw [Option.some.injEq] at heq
      subst heq
      simp only [List.length_cons]
    · simp at heq

end Tcp

namespace Framing

/-- The part of a header that a frame carries. -/
def heading : Framing → Header → Header
  | rtu, header => ⟨header.unit, none⟩
  | ascii, header => ⟨header.unit, none⟩
  | tcp _, header => ⟨header.unit, some (header.transaction.getD 0)⟩

/-- The bytes of a frame around a PDU of a given length. -/
def aduLength : Framing → Nat → Nat
  | rtu, length => length + 3
  | ascii, length => 2 * length + 7
  | tcp _, length => length + 7

@[simp] lemma heading_unit (framing : Framing) (header : Header) :
    (framing.heading header).unit = header.unit := by
  cases framing <;> rfl

/-- A reply that echoes what a frame carries is framed like a reply to the whole header. -/
@[simp] lemma wrap_heading (framing : Framing) (header : Header) (pdu : Bytes) :
    framing.wrap (framing.heading header) pdu = framing.wrap header pdu := by
  cases framing <;> rfl

@[simp] lemma length_wrap (framing : Framing) (header : Header) (pdu : Bytes) :
    (framing.wrap header pdu).length = framing.aduLength pdu.length := by
  cases framing with
  | rtu => exact Rtu.length_frame _ _
  | ascii => exact Ascii.length_frame _ _
  | tcp _ => exact Tcp.length_frame _ _ _

/-- **A PDU fits exactly if its frame does.** -/
lemma aduLength_le_iff (framing : Framing) {length : Nat} :
    framing.aduLength length ≤ framing.maxAdu ↔ length ≤ Limit.maxPdu := by
  cases framing <;> simp only [aduLength, maxAdu, Limit.maxPdu] <;> omega

lemma aduLength_le (framing : Framing) {length : Nat} (h : length ≤ Limit.maxPdu) :
    framing.aduLength length ≤ framing.maxAdu :=
  framing.aduLength_le_iff.mpr h

lemma length_wrap_le (framing : Framing) (header : Header) {pdu : Bytes}
    (h : pdu.length ≤ Limit.maxPdu) : (framing.wrap header pdu).length ≤ framing.maxAdu := by
  rw [length_wrap]
  exact framing.aduLength_le h

lemma wrap_ne_nil (framing : Framing) (header : Header) (pdu : Bytes) :
    framing.wrap header pdu ≠ [] := by
  have hlen := framing.length_wrap header pdu
  rw [← List.length_pos_iff, hlen]
  cases framing <;> simp only [aduLength] <;> omega

/-- **What is wrapped can be taken apart.** -/
lemma parse_wrap (framing : Framing) (header : Header) {pdu : Bytes} (hpdu : pdu ≠ [])
    (hfits : pdu.length < 65535) :
    framing.parse (framing.wrap header pdu) = .ok (framing.heading header, pdu) := by
  cases framing with
  | rtu => exact Rtu.parse_frame _ hpdu
  | ascii => exact Ascii.parse_frame _ hpdu
  | tcp _ => exact Tcp.parse_frame _ _ hpdu hfits

/-- **A frame that can be taken apart has the bytes its PDU calls for.** -/
lemma length_of_parse {framing : Framing} {adu pdu : Bytes} {header : Header}
    (h : framing.parse adu = .ok (header, pdu)) : adu.length = framing.aduLength pdu.length := by
  cases framing with
  | rtu => exact Rtu.length_of_parse h
  | ascii => exact Ascii.length_of_parse h
  | tcp _ => exact Tcp.length_of_parse h

/-- **A served request survives the line**, with as much of its header as the frame carries. -/
lemma readRequest_wrap (framing : Framing) (header : Header) {pdu : Bytes} {request : Request}
    (hpdu : Request.ofPdu pdu = .ok request) (hserved : request.isServed = true) :
    framing.readRequest (framing.wrap header pdu) = .ok (framing.heading header, request) := by
  have hfits := Request.length_le_of_ofPdu hpdu hserved
  have hsome : pdu ≠ [] := by
    rintro rfl
    simp [Request.ofPdu] at hpdu
  rw [readRequest, parse_wrap framing header hsome (by simp only [Limit.maxPdu] at hfits; omega)]
  simp [hpdu]

/-- A request that is read is read from the PDU of its frame. -/
lemma parse_of_readRequest {framing : Framing} {adu : Bytes} {header : Header} {request : Request}
    (h : framing.readRequest adu = .ok (header, request)) :
    ∃ pdu, framing.parse adu = .ok (header, pdu) ∧ Request.ofPdu pdu = .ok request := by
  obtain ⟨⟨parsed, pdu⟩, hparse, h⟩ := Result.bind_eq_ok.mp h
  obtain ⟨read, hread, h⟩ := Result.bind_eq_ok.mp h
  simp only [Result.pure_eq, Except.ok.injEq, Prod.mk.injEq] at h
  obtain ⟨rfl, rfl⟩ := h
  exact ⟨pdu, hparse, hread⟩

/-- **A served request tells the length of the frame** that it was read from. -/
lemma length_of_readRequest {framing : Framing} {adu : Bytes} {header : Header}
    {request : Request} (h : framing.readRequest adu = .ok (header, request))
    (hserved : request.isServed = true) :
    adu.length = framing.aduLength request.pduLength := by
  obtain ⟨pdu, hparse, hread⟩ := parse_of_readRequest h
  rw [length_of_parse hparse, Request.length_of_ofPdu hread hserved]

/-- **A reply wrapped like its request** is accepted for it when its PDU is. -/
lemma validate_wrap (framing : Framing) (header : Header) {code : UInt8} {asked pdu rest : Bytes}
    (hpdu : pdu ≠ []) (hfits : pdu.length < 65535)
    (hpayload : Reply.payload code pdu = .ok rest)
    (hshape : Reply.checkShape (code :: asked) pdu = .ok ()) :
    framing.validate (framing.wrap header (code :: asked)) (framing.wrap header pdu)
      = .ok () := by
  have hrequest : code :: asked ≠ [] := List.cons_ne_nil _ _
  cases framing with
  | rtu =>
      simp [validate, wrap, Rtu.validate, Rtu.split?_frame _ hrequest, Rtu.split?_frame _ hpdu,
        Rtu.crcMatches_frame, hpayload, hshape]
  | ascii =>
      have hasked : Ascii.request? (Ascii.frame header.unit (code :: asked))
          = some (header.unit, code :: asked) := by
        rw [Ascii.request?, Ascii.body_frame _ hrequest]
        exact Ascii.split?_body _ hrequest _
      have hintact := Checksum.lrcMatches_append_lrc (header.unit :: pdu)
      have hsplit := Ascii.split?_body header.unit hpdu (Checksum.lrc (header.unit :: pdu))
      simp only [validate, wrap, Ascii.validate, hasked, Ascii.body_frame _ hpdu, Result.ok_bind,
        hsplit, hintact]
      simp [hpayload, hshape]
  | tcp checked =>
      have hfollowing := Tcp.following_eq hfits
      simp only [validate, wrap, Tcp.validate, Tcp.split?_frame _ _ hrequest,
        Tcp.split?_frame _ _ hpdu, Tcp.Fields.present, hfollowing]
      simp [hpayload, hshape]

end Framing

end Modbus
