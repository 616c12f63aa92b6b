import Modbus.Proofs.Framing.Wrapping

/-!
# Accepted frames are complete at their last byte

A frame is looked at twice.  While its bytes come in, `Framing.responseComplete` and
`Framing.requestComplete` decide from the beginning of the frame how long it has to be; once it is
there, `Framing.validate` and `Framing.readRequest` take it apart from its end.  This file shows
that the two never disagree about a frame that is accepted: it counts as complete at its last byte
and nowhere before (`Framing.endsAt_of_accepted`).

`Completion` knows this of frames that were written by this library.  An accepted frame may come
from anywhere, so the way here is back from acceptance to the bytes: an accepted binary frame is
the one that its unit and PDU are wrapped in (`Rtu.eq_frame_of_split?`), an accepted character
frame holds nothing but digits between its ends (`Ascii.endsAt_of_body`), and an accepted network
frame has as many bytes as it announces (`Tcp.size?_of_split?`).
-/

namespace Modbus

/-! ## Binary frames -/

namespace Rtu

/-- **The check determines a frame**: there is one only for each unit and PDU. -/
lemma eq_frame_of_split? {adu pdu : Bytes} {unit : UnitId} (hsplit : split? adu = some (unit, pdu))
    (hcheck : Checksum.crcMatches adu = true) : adu = frame unit pdu := by
  cases adu with
  | nil => simp [split?] at hsplit
  | cons first rest =>
      simp only [split?] at hsplit
      split_ifs at hsplit with hshort
      simp only [Option.some.injEq, Prod.mk.injEq] at hsplit
      obtain ⟨rfl, rfl⟩ := hsplit
      simp only [Checksum.crcMatches, Bool.and_eq_true, beq_iff_eq, List.length_cons] at hcheck
      have hcut : rest.length + 1 - 2 = rest.length - 2 + 1 := by omega
      have htrailer := hcheck.2
      rw [hcut, List.take_succ_cons, List.drop_succ_cons] at htrailer
      rw [frame, htrailer, List.cons_append, List.take_append_drop]

/-- What a reply that was accepted has passed. -/
lemma validate_eq_ok {request response asked : Bytes} {unit : UnitId}
    (hasked : split? request = some (unit, asked)) (h : validate request response = .ok ()) :
    ∃ pdu rest, response = frame unit pdu ∧ Reply.payload (asked.headD 0) pdu = .ok rest ∧
      Reply.checkShape asked pdu = .ok () := by
  cases hsplit : split? response with
  | none => simp [validate, hasked, hsplit] at h
  | some got =>
      obtain ⟨other, pdu⟩ := got
      simp only [validate, hasked, hsplit] at h
      by_cases hunit : other = unit
      · subst hunit
        rw [if_neg (not_not_intro rfl)] at h
        obtain ⟨rest, hpayload, h⟩ := Result.bind_eq_ok.mp h
        cases hcheck : Checksum.crcMatches response with
        | true =>
            rw [hcheck] at h
            exact ⟨pdu, rest, eq_frame_of_split? hsplit hcheck, hpayload, h⟩
        | false => simp [hcheck] at h
      · simp [hunit] at h

/-- A frame that can be taken apart is the one that its unit and PDU are wrapped in. -/
lemma eq_frame_of_parse {adu pdu : Bytes} {header : Header} (h : parse adu = .ok (header, pdu)) :
    adu = frame header.unit pdu := by
  cases hsplit : split? adu with
  | none => simp [parse, hsplit] at h
  | some parts =>
      cases hcheck : Checksum.crcMatches adu with
      | false => simp [parse, hsplit, hcheck] at h
      | true =>
          simp only [parse, hsplit, hcheck, if_true, Except.ok.injEq, Prod.mk.injEq] at h
          obtain ⟨rfl, rfl⟩ := h
          exact eq_frame_of_split? hsplit hcheck

end Rtu

/-! ## Character frames -/

namespace Ascii

/-- Only digits are read. -/
lemma value?_of_decodeFrom : ∀ (position : Nat) (text bytes : Bytes),
    Hex.decodeFrom position text = .ok bytes → ∀ character ∈ text, (Hex.value? character).isSome
  | _, [], _, _ => by simp
  | _, [_], _, h => by simp [Hex.decodeFrom] at h
  | position, first :: second :: rest, bytes, h => by
      simp only [Hex.decodeFrom] at h
      split at h
      · simp at h
      · simp at h
      · rename_i high low hhigh hlow
        cases hrest : Hex.decodeFrom (position + 2) rest with
        | error fault => simp [hrest, Except.map] at h
        | ok later =>
            intro character hcharacter
            simp only [List.mem_cons] at hcharacter
            rcases hcharacter with rfl | rfl | hlater
            · simp [hhigh]
            · simp [hlow]
            · exact value?_of_decodeFrom (position + 2) rest later hrest character hlater

/-- **The characters of a frame** that can be read are its ends and digits between them. -/
lemma eq_of_body {adu bytes : Bytes} (h : body adu = .ok bytes) :
    ∃ digits, adu = opening :: digits ++ closing ∧ Hex.decode digits = .ok bytes := by
  simp only [body] at h
  split_ifs at h with hshort hdelimited
  simp only [Bool.not_eq_true', Bool.not_eq_false, isDelimited, Bool.and_eq_true,
    beq_iff_eq] at hdelimited
  obtain ⟨hopening, hclosing⟩ := hdelimited
  cases adu with
  | nil => simp at hopening
  | cons first rest =>
      obtain rfl : first = opening := by simpa using hopening
      have hcut : (opening :: rest).length - 2 = rest.length - 2 + 1 := by
        simp only [List.length_cons, minFrame] at hshort ⊢
        omega
      have hdigits : ((opening :: rest).drop 1).take ((opening :: rest).length - 3)
          = rest.take (rest.length - 2) := by simp
      rw [hcut, List.drop_succ_cons] at hclosing
      rw [hdigits] at h
      refine ⟨rest.take (rest.length - 2), ?_, ?_⟩
      · rw [← hclosing, List.cons_append, List.take_append_drop]
      · cases hdecode : Hex.decode (rest.take (rest.length - 2)) with
        | ok held =>
            simp only [hdecode, Except.ok.injEq] at h
            rw [h]
        | error fault => simp [hdecode] at h

/-- **A frame whose digits can be read** shows its end, whoever wrote it. -/
lemma endsAt_of_body {adu bytes : Bytes} (h : body adu = .ok bytes) : EndsAt complete adu := by
  obtain ⟨digits, rfl, hdecode⟩ := eq_of_body h
  refine endsAt_of_lineFeed fun hmem => ?_
  simp only [Hex.decode] at hdecode
  split_ifs at hdecode
  exact absurd (value?_of_decodeFrom 0 digits bytes hdecode _ hmem) (by decide)

/-- A reply that was accepted has digits that can be read. -/
lemma body_of_validate {request response : Bytes} {asked : UnitId × Bytes}
    (hasked : request? request = some asked) (h : validate request response = .ok ()) :
    ∃ bytes, body response = .ok bytes := by
  simp only [validate, hasked] at h
  obtain ⟨bytes, hbody, -⟩ := Result.bind_eq_ok.mp h
  exact ⟨bytes, hbody⟩

end Ascii

/-! ## Network frames -/

namespace Tcp

/-- **A frame with as many bytes as it announces.** -/
lemma size?_of_split? {adu : Bytes} {fields : Fields} (hsplit : split? adu = some fields)
    (hfollowing : fields.following.toNat = fields.present) : size? adu = some adu.length := by
  unfold split? at hsplit
  split at hsplit
  · rw [Option.some.injEq] at hsplit
    subst hsplit
    simp only [Fields.present, List.length_cons] at hfollowing
    simp only [size?, hfollowing, uncounted, List.length_cons, Option.some.injEq]
    omega
  · simp at hsplit

/-- A reply that was accepted announces its own length. -/
lemma size?_of_validate {checked : Bool} {request response : Bytes} {asked : Fields}
    (hasked : split? request = some asked) (h : validate checked request response = .ok ()) :
    size? response = some response.length := by
  cases hsplit : split? response with
  | none => simp [validate, hasked, hsplit] at h
  | some got =>
      by_cases hfollowing : got.following.toNat = got.present
      · exact size?_of_split? hsplit hfollowing
      · simp [validate, hasked, hsplit, hfollowing] at h
        split_ifs at h

/-- A frame that can be taken apart announces its own length. -/
lemma size?_of_parse {adu pdu : Bytes} {header : Header} (h : parse adu = .ok (header, pdu)) :
    size? adu = some adu.length := by
  cases hsplit : split? adu with
  | none => simp [parse, hsplit] at h
  | some fields =>
      by_cases hfollowing : fields.following.toNat = fields.present
      · exact size?_of_split? hsplit hfollowing
      · simp only [parse, hsplit] at h
        split_ifs at h

end Tcp

/-! ## All framings -/

namespace Framing

/-- **What a request frame asks**: the unit and the PDU in it, its check left unread, as it is when
a reply is compared with the request. -/
def asked? : Framing → Bytes → Option (UnitId × Bytes)
  | rtu, request => Rtu.split? request
  | ascii, request => Ascii.request? request
  | tcp _, request => (Tcp.split? request).map fun fields => (fields.unit, fields.pdu)

/-- **A reply that is accepted for a served function** shows its end. -/
lemma endsAt_of_validate {framing : Framing} {request response rest : Bytes} {unit : UnitId}
    {function : Function} (hasked : framing.asked? request = some (unit, function.code :: rest))
    (h : framing.validate request response = .ok ()) :
    EndsAt framing.responseComplete response := by
  cases framing with
  | rtu =>
      obtain ⟨pdu, answer, rfl, hpayload, hshape⟩ := Rtu.validate_eq_ok hasked h
      have hcode : pdu.head? = some function.code := by
        rw [Reply.payload_eq_ok hpayload]
        rfl
      exact .of_size Rtu.responseSize?_append (Rtu.responseSize?_frame unit hcode hshape)
  | ascii =>
      obtain ⟨bytes, hbody⟩ := Ascii.body_of_validate hasked h
      exact Ascii.endsAt_of_body hbody
  | tcp checked =>
      obtain ⟨fields, hsplit, -⟩ := Option.map_eq_some_iff.mp hasked
      exact .of_size Tcp.size?_append (Tcp.size?_of_validate hsplit h)

/-- **A frame that is read as a served request** shows its end. -/
lemma endsAt_of_readRequest {framing : Framing} {adu : Bytes} {header : Header}
    {request : Request} (h : framing.readRequest adu = .ok (header, request))
    (hserved : request.isServed = true) : EndsAt framing.requestComplete adu := by
  obtain ⟨pdu, hparse, hread⟩ := parse_of_readRequest h
  cases framing with
  | rtu =>
      rw [Rtu.eq_frame_of_parse hparse]
      exact .of_size Rtu.requestSize?_append (Rtu.requestSize?_frame _ hread hserved)
  | ascii =>
      obtain ⟨bytes, hbody, -⟩ := Result.bind_eq_ok.mp hparse
      exact Ascii.endsAt_of_body hbody
  | tcp checked => exact .of_size Tcp.size?_append (Tcp.size?_of_parse hparse)

/-- **Whoever accepts a frame agrees with whoever waited for it.**  In every framing, a reply that
is accepted for a request of a served function counts as complete at its last byte and at no byte
before, and so does every frame that is read as a served request. -/
theorem endsAt_of_accepted (framing : Framing) :
    (∀ (request response rest : Bytes) (unit : UnitId) (function : Function),
      framing.asked? request = some (unit, function.code :: rest) →
        framing.validate request response = .ok () →
          EndsAt framing.responseComplete response) ∧
      ∀ (adu : Bytes) (header : Header) (request : Request),
        framing.readRequest adu = .ok (header, request) → request.isServed = true →
          EndsAt framing.requestComplete adu :=
  ⟨fun _ _ _ _ _ => endsAt_of_validate, fun _ _ _ => endsAt_of_readRequest⟩

/-- An identification page of two objects, one of them empty. -/
theorem endsAt_of_accepted_page :
    let request := rtu.wrap ⟨1, none⟩ (Request.identifyPdu .basic 0)
    let response := rtu.wrap ⟨1, none⟩ [0x2B, 0x0E, 0x01, 0x81, 0x00, 0x00, 2, 0, 2, 86, 88, 1, 0]
    (rtu.asked? request = some (1, Function.identify.code :: [0x0E, 0x01, 0x00]) ∧
        rtu.validate request response = .ok () ∧
        rtu.readRequest request = .ok (⟨1, none⟩, .identify .basic 0)) ∧
      EndsAt rtu.responseComplete response ∧ EndsAt rtu.requestComplete request := by
  intro request response
  have hasked : rtu.asked? request
      = some (1, Function.identify.code :: [0x0E, 0x01, 0x00]) := by decide
  have hvalid : rtu.validate request response = .ok () := by decide +kernel
  have hread : rtu.readRequest request = .ok (⟨1, none⟩, .identify .basic 0) := by decide +kernel
  exact ⟨⟨hasked, hvalid, hread⟩, (endsAt_of_accepted rtu).1 _ _ _ _ _ hasked hvalid,
    (endsAt_of_accepted rtu).2 _ _ _ hread rfl⟩

end Framing

end Modbus
