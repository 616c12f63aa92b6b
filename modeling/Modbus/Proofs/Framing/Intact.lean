import Modbus.Proofs.Framing.Faults
import Modbus.Proofs.Service

/-!
# What an accepted reply is

A reply is checked against its request piece by piece, in another order and at other offsets in
each framing, and an exception reply is reported before its check is looked at.  This file says
what all of it comes to when nothing is reported: the reply is accepted exactly when it is a frame
that can be taken apart, is addressed like the request, and holds a PDU of the request's function
and of the right shape (`Framing.validate_eq_ok`).  `Framing.Bears` is the part of this that does
not look at the PDU.

In one direction an accepted reply has an intact check and header fields that agree, since these
are the last obstacles that `validate` puts in its way; in the other a frame that can be taken
apart has nothing left that could be reported but its unit, its transaction and its PDU.
-/

namespace Modbus

namespace Framing

/-- **A reply that belongs to a request** and holds a PDU: a frame that can be taken apart, of the
unit that was asked, with the number of the request where numbers are checked. -/
structure Bears (framing : Framing) (unit : UnitId) (transaction : UInt16) (reply pdu : Bytes) :
    Prop where
  intact : ∃ header, framing.parse reply = .ok (header, pdu) ∧ header.unit = unit ∧
    (framing = .tcp true → header.transaction = some transaction)

end Framing

/-- What a reply has to pass, and nothing else. -/
lemma Reply.judge_eq_ok_iff {unit got : UnitId} {code : UInt8} {asked pdu : Bytes}
    {intact : Bool} :
    judge unit (code :: asked) intact got pdu = .ok () ↔
      got = unit ∧ intact = true ∧ (∃ rest, pdu = code :: rest) ∧
        checkShape (code :: asked) pdu = .ok () := by
  refine ⟨judge_eq_ok, ?_⟩
  rintro ⟨rfl, rfl, ⟨rest, rfl⟩, hshape⟩
  rw [judge, if_neg (not_not_intro rfl), List.headD_cons, payload_code]
  exact hshape

/-! ## What can be taken apart -/

/-- The parts of a character frame. -/
lemma Ascii.parse_eq_ok_iff {adu pdu : Bytes} {header : Header} :
    parse adu = .ok (header, pdu) ↔ header.transaction = none ∧
      ∃ bytes, body adu = .ok bytes ∧ split? bytes = some (header.unit, pdu) ∧
        Checksum.lrcMatches bytes = true := by
  obtain ⟨unit, transaction⟩ := header
  constructor
  · intro h
    obtain ⟨bytes, hbody, h⟩ := Result.bind_eq_ok.mp h
    cases hsplit : split? bytes with
    | none => simp [hsplit] at h
    | some parts =>
        simp only [hsplit] at h
        split_ifs at h with hintact
        obtain ⟨hheader, rfl⟩ := Prod.mk.inj (Except.ok.inj h)
        obtain ⟨rfl, rfl⟩ := Header.mk.inj hheader
        exact ⟨rfl, bytes, hbody, hsplit, hintact⟩
  · rintro ⟨rfl, bytes, hbody, hsplit, hintact⟩
    simp only [parse, hbody, Result.ok_bind, hsplit, hintact]
    rfl

/-- The parts of a network frame. -/
lemma Tcp.parse_eq_ok_iff {adu pdu : Bytes} {header : Header} :
    parse adu = .ok (header, pdu) ↔ ∃ fields, split? adu = some fields ∧ fields.protocol = 0 ∧
      fields.following.toNat = fields.present ∧
      header = ⟨fields.unit, some fields.transaction⟩ ∧ pdu = fields.pdu := by
  constructor
  · intro h
    cases hsplit : split? adu with
    | none => simp [parse, hsplit] at h
    | some fields =>
        simp only [parse, hsplit] at h
        split_ifs at h with hprotocol hfollowing
        obtain ⟨hheader, hpdu⟩ := Prod.mk.inj (Except.ok.inj h)
        exact ⟨fields, rfl, not_not.mp hprotocol, not_not.mp hfollowing, hheader.symm, hpdu.symm⟩
  · rintro ⟨fields, hsplit, hprotocol, hfollowing, rfl, rfl⟩
    simp only [parse, hsplit, if_neg (not_not_intro hprotocol), if_neg (not_not_intro hfollowing)]

/-! ## What is accepted -/

section

variable {unit : UnitId} {transaction : UInt16} {code : UInt8} {asked reply : Bytes}

lemma Rtu.validate_frame_eq_ok :
    Rtu.validate (Rtu.frame unit (code :: asked)) reply = .ok () ↔
      ∃ pdu, Framing.rtu.Bears unit transaction reply pdu ∧ (∃ rest, pdu = code :: rest) ∧
        Reply.checkShape (code :: asked) pdu = .ok () := by
  have hasked := Rtu.split?_frame unit (List.cons_ne_nil code asked)
  constructor
  · intro h
    obtain ⟨pdu, rest, rfl, hpayload, hshape⟩ := Rtu.validate_eq_ok hasked h
    obtain rfl := Reply.payload_eq_ok hpayload
    have hparse := Rtu.parse_frame unit (List.cons_ne_nil code rest)
    exact ⟨_, ⟨_, hparse, rfl, by simp⟩, ⟨rest, rfl⟩, hshape⟩
  · rintro ⟨pdu, ⟨header, hparse, rfl, -⟩, ⟨rest, rfl⟩, hshape⟩
    obtain rfl := Rtu.eq_frame_of_parse hparse
    have hsplit := Rtu.split?_frame header.unit (List.cons_ne_nil code rest)
    rw [Rtu.validate_eq_judge hasked hsplit, Rtu.crcMatches_frame]
    exact Reply.judge_eq_ok_iff.mpr ⟨rfl, rfl, ⟨rest, rfl⟩, hshape⟩

lemma Ascii.validate_frame_eq_ok :
    Ascii.validate (Ascii.frame unit (code :: asked)) reply = .ok () ↔
      ∃ pdu, Framing.ascii.Bears unit transaction reply pdu ∧ (∃ rest, pdu = code :: rest) ∧
        Reply.checkShape (code :: asked) pdu = .ok () := by
  have hasked : request? (frame unit (code :: asked)) = some (unit, code :: asked) := by
    rw [request?, body_frame unit (List.cons_ne_nil code asked)]
    exact split?_body unit (List.cons_ne_nil code asked) _
  constructor
  · intro h
    obtain ⟨bytes, hbody⟩ := body_of_validate hasked h
    cases hsplit : split? bytes with
    | none =>
        rw [validate, hasked, hbody] at h
        simp only [Result.ok_bind, hsplit] at h
        cases h
    | some parts =>
        obtain ⟨got, pdu⟩ := parts
        rw [validate_eq_judge hasked hbody hsplit] at h
        obtain ⟨rfl, hintact, hcode, hshape⟩ := Reply.judge_eq_ok h
        have hparse : parse reply = .ok (⟨got, none⟩, pdu) :=
          parse_eq_ok_iff.mpr ⟨rfl, bytes, hbody, hsplit, hintact⟩
        exact ⟨pdu, ⟨_, hparse, rfl, by simp⟩, hcode, hshape⟩
  · rintro ⟨pdu, ⟨header, hparse, rfl, -⟩, hcode, hshape⟩
    obtain ⟨-, bytes, hbody, hsplit, hintact⟩ := parse_eq_ok_iff.mp hparse
    rw [validate_eq_judge hasked hbody hsplit]
    exact Reply.judge_eq_ok_iff.mpr ⟨rfl, hintact, hcode, hshape⟩

/-- The order of the checks on a network link, whether or not it checks transaction numbers. -/
lemma Tcp.validate_of_split? {checked : Bool} {request response : Bytes} {fields got : Fields}
    (hasked : split? request = some fields) (hgot : split? response = some got) :
    validate checked request response
      = if checked = true ∧ fields.transaction ≠ got.transaction then
          .error (.framing (.transactionMismatch (Word.toBytes fields.transaction)
            (Word.toBytes got.transaction)))
        else if got.protocol ≠ 0 then .error (.framing .replyProtocolIdentifier)
        else if got.following.toNat ≠ got.present then
          .error (.framing (.following got.following.toNat got.present))
        else Reply.judge fields.unit fields.pdu true got.unit got.pdu := by
  rw [validate, hasked, hgot]
  simp only [Bool.and_eq_true, bne_iff_ne]
  split_ifs <;> simp_all [Reply.judge]

lemma Tcp.validate_frame_eq_ok {checked : Bool} :
    Tcp.validate checked (Tcp.frame transaction unit (code :: asked)) reply = .ok () ↔
      ∃ pdu, (Framing.tcp checked).Bears unit transaction reply pdu ∧
        (∃ rest, pdu = code :: rest) ∧ Reply.checkShape (code :: asked) pdu = .ok () := by
  have hasked := split?_frame transaction unit (List.cons_ne_nil code asked)
  constructor
  · intro h
    cases hgot : split? reply with
    | none => simp [validate, hasked, hgot] at h
    | some got =>
        rw [validate_of_split? hasked hgot] at h
        split_ifs at h with htransaction hprotocol hfollowing
        obtain ⟨hunit, -, hcode, hshape⟩ := Reply.judge_eq_ok h
        have hparse := parse_eq_ok_iff.mpr
          ⟨got, hgot, not_not.mp hprotocol, not_not.mp hfollowing, rfl, rfl⟩
        refine ⟨got.pdu, ⟨_, hparse, hunit, fun hchecked => congrArg some ?_⟩, hcode, hshape⟩
        by_contra hother
        exact htransaction ⟨Framing.tcp.inj hchecked, Ne.symm hother⟩
  · rintro ⟨pdu, ⟨header, hparse, rfl, htransaction⟩, hcode, hshape⟩
    obtain ⟨got, hgot, hprotocol, hfollowing, rfl, rfl⟩ := parse_eq_ok_iff.mp hparse
    have hsame : ¬ (checked = true ∧ transaction ≠ got.transaction) := by
      rintro ⟨rfl, hother⟩
      exact hother (Option.some.inj (htransaction rfl)).symm
    rw [validate_of_split? hasked hgot, if_neg hsame, if_neg (not_not_intro hprotocol),
      if_neg (not_not_intro hfollowing)]
    exact Reply.judge_eq_ok_iff.mpr ⟨rfl, rfl, hcode, hshape⟩

end

namespace Framing

/-- **What an accepted reply is**: it belongs to its request, and its PDU is of the request's
function and of the right shape. -/
lemma validate_eq_ok {framing : Framing} {unit : UnitId} {transaction : UInt16} {code : UInt8}
    {asked reply : Bytes} :
    framing.validate (framing.wrap ⟨unit, some transaction⟩ (code :: asked)) reply = .ok () ↔
      ∃ pdu, framing.Bears unit transaction reply pdu ∧ (∃ rest, pdu = code :: rest) ∧
        Reply.checkShape (code :: asked) pdu = .ok () := by
  cases framing with
  | rtu => exact Rtu.validate_frame_eq_ok
  | ascii => exact Ascii.validate_frame_eq_ok
  | tcp checked => exact Tcp.validate_frame_eq_ok

end Framing

end Modbus
