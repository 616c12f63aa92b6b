import Modbus.Proofs.Framing.Detection

/-!
# Which fault is reported

A reply is checked in a fixed order: on a network link the fields of its header, then the unit, the
function code, on a serial line the check, and last the shape of the PDU.  This file changes one
byte of a reply that was accepted and says which of these checks speaks up
(`Framing.fault_reported`).

From the unit on the order is the same in every framing, so it is stated once, as `Reply.judge`, and
each `validate` is its own beginning followed by it (`Rtu.validate_eq_judge`,
`Ascii.validate_eq_judge`, `Tcp.validate_eq_judge`).  On a serial line every changed byte makes the
check wrong, which `Detection` knows, so only the two checks that come before it can hide that
(`Reply.judge_set`).  A network frame has no check; there each field of the header has a check of
its own.
-/

namespace Modbus

namespace Reply

/-! ## The order of the checks -/

/-- **What is asked of every reply**: the unit, the function code, an intact frame, the shape of the
PDU, in this order. -/
def judge (asked : UnitId) (request : Bytes) (intact : Bool) (unit : UnitId) (pdu : Bytes) :
    Result Unit := do
  if unit ≠ asked then throw (.framing (.unitMismatch asked unit))
  let _ ← payload (request.headD 0) pdu
  if !intact then throw (.framing .checksum)
  checkShape request pdu

/-- What is reported where the function code `code` was expected and `value` stands, followed by
`reason`. -/
def codeFault (code reason value : UInt8) : Error :=
  if value = Function.flagged code then .exception code (.ofByte reason)
  else .framing (.functionMismatch code value)

/-- **What is reported of a serial reply** of which the byte at a place was replaced by `value`; the
byte behind its function code is `reason`. -/
def serialFault (unit : UnitId) (code reason value : UInt8) : Nat → Error
  | 0 => .framing (.unitMismatch unit value)
  | 1 => codeFault code reason value
  | _ => .framing .checksum

variable {asked unit : UnitId} {request pdu : Bytes} {intact : Bool}

lemma judge_of_unit (h : unit ≠ asked) :
    judge asked request intact unit pdu = .error (.framing (.unitMismatch asked unit)) := by
  rw [judge, if_pos h]
  rfl

lemma judge_of_code {code reason value : UInt8} {rest data : Bytes} (h : value ≠ code) :
    judge asked (code :: rest) intact asked (value :: reason :: data)
      = .error (codeFault code reason value) := by
  have hpayload : payload code (value :: reason :: data)
      = .error (codeFault code reason value) := by
    rw [payload, if_neg h, codeFault]
    split_ifs <;> rfl
  rw [judge, if_neg (not_not_intro rfl), List.headD_cons, hpayload]
  rfl

lemma judge_of_torn {code : UInt8} {rest data : Bytes} :
    judge asked (code :: rest) false asked (code :: data) = .error (.framing .checksum) := by
  rw [judge, if_neg (not_not_intro rfl), List.headD_cons]
  simp only [payload, if_true]
  rfl

/-- What a reply has passed. -/
lemma judge_eq_ok {code : UInt8} {rest : Bytes}
    (h : judge asked (code :: rest) intact unit pdu = .ok ()) :
    unit = asked ∧ intact = true ∧ (∃ data, pdu = code :: data) ∧
      checkShape (code :: rest) pdu = .ok () := by
  by_cases hunit : unit = asked
  · rw [judge, if_neg (not_not_intro hunit)] at h
    obtain ⟨data, hpayload, h⟩ := Result.bind_eq_ok.mp h
    cases intact with
    | true => exact ⟨hunit, rfl, ⟨data, payload_eq_ok hpayload⟩, h⟩
    | false => simp at h
  · rw [judge_of_unit hunit] at h
    simp at h

/-- **A reply of a served function says more than its function code.** -/
lemma exists_reason {function : Function} (h : checkShape request pdu = .ok ())
    (hcode : ∃ data, pdu = function.code :: data) :
    ∃ reason data, pdu = function.code :: reason :: data := by
  obtain ⟨data, rfl⟩ := hcode
  cases data with
  | cons reason data => exact ⟨reason, data, rfl⟩
  | nil =>
      cases function <;>
        simp [checkShape, Reply.data, echo, fragment, payload, Request.startAndCount,
          Except.map] at h

/-- **A serial reply with one byte replaced** fails on the first check that reads the byte. -/
lemma judge_set {code reason old value : UInt8} {rest tail others : Bytes} {trailing index : Nat}
    (htail : trailing ≤ tail.length) (hold : (asked :: code :: reason :: tail)[index]? = some old)
    (hvalue : value ≠ old)
    (hset : (asked :: code :: reason :: tail).set index value = unit :: others) :
    judge asked (code :: rest) false unit (others.take (others.length - trailing))
      = .error (serialFault asked code reason value index) := by
  match index, hold with
  | 0, hold =>
      obtain ⟨rfl, rfl⟩ := List.cons.inj hset
      obtain rfl := Option.some.inj hold
      exact judge_of_unit hvalue
  | 1, hold =>
      obtain ⟨rfl, rfl⟩ := List.cons.inj hset
      obtain rfl := Option.some.inj hold
      have hlong : (value :: reason :: tail).length - trailing = tail.length - trailing + 2 := by
        simp only [List.length_cons]
        omega
      rw [List.set_cons_zero, hlong, List.take_succ_cons, List.take_succ_cons]
      exact judge_of_code hvalue
  | index + 2, hold =>
      obtain ⟨rfl, rfl⟩ := List.cons.inj hset
      have hlong : (code :: (reason :: tail).set index value).length - trailing
          = (reason :: tail).length - trailing + 1 := by
        simp only [List.length_cons, List.length_set]
        omega
      simp only [List.set_cons_succ, List.take_succ_cons, hlong]
      exact judge_of_torn

end Reply

/-! ## Binary frames -/

namespace Rtu

lemma split?_cons {unit : UnitId} {rest : Bytes} (h : 3 ≤ rest.length) :
    split? (unit :: rest) = some (unit, rest.take (rest.length - 2)) := by
  rw [split?, if_neg (by omega)]

lemma validate_eq_judge {request response requestPdu pdu : Bytes} {asked unit : UnitId}
    (hasked : split? request = some (asked, requestPdu))
    (hsplit : split? response = some (unit, pdu)) :
    validate request response
      = Reply.judge asked requestPdu (Checksum.crcMatches response) unit pdu := by
  rw [validate, hasked, hsplit]
  rfl

/-- **A binary reply with one byte replaced.** -/
lemma validate_set {request response rest : Bytes} {unit : UnitId} {function : Function}
    (hasked : split? request = some (unit, function.code :: rest))
    (h : validate request response = .ok ()) :
    ∃ reason, response[2]? = some reason ∧
      ∀ index old value, response[index]? = some old → value ≠ old →
        validate request (response.set index value)
          = .error (Reply.serialFault unit function.code reason value index) := by
  obtain ⟨pdu, answer, rfl, hpayload, hshape⟩ := validate_eq_ok hasked h
  obtain ⟨reason, data, rfl⟩ :=
    Reply.exists_reason hshape ⟨answer, Reply.payload_eq_ok hpayload⟩
  refine ⟨reason, rfl, fun index old value hold hvalue => ?_⟩
  have hintact := crcMatches_frame unit (function.code :: reason :: data)
  obtain ⟨tail, hframe, hlong⟩ : ∃ tail, frame unit (function.code :: reason :: data)
      = unit :: function.code :: reason :: tail ∧ 2 ≤ tail.length :=
    ⟨data ++ Checksum.crcTrailer _, rfl, by simp⟩
  rw [hframe] at hintact hold ⊢
  have htorn := Checksum.crcMatches_set hintact hold hvalue
  cases hset : (unit :: function.code :: reason :: tail).set index value with
  | nil => simp at hset
  | cons first others =>
      have hothers : others.length = tail.length + 2 := by
        have hlengths := congrArg List.length hset
        simp only [List.length_set, List.length_cons] at hlengths
        omega
      rw [hset] at htorn
      rw [validate_eq_judge hasked (split?_cons (by omega)), htorn]
      exact Reply.judge_set hlong hold hvalue hset

end Rtu

/-! ## Character frames -/

namespace Ascii

lemma split?_cons {unit : UnitId} {rest : Bytes} (h : 2 ≤ rest.length) :
    split? (unit :: rest) = some (unit, rest.take (rest.length - 1)) := by
  rw [split?, if_neg (by omega), List.dropLast_eq_take]

lemma validate_eq_judge {request response requestPdu bytes pdu : Bytes} {asked unit : UnitId}
    (hasked : request? request = some (asked, requestPdu)) (hbody : body response = .ok bytes)
    (hsplit : split? bytes = some (unit, pdu)) :
    validate request response
      = Reply.judge asked requestPdu (Checksum.lrcMatches bytes) unit pdu := by
  rw [validate, hasked, hbody]
  simp only [Result.ok_bind, hsplit]
  rfl

/-- **A character reply with one byte replaced**, however the other bytes are spelled. -/
lemma validate_set {request response rest : Bytes} {unit : UnitId} {function : Function}
    (hasked : request? request = some (unit, function.code :: rest))
    (h : validate request response = .ok ()) :
    ∃ bytes reason, body response = .ok bytes ∧ bytes[2]? = some reason ∧
      ∀ index old value, bytes[index]? = some old → value ≠ old →
        (∃ changed, body changed = .ok (bytes.set index value)) ∧
          ∀ changed, body changed = .ok (bytes.set index value) →
            validate request changed
              = .error (Reply.serialFault unit function.code reason value index) := by
  obtain ⟨bytes, hbody⟩ := body_of_validate hasked h
  cases hsplit : split? bytes with
  | none =>
      rw [validate, hasked, hbody] at h
      simp only [Result.ok_bind, hsplit] at h
      cases h
  | some parts =>
      obtain ⟨found, pdu⟩ := parts
      rw [validate_eq_judge hasked hbody hsplit] at h
      obtain ⟨rfl, hintact, hcode, hshape⟩ := Reply.judge_eq_ok h
      obtain ⟨reason, data, rfl⟩ := Reply.exists_reason hshape hcode
      obtain ⟨-, hbytes⟩ := eq_of_split? hsplit hintact
      obtain ⟨tail, rfl, hlong⟩ :
          ∃ tail, bytes = found :: function.code :: reason :: tail ∧ 1 ≤ tail.length :=
        ⟨data ++ [Checksum.lrc (found :: function.code :: reason :: data)], hbytes, by simp⟩
      refine ⟨_, reason, hbody, rfl, fun index old value hold hvalue => ⟨?_, ?_⟩⟩
      · exact ⟨_, body_of_upper (by simp only [List.length_set, List.length_cons]; omega)
          (Hex.map_upper_encode _)⟩
      · intro changed hchanged
        have htorn := Checksum.lrcMatches_set hintact hold hvalue
        cases hset : (found :: function.code :: reason :: tail).set index value with
        | nil => simp at hset
        | cons first others =>
            have hothers : others.length = tail.length + 2 := by
              have hlengths := congrArg List.length hset
              simp only [List.length_set, List.length_cons] at hlengths
              omega
            rw [hset] at htorn hchanged
            rw [validate_eq_judge hasked hchanged (split?_cons (by omega)), htorn]
            exact Reply.judge_set hlong hold hvalue hset

end Ascii

/-! ## Network frames -/

lemma Word.ofBytes_ne_of_high {high low value : UInt8} (h : value ≠ high) :
    Word.ofBytes value low ≠ Word.ofBytes high low :=
  fun heq => h (Word.ofBytes_inj.mp heq).1

lemma Word.ofBytes_ne_of_low {high low value : UInt8} (h : value ≠ low) :
    Word.ofBytes high value ≠ Word.ofBytes high low :=
  fun heq => h (Word.ofBytes_inj.mp heq).2

namespace Tcp

/-- The number of bytes that a frame announces behind its length field. -/
def announced : Bytes → Nat
  | _ :: _ :: _ :: _ :: l₁ :: l₂ :: _ => (Word.ofBytes l₁ l₂).toNat
  | _ => 0

/-- **What is reported of a network reply** of which one of the first eight bytes was replaced by
`value`; the byte behind its function code is `reason`. -/
def headerFault (request changed : Bytes) (unit : UnitId) (code reason value : UInt8) :
    Nat → Error
  | 0 | 1 => .framing (.transactionMismatch (request.take 2) (changed.take 2))
  | 2 | 3 => .framing .replyProtocolIdentifier
  | 4 | 5 => .framing (.following (announced changed) (changed.length - uncounted))
  | 6 => .framing (.unitMismatch unit value)
  | _ => Reply.codeFault code reason value

lemma split?_eq_some {adu : Bytes} {fields : Fields} (h : split? adu = some fields) :
    ∃ t₁ t₂ p₁ p₂ l₁ l₂ unit code rest,
      adu = t₁ :: t₂ :: p₁ :: p₂ :: l₁ :: l₂ :: unit :: code :: rest ∧
        fields = ⟨Word.ofBytes t₁ t₂, Word.ofBytes p₁ p₂, Word.ofBytes l₁ l₂, unit,
          code :: rest⟩ := by
  unfold split? at h
  split at h
  · rename_i t₁ t₂ p₁ p₂ l₁ l₂ unit code rest
    exact ⟨t₁, t₂, p₁, p₂, l₁, l₂, unit, code, rest, rfl, (Option.some.inj h).symm⟩
  · simp at h

variable {request response rest : Bytes} {asked : Fields} {t₁ t₂ p₁ p₂ l₁ l₂ unit code : UInt8}

lemma take_two_of_split? (h : split? request = some asked) :
    request.take 2 = Word.toBytes asked.transaction := by
  obtain ⟨t₁, t₂, p₁, p₂, l₁, l₂, unit, code, rest, rfl, rfl⟩ := split?_eq_some h
  exact (Word.toBytes_ofBytes t₁ t₂).symm

/-- The order of the checks on a network link that checks transaction numbers. -/
lemma validate_eq_judge (hasked : split? request = some asked)
    (hresponse : response = t₁ :: t₂ :: p₁ :: p₂ :: l₁ :: l₂ :: unit :: code :: rest) :
    validate true request response
      = if asked.transaction ≠ Word.ofBytes t₁ t₂ then
          .error (.framing (.transactionMismatch (request.take 2) (response.take 2)))
        else if Word.ofBytes p₁ p₂ ≠ 0 then .error (.framing .replyProtocolIdentifier)
        else if announced response ≠ response.length - uncounted then
          .error (.framing (.following (announced response) (response.length - uncounted)))
        else Reply.judge asked.unit asked.pdu true unit (code :: rest) := by
  subst hresponse
  have hpresent : (t₁ :: t₂ :: p₁ :: p₂ :: l₁ :: l₂ :: unit :: code :: rest).length - uncounted
      = (code :: rest).length + 1 := rfl
  rw [validate, hasked, split?, take_two_of_split? hasked, take_two_of_split? rfl, hpresent,
    announced]
  simp only [Bool.true_and, bne_iff_ne, Fields.present]
  split_ifs <;> simp_all [Reply.judge]

section Order

variable (hasked : split? request = some asked)
  (hresponse : response = t₁ :: t₂ :: p₁ :: p₂ :: l₁ :: l₂ :: unit :: code :: rest)

include hasked hresponse

lemma validate_of_transaction (h : asked.transaction ≠ Word.ofBytes t₁ t₂) :
    validate true request response
      = .error (.framing (.transactionMismatch (request.take 2) (response.take 2))) := by
  rw [validate_eq_judge hasked hresponse, if_pos h]

lemma validate_of_protocol (htransaction : asked.transaction = Word.ofBytes t₁ t₂)
    (h : Word.ofBytes p₁ p₂ ≠ 0) :
    validate true request response = .error (.framing .replyProtocolIdentifier) := by
  rw [validate_eq_judge hasked hresponse, if_neg (not_not_intro htransaction), if_pos h]

lemma validate_of_following (htransaction : asked.transaction = Word.ofBytes t₁ t₂)
    (hprotocol : Word.ofBytes p₁ p₂ = 0)
    (h : announced response ≠ response.length - uncounted) :
    validate true request response
      = .error (.framing (.following (announced response) (response.length - uncounted))) := by
  rw [validate_eq_judge hasked hresponse, if_neg (not_not_intro htransaction),
    if_neg (not_not_intro hprotocol), if_pos h]

/-- With its header in order a network reply is judged like any other. -/
lemma validate_of_header (htransaction : asked.transaction = Word.ofBytes t₁ t₂)
    (hprotocol : Word.ofBytes p₁ p₂ = 0)
    (hfollowing : announced response = response.length - uncounted) :
    validate true request response = Reply.judge asked.unit asked.pdu true unit (code :: rest) := by
  rw [validate_eq_judge hasked hresponse, if_neg (not_not_intro htransaction),
    if_neg (not_not_intro hprotocol), if_neg (not_not_intro hfollowing)]

end Order

/-- What a reply has passed on a network link that checks transaction numbers. -/
lemma validate_eq_ok (hasked : split? request = some asked)
    (h : validate true request response = .ok ()) :
    ∃ t₁ t₂ p₁ p₂ l₁ l₂ unit code rest,
      response = t₁ :: t₂ :: p₁ :: p₂ :: l₁ :: l₂ :: unit :: code :: rest ∧
        asked.transaction = Word.ofBytes t₁ t₂ ∧ Word.ofBytes p₁ p₂ = 0 ∧
          announced response = response.length - uncounted ∧
            Reply.judge asked.unit asked.pdu true unit (code :: rest) = .ok () := by
  cases hgot : split? response with
  | none =>
      rw [validate, hasked, hgot] at h
      cases h
  | some got =>
      obtain ⟨t₁, t₂, p₁, p₂, l₁, l₂, unit, code, rest, hresponse, -⟩ := split?_eq_some hgot
      rw [validate_eq_judge hasked hresponse] at h
      split_ifs at h with htransaction hprotocol hfollowing
      exact ⟨t₁, t₂, p₁, p₂, l₁, l₂, unit, code, rest, hresponse, not_not.mp htransaction,
        not_not.mp hprotocol, not_not.mp hfollowing, h⟩

/-- **A network reply with one byte of its header replaced**, or its function code. -/
lemma validate_set {unit : UnitId} {function : Function}
    (hasked : (split? request).map (fun fields => (fields.unit, fields.pdu))
      = some (unit, function.code :: rest))
    (h : validate true request response = .ok ()) :
    ∃ reason, response[8]? = some reason ∧
      ∀ index old value, index < 8 → response[index]? = some old → value ≠ old →
        validate true request (response.set index value)
          = .error (headerFault request (response.set index value) unit function.code reason value
              index) := by
  obtain ⟨asked, hrequest, hparts⟩ := Option.map_eq_some_iff.mp hasked
  obtain ⟨rfl, hpdu⟩ := Prod.mk.inj hparts
  obtain ⟨t₁, t₂, p₁, p₂, l₁, l₂, found, code, tail, rfl, htransaction, hprotocol, hfollowing,
    hjudge⟩ := validate_eq_ok hrequest h
  rw [hpdu] at hjudge
  obtain ⟨rfl, -, hcode, hshape⟩ := Reply.judge_eq_ok hjudge
  obtain ⟨reason, data, hdata⟩ := Reply.exists_reason hshape hcode
  obtain ⟨rfl, rfl⟩ := List.cons.inj hdata
  -- The byte that was replaced is in one field, and the checks before that field still pass.
  refine ⟨reason, rfl, fun index old value hindex hold hvalue => ?_⟩
  match index, hold with
  | 0, hold =>
      obtain rfl := Option.some.inj hold
      refine validate_of_transaction hrequest rfl ?_
      rw [htransaction]
      exact (Word.ofBytes_ne_of_high hvalue).symm
  | 1, hold =>
      obtain rfl := Option.some.inj hold
      refine validate_of_transaction hrequest rfl ?_
      rw [htransaction]
      exact (Word.ofBytes_ne_of_low hvalue).symm
  | 2, hold =>
      obtain rfl := Option.some.inj hold
      refine validate_of_protocol hrequest rfl htransaction ?_
      rw [← hprotocol]
      exact Word.ofBytes_ne_of_high hvalue
  | 3, hold =>
      obtain rfl := Option.some.inj hold
      refine validate_of_protocol hrequest rfl htransaction ?_
      rw [← hprotocol]
      exact Word.ofBytes_ne_of_low hvalue
  | 4, hold =>
      obtain rfl := Option.some.inj hold
      refine validate_of_following hrequest rfl htransaction hprotocol fun heq => ?_
      exact Word.ofBytes_ne_of_high hvalue (UInt16.toNat_inj.mp (heq.trans hfollowing.symm))
  | 5, hold =>
      obtain rfl := Option.some.inj hold
      refine validate_of_following hrequest rfl htransaction hprotocol fun heq => ?_
      exact Word.ofBytes_ne_of_low hvalue (UInt16.toNat_inj.mp (heq.trans hfollowing.symm))
  | 6, hold =>
      obtain rfl := Option.some.inj hold
      refine (validate_of_header hrequest rfl htransaction hprotocol ?_).trans ?_
      · exact hfollowing
      · exact Reply.judge_of_unit hvalue
  | 7, hold =>
      obtain rfl := Option.some.inj hold
      refine (validate_of_header hrequest rfl htransaction hprotocol ?_).trans ?_
      · exact hfollowing
      · rw [hpdu]
        exact Reply.judge_of_code hvalue

end Tcp

/-! ## All framings -/

namespace Framing

/-- **Validation reports the fault that is there.**  A reply that was accepted for a request of a
served function always has a byte behind its function code.  With one byte of it replaced, it is
refused for that byte: on a serial line for the unit, for the function code, or else for the check,
and on a network link that checks transaction numbers for the field of the header that the byte
belongs to, or for the function code.  A function code that is the requested one with its flag set
is read as an exception, whose code is the byte behind it.  On a line of characters the bytes are
those that the digits of the reply spell, and it is the same for every spelling of them. -/
theorem fault_reported (request response rest : Bytes) (unit : UnitId) (function : Function) :
    (rtu.asked? request = some (unit, function.code :: rest) →
        rtu.validate request response = .ok () →
          ∃ reason, response[2]? = some reason ∧
            ∀ index old value, response[index]? = some old → value ≠ old →
              rtu.validate request (response.set index value)
                = .error (Reply.serialFault unit function.code reason value index)) ∧
      ((tcp true).asked? request = some (unit, function.code :: rest) →
        (tcp true).validate request response = .ok () →
          ∃ reason, response[8]? = some reason ∧
            ∀ index old value, index < 8 → response[index]? = some old → value ≠ old →
              (tcp true).validate request (response.set index value)
                = .error (Tcp.headerFault request (response.set index value) unit function.code
                    reason value index)) ∧
      (ascii.asked? request = some (unit, function.code :: rest) →
        ascii.validate request response = .ok () →
          ∃ bytes reason, Ascii.body response = .ok bytes ∧ bytes[2]? = some reason ∧
            ∀ index old value, bytes[index]? = some old → value ≠ old →
              (∃ changed, Ascii.body changed = .ok (bytes.set index value)) ∧
                ∀ changed, Ascii.body changed = .ok (bytes.set index value) →
                  ascii.validate request changed
                    = .error (Reply.serialFault unit function.code reason value index)) :=
  ⟨Rtu.validate_set, Tcp.validate_set, Ascii.validate_set⟩

/-- A reply with one register: as a binary frame with the flag of its function code set, as a
network frame with one byte less announced, and as characters with a wrong byte of data. -/
theorem fault_reported_register :
    let code := (Function.readWords .holdingRegisters).code
    let rest : Bytes := [0x00, 0x00, 0x00, 0x01]
    let pdu : Bytes := [code, 0x02, 0x12, 0x34]
    let framed (framing : Framing) := (framing.wrap ⟨0x11, some 7⟩ (code :: rest),
      framing.wrap ⟨0x11, some 7⟩ pdu)
    let misread := Ascii.frame 0x11 pdu |>.set 8 0x33
    (∀ framing ∈ [rtu, tcp true, ascii],
        framing.asked? (framed framing).1 = some (0x11, code :: rest) ∧
          framing.validate (framed framing).1 (framed framing).2 = .ok ()) ∧
      rtu.validate (framed rtu).1 ((framed rtu).2.set 1 0x83)
          = .error (.exception code .illegalDataAddress) ∧
      (tcp true).validate (framed (tcp true)).1 ((framed (tcp true)).2.set 5 4)
          = .error (.framing (.following 4 5)) ∧
      ascii.validate (framed ascii).1 misread = .error (.framing .checksum) := by
  intro code rest pdu framed misread
  have hexchange : ∀ framing ∈ [rtu, tcp true, ascii],
      framing.asked? (framed framing).1 = some (0x11, code :: rest) ∧
        framing.validate (framed framing).1 (framed framing).2 = .ok () := by decide +kernel
  obtain ⟨hbinary, -, -⟩ := fault_reported (framed rtu).1 (framed rtu).2 rest 0x11
    (.readWords .holdingRegisters)
  obtain ⟨-, hnetwork, -⟩ := fault_reported (framed (tcp true)).1 (framed (tcp true)).2 rest 0x11
    (.readWords .holdingRegisters)
  obtain ⟨-, -, hcharacters⟩ := fault_reported (framed ascii).1 (framed ascii).2 rest 0x11
    (.readWords .holdingRegisters)
  refine ⟨hexchange, ?_, ?_, ?_⟩
  · obtain ⟨hasked, hvalid⟩ := hexchange rtu (by simp)
    obtain ⟨reason, hreason, hfault⟩ := hbinary hasked hvalid
    obtain rfl : 0x02 = reason := Option.some.inj hreason
    exact hfault 1 code 0x83 (by decide +kernel) (by decide)
  · obtain ⟨hasked, hvalid⟩ := hexchange (tcp true) (by simp)
    obtain ⟨reason, -, hfault⟩ := hnetwork hasked hvalid
    have hannounced : Tcp.announced ((framed (tcp true)).2.set 5 4) = 4 := by decide +kernel
    rw [hfault 5 5 4 (by decide) (by decide +kernel) (by decide), Tcp.headerFault, hannounced]
    rfl
  · obtain ⟨hasked, hvalid⟩ := hexchange ascii (by simp)
    obtain ⟨bytes, reason, hbody, -, hfault⟩ := hcharacters hasked hvalid
    have hspelled : Ascii.body (framed ascii).2 = .ok [0x11, code, 0x02, 0x12, 0x34, 0xA4] := by
      decide +kernel
    obtain rfl := Except.ok.inj (hspelled.symm.trans hbody)
    exact (hfault 3 0x12 0x13 (by decide +kernel) (by decide)).2 misread (by decide +kernel)

end Framing

end Modbus
