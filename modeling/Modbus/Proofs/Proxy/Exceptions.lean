import Modbus.Proofs.Confirmation
import Modbus.Proofs.Grammar
import Modbus.Proofs.Proxy.Forwarding

/-!
# Where the code of an exception comes from

An error tells of an exception reply only if the frame of one was there: it is the check of a reply
against its request that finds it, and the function that it names is the function of that request
(`Framing.names_validate`).  Everything else that can go wrong on the way to a response tells of
none (`Result.Plain`): a reader that is given the PDU of an accepted reply finds the function code
that it looks for (`Request.plain_interpret`).

So what a proxy makes of a result from the link is one of three things (`Proxy.settled_cases`): the
response that was asked for, the exception of the device behind, or the exception that stands for
every other failure.
-/

namespace Modbus

/-! ## Readers of accepted replies -/

namespace Reply

variable {code : UInt8}

lemma plain_data (code : UInt8) (rest : Bytes) : Result.Plain (data code (code :: rest)) := by
  rw [data, payload_code, Result.ok_bind]
  cases rest with
  | nil => exact Result.plain_error rfl
  | cons size held =>
      dsimp only
      split_ifs
      · exact Result.plain_ok _
      · exact Result.plain_error rfl

lemma plain_echo (code : UInt8) (rest : Bytes) : Result.Plain (echo code (code :: rest)) := by
  rw [echo, payload_code, Result.ok_bind]
  split
  · exact Result.plain_ok _
  · exact Result.plain_error rfl

lemma plain_objects : ∀ (count : Nat) (records : Bytes), Result.Plain (objects count records)
  | 0, [] => Result.plain_ok _
  | 0, _ :: _ => Result.plain_error rfl
  | _ + 1, [] => Result.plain_error rfl
  | _ + 1, [_] => Result.plain_error rfl
  | count + 1, id :: size :: rest => by
      rw [objects]
      split_ifs
      · exact Result.plain_error rfl
      · exact (plain_objects count _).map _

lemma plain_fragment (rest : Bytes) :
    Result.Plain (fragment (Function.identify.code :: rest)) := by
  rw [fragment, payload_code, Result.ok_bind]
  split
  · split_ifs
    · exact Result.plain_error rfl
    · exact (plain_objects _ _).bind fun _ => Result.plain_ok _
  · exact Result.plain_error rfl

/-- The shape of a PDU is checked by readers that look for its own function code. -/
lemma plain_checkShape (request pdu : Bytes) : Result.Plain (checkShape request pdu) := by
  cases pdu with
  | nil => exact Result.plain_error rfl
  | cons code rest =>
      rw [checkShape]
      split
      · exact (plain_data code rest).map _
      · exact (plain_data code rest).map _
      · exact (plain_echo code rest).map _
      · exact (plain_echo code rest).map _
      · exact (plain_echo code rest).map _
      · exact (plain_echo code rest).map _
      · rename_i hidentify
        obtain rfl := Function.code_of_ofCode? hidentify
        refine (plain_fragment rest).bind fun _ => ?_
        split
        · exact Result.plain_error rfl
        · exact Result.plain_ok _
      · exact Result.plain_ok _

end Reply

/-! ## The check of a reply -/

/-- An exception reply, if the result tells of one, **names the function** `code`. -/
def Result.Names {α : Type} (code : UInt8) (result : Result α) : Prop :=
  ∀ function reason, result = .error (.exception function reason) → function = code

lemma Result.Plain.names {α : Type} {result : Result α} (h : Result.Plain result) (code : UInt8) :
    Result.Names code result := by
  intro function reason hexception
  exact absurd (h _ hexception) (by simp [Error.exceptionCode?])

namespace Reply

variable {asked unit : UnitId} {code : UInt8} {rest pdu : Bytes} {intact : Bool}

lemma names_payload : Result.Names code (payload code pdu) := by
  cases pdu with
  | nil => exact (Result.plain_error rfl).names code
  | cons first others =>
      simp only [payload]
      split_ifs
      · exact (Result.plain_ok _).names code
      · cases others with
        | nil => exact (Result.plain_error rfl).names code
        | cons reason _ =>
            rintro function _ ⟨⟩
            rfl
      · exact (Result.plain_error rfl).names code

lemma names_judge : Result.Names code (judge asked (code :: rest) intact unit pdu) := by
  by_cases hunit : unit = asked
  · rw [judge, if_neg (not_not_intro hunit), List.headD_cons]
    cases hpayload : payload code pdu with
    | error error =>
        rintro function reason ⟨⟩
        exact names_payload function reason hpayload
    | ok answer =>
        cases intact with
        | true => exact (plain_checkShape _ pdu).names code
        | false => exact (Result.plain_error rfl).names code
  · rw [judge_of_unit hunit]
    exact (Result.plain_error rfl).names code

end Reply

lemma Ascii.plain_body (adu : Bytes) : Result.Plain (body adu) := by
  rw [body]
  split_ifs
  · exact Result.plain_error rfl
  · exact Result.plain_error rfl
  · split
    · exact Result.plain_ok _
    · exact Result.plain_error rfl

section

variable {unit : UnitId} {transaction : UInt16} {code : UInt8} {asked reply : Bytes}

lemma Rtu.names_validate :
    Result.Names code (Rtu.validate (Rtu.frame unit (code :: asked)) reply) := by
  have hasked := Rtu.split?_frame unit (List.cons_ne_nil code asked)
  cases hsplit : Rtu.split? reply with
  | none =>
      rw [Rtu.validate, hasked, hsplit]
      exact (Result.plain_error rfl).names code
  | some parts =>
      rw [Rtu.validate_eq_judge hasked hsplit]
      exact Reply.names_judge

lemma Ascii.names_validate :
    Result.Names code (Ascii.validate (Ascii.frame unit (code :: asked)) reply) := by
  have hasked : request? (frame unit (code :: asked)) = some (unit, code :: asked) := by
    rw [request?, body_frame unit (List.cons_ne_nil code asked)]
    exact split?_body unit (List.cons_ne_nil code asked) _
  cases hbody : body reply with
  | error error =>
      rw [validate, hasked, hbody]
      exact (Result.plain_error (plain_body reply error hbody)).names code
  | ok bytes =>
      cases hsplit : split? bytes with
      | none =>
          rw [validate, hasked, hbody]
          simp only [Result.ok_bind, hsplit]
          exact (Result.plain_error rfl).names code
      | some parts =>
          rw [validate_eq_judge hasked hbody hsplit]
          exact Reply.names_judge

lemma Tcp.names_validate {checked : Bool} :
    Result.Names code
      (Tcp.validate checked (Tcp.frame transaction unit (code :: asked)) reply) := by
  have hasked := split?_frame transaction unit (List.cons_ne_nil code asked)
  cases hgot : split? reply with
  | none =>
      rw [validate, hasked, hgot]
      exact (Result.plain_error rfl).names code
  | some got =>
      rw [validate_of_split? hasked hgot]
      split_ifs
      · exact (Result.plain_error rfl).names code
      · exact (Result.plain_error rfl).names code
      · exact (Result.plain_error rfl).names code
      · exact Reply.names_judge

/-- **A reply is refused as an exception of the function that was asked for**, and of no other. -/
lemma Framing.names_validate {framing : Framing} :
    Result.Names code
      (framing.validate (framing.wrap ⟨unit, some transaction⟩ (code :: asked)) reply) := by
  cases framing with
  | rtu => exact Rtu.names_validate
  | ascii => exact Ascii.names_validate
  | tcp checked => exact Tcp.names_validate

end

/-! ## What is made of a result -/

lemma Response.plain_ifMatched (reply : Response) (matched : Bool) :
    Result.Plain (reply.ifMatched matched) := by
  cases matched with
  | true => exact Result.plain_ok _
  | false => exact Result.plain_error rfl

namespace Request

variable {request : Request} {access : Access}

lemma plain_present (request : Request) (outcome : Outcome) :
    Result.Plain (request.present outcome) := by
  cases request <;> cases outcome <;>
    first
    | exact Result.plain_ok _
    | exact Result.plain_error rfl
    | exact Response.plain_ifMatched _ _

/-- What a client concludes from a PDU with the function code of its request. -/
lemma plain_conclude (haccess : request.access? = some access) (rest : Bytes) :
    Result.Plain (access.conclude (request.function :: rest)) := by
  cases request with
  | readBits table start count =>
      obtain rfl := Option.some.inj haccess
      refine Result.Plain.bind ?_ fun _ => Result.plain_ok _
      refine (Reply.plain_data table.code rest).bind fun data => ?_
      dsimp only
      split_ifs
      · exact Result.plain_ok _
      · exact Result.plain_error rfl
  | readWords table start count =>
      obtain rfl := Option.some.inj haccess
      refine Result.Plain.bind ?_ fun _ => Result.plain_ok _
      refine (Reply.plain_data table.code rest).bind fun data => ?_
      split_ifs
      · exact Result.plain_error rfl
      · exact Result.plain_ok _
  | writeCoil coil =>
      obtain rfl := Option.some.inj haccess
      refine Result.Plain.bind ?_ fun _ => Result.plain_ok _
      refine (Reply.plain_echo _ rest).bind fun echoed => ?_
      cases hstate : coilState? echoed.2 with
      | some on =>
          simp only [hstate]
          exact Result.plain_ok _
      | none =>
          simp only [hstate]
          exact Result.plain_error rfl
  | writeRegister register =>
      obtain rfl := Option.some.inj haccess
      refine Result.Plain.bind ?_ fun _ => Result.plain_ok _
      exact (Reply.plain_echo _ rest).bind fun _ => Result.plain_ok _
  | writeCoils coils =>
      obtain rfl := Option.some.inj haccess
      exact Result.Plain.bind (Reply.plain_echo _ rest) fun _ => Result.plain_ok _
  | writeRegisters registers =>
      obtain rfl := Option.some.inj haccess
      exact Result.Plain.bind (Reply.plain_echo _ rest) fun _ => Result.plain_ok _
  | identify _ _ => simp [access?] at haccess
  | invalid _ _ => simp [access?] at haccess
  | unsupported _ => simp [access?] at haccess

/-- **The reader of an accepted reply** tells of no exception. -/
lemma plain_interpret (h : request.resent? ≠ none) (rest : Bytes) :
    Result.Plain (request.interpret (request.function :: rest)) := by
  obtain ⟨sent, hsent⟩ := Option.ne_none_iff_exists'.mp h
  rcases access?_of_resent hsent with ⟨access, haccess, -⟩ | ⟨category, object, rfl, -⟩
  · rw [interpret_of_access haccess]
    exact (plain_conclude haccess rest).bind fun _ => plain_present request _
  · exact (Reply.plain_fragment rest).bind fun _ => Result.plain_ok _

lemma plain_readPdu (function : UInt8) (start count : UInt16) :
    Result.Plain (readPdu function start count) := by
  simp only [readPdu]
  split_ifs <;> first | exact Result.plain_ok _ | exact Result.plain_error rfl

/-- What is sent for a request begins with its function code. -/
lemma function_of_resent {asked : Bytes} (h : request.resent? = some (.ok asked)) :
    ∃ rest, asked = request.function :: rest := by
  cases request with
  | readBits table start count => exact ⟨_, (readPdu_eq_ok (Option.some.inj h)).1⟩
  | readWords table start count => exact ⟨_, (readPdu_eq_ok (Option.some.inj h)).1⟩
  | writeCoils coils =>
      obtain ⟨sorted, -, hpdu⟩ := Result.bind_eq_ok.mp (Option.some.inj h)
      exact ⟨_, (Except.ok.inj hpdu).symm⟩
  | writeRegisters registers =>
      obtain ⟨sorted, -, hpdu⟩ := Result.bind_eq_ok.mp (Option.some.inj h)
      exact ⟨_, (Except.ok.inj hpdu).symm⟩
  | invalid _ _ => simp [resent?, access?] at h
  | unsupported _ => simp [resent?, access?] at h
  | _ => exact ⟨_, (Except.ok.inj (Option.some.inj h)).symm⟩

lemma plain_batch {α : Type} (max : UInt16) (cells : List (Cell α)) :
    Result.Plain (batch max cells) := by
  rw [batch]
  split_ifs
  · exact Result.plain_error rfl
  · exact Result.plain_error rfl
  · dsimp only
    split
    · exact Result.plain_error rfl
    · exact Result.plain_ok _

/-- **Arguments that a proxy cannot send** are refused without an exception. -/
lemma plain_of_unsendable {error : Error} (h : request.resent? = some (.error error)) :
    error.exceptionCode? = none := by
  cases request with
  | readBits table start count => exact plain_readPdu _ start count error (Option.some.inj h)
  | readWords table start count => exact plain_readPdu _ start count error (Option.some.inj h)
  | writeCoils coils =>
      have hplain : Result.Plain (writeCoilsPdu coils) :=
        (plain_batch _ coils).bind fun _ => Result.plain_ok _
      exact hplain error (Option.some.inj h)
  | writeRegisters registers =>
      have hplain : Result.Plain (writeRegistersPdu registers) :=
        (plain_batch _ registers).bind fun _ => Result.plain_ok _
      exact hplain error (Option.some.inj h)
  | invalid _ _ => simp [resent?, access?] at h
  | unsupported _ => simp [resent?, access?] at h
  | _ => cases Option.some.inj h

end Request

namespace Proxy

variable {framing : Framing} {unit : UnitId} {transaction : UInt16} {request : Request}
  {asked : Bytes}

/-- **What a proxy makes of a result** that came from the link for the frame of its request. -/
inductive Settles (framing : Framing) (unit : UnitId) (transaction : UInt16) (request : Request)
    (asked : Bytes) : Result Bytes → Response → Prop where
  /-- The response is what the PDU of an accepted reply says. -/
  | fulfilled {bytes pdu : Bytes} {response : Response}
      (hvalid : framing.validate (framing.wrap ⟨unit, some transaction⟩ asked) bytes = .ok ())
      (hbears : framing.Bears unit transaction bytes pdu)
      (hinterpret : request.interpret pdu = .ok response) :
      Settles framing unit transaction request asked (.ok bytes) response
  /-- The device behind refused. -/
  | refused {bytes : Bytes} {code : ExceptionCode}
      (hrefused : framing.validate (framing.wrap ⟨unit, some transaction⟩ asked) bytes
        = .error (.exception request.function code)) :
      Settles framing unit transaction request asked (.ok bytes) (request.exception code)
  | failed {reply : Result Bytes}
      (hother : ∀ bytes code, reply = .ok bytes →
        framing.validate (framing.wrap ⟨unit, some transaction⟩ asked) bytes
          ≠ .error (.exception request.function code)) :
      Settles framing unit transaction request asked reply
        (request.exception .slaveDeviceFailure)

lemma refusal_of_plain {error : Error} (h : error.exceptionCode? = none) :
    refusal request error = request.exception .slaveDeviceFailure := by
  rw [refusal, h]
  rfl

/-- **A result from the link is settled** in one of three ways. -/
lemma settled_cases {reply : Result Bytes} (hsent : request.resent? = some (.ok asked))
    (hplain : Result.Plain reply) :
    Settles framing unit transaction request asked reply
      (settled request
        (read framing request (framing.wrap ⟨unit, some transaction⟩ asked) reply)) := by
  obtain ⟨rest, rfl⟩ := Request.function_of_resent hsent
  cases reply with
  | error error =>
      rw [read, Result.error_bind, settled, refusal_of_plain (hplain error rfl)]
      refine .failed ?_
      rintro bytes code ⟨⟩
  | ok bytes =>
      rw [read, Result.ok_bind]
      cases hvalid : framing.validate
          (framing.wrap ⟨unit, some transaction⟩ (request.function :: rest)) bytes with
      | error error =>
          rw [Result.error_bind, settled]
          cases hcode : error.exceptionCode? with
          | none =>
              rw [refusal_of_plain hcode]
              refine .failed fun other code hother hrefused => ?_
              obtain rfl := Except.ok.inj hother
              obtain rfl := Except.error.inj (hvalid.symm.trans hrefused)
              simp [Error.exceptionCode?] at hcode
          | some code =>
              cases error with
              | exception function reason =>
                  -- Only a reply to this very request is refused so.
                  obtain rfl := Framing.names_validate function reason hvalid
                  exact .refused hvalid
              | _ => simp [Error.exceptionCode?] at hcode
      | ok _ =>
          obtain ⟨pdu, hbears, ⟨answer, rfl⟩, -⟩ := Framing.validate_eq_ok.mp hvalid
          obtain ⟨header, hparse, -⟩ := hbears.intact
          simp only [Result.ok_bind, hparse]
          cases hinterpret : request.interpret (request.function :: answer) with
          | ok response => exact .fulfilled hvalid hbears hinterpret
          | error error =>
              have hresent : request.resent? ≠ none := by simp [hsent]
              rw [settled, refusal_of_plain (Request.plain_interpret hresent answer _ hinterpret)]
              refine .failed fun other code hother hrefused => ?_
              obtain rfl := Except.ok.inj hother
              simp [hvalid] at hrefused

end Proxy

end Modbus
