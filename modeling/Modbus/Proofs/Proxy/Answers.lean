import Modbus.Proofs.Connection.Errand
import Modbus.Proofs.Proxy.Exceptions
import Modbus.Proofs.ReadReply

/-!
# A proxy always answers

Whatever the device behind it does, a proxy has one of three replies to a request that it makes
again (`Proxy.Settles`).  A response is made of the PDU of an accepted reply, and so it is of the
kind that was asked for (`Request.fulfilled_of_interpret`), and that of a write is the confirmation
of that write (`Request.confirmed_of_interpret`).  Which of the three is due, the history of the
connection tells (`Proxy.Answers`): the call of the request is one with a single exchange, and the
bytes that came back for it are what its reply is made of (`Errand.ran_of_outcome`).
-/

namespace Modbus

open Connection

/-! ## Responses that fulfil a request -/

namespace Reply

variable {code : UInt8} {pdu : Bytes} {count : UInt16}

lemma length_bits {values : List Bool} (h : bits code pdu count = .ok values) :
    values.length = count.toNat := by
  rw [bits_eq] at h
  obtain ⟨data, -, h⟩ := Result.bind_eq_ok.mp h
  split_ifs at h
  rw [← Except.ok.inj h, Bits.length_unpack]

lemma length_words {values : List UInt16} (h : words code pdu count = .ok values) :
    values.length = count.toNat := by
  rw [words_eq] at h
  obtain ⟨data, -, h⟩ := Result.bind_eq_ok.mp h
  split_ifs at h with henough
  rw [← Except.ok.inj h, List.length_take, Request.length_listOfBytes]
  omega

end Reply

namespace Request

/-- **A response of the kind that a request asks for**: with as many values as were to be read, of
the cells that were to be written, of the category that was asked for. -/
inductive FulfilledBy : Request → Response → Prop where
  | bits {table : BitTable} {start count : UInt16} {values : List Bool}
      (hcount : values.length = count.toNat) :
      FulfilledBy (.readBits table start count) (.bits table values)
  | words {table : WordTable} {start count : UInt16} {values : List UInt16}
      (hcount : values.length = count.toNat) :
      FulfilledBy (.readWords table start count) (.words table values)
  | coil (coil : Coil) : FulfilledBy (.writeCoil coil) (.coilWritten coil)
  | register (register : Register) :
      FulfilledBy (.writeRegister register) (.registerWritten register)
  | coils (coils : List Coil) :
      FulfilledBy (.writeCoils coils) (.coilsWritten (range coils).1 (range coils).2)
  | registers (registers : List Register) :
      FulfilledBy (.writeRegisters registers)
        (.registersWritten (range registers).1 (range registers).2)
  | identification {category : Category} {object : UInt8} {page : IdentificationReply}
      (hcategory : page.category = category) :
      FulfilledBy (.identify category object) (.identification page)

variable {request : Request} {response : Response} {access : Access} {pdu : Bytes}

lemma FulfilledBy.function (h : request.FulfilledBy response) :
    response.toPdu.head? = some request.function := by
  cases h <;> rfl

lemma eq_of_ifMatched {reply : Response} {matched : Bool}
    (h : reply.ifMatched matched = .ok response) : matched = true ∧ response = reply := by
  cases matched with
  | true => exact ⟨rfl, (Except.ok.inj h).symm⟩
  | false => cases h

/-- The reply to a write that the device behind confirmed, and to no other. -/
lemma fulfilled_of_written {matched : Bool}
    (h : request.present (.written matched) = .ok response) :
    matched = true ∧ request.FulfilledBy response := by
  cases request with
  | writeCoil coil =>
      obtain ⟨hmatched, rfl⟩ := eq_of_ifMatched h
      exact ⟨hmatched, .coil coil⟩
  | writeRegister register =>
      obtain ⟨hmatched, rfl⟩ := eq_of_ifMatched h
      exact ⟨hmatched, .register register⟩
  | writeCoils coils =>
      obtain ⟨hmatched, rfl⟩ := eq_of_ifMatched h
      exact ⟨hmatched, .coils coils⟩
  | writeRegisters registers =>
      obtain ⟨hmatched, rfl⟩ := eq_of_ifMatched h
      exact ⟨hmatched, .registers registers⟩
  | _ => cases h

/-- **What is read of an accepted reply** fulfils the request. -/
lemma fulfilled_of_interpret (h : request.interpret pdu = .ok response) :
    request.FulfilledBy response := by
  cases request with
  | readBits table start count =>
      obtain ⟨outcome, hconclude, hpresent⟩ := Result.bind_eq_ok.mp h
      obtain ⟨values, hvalues, hcells⟩ := Result.bind_eq_ok.mp hconclude
      obtain rfl := Except.ok.inj hcells
      obtain rfl := Except.ok.inj hpresent
      exact .bits (by simp [Reply.length_bits hvalues])
  | readWords table start count =>
      obtain ⟨outcome, hconclude, hpresent⟩ := Result.bind_eq_ok.mp h
      obtain ⟨values, hvalues, hcells⟩ := Result.bind_eq_ok.mp hconclude
      obtain rfl := Except.ok.inj hcells
      obtain rfl := Except.ok.inj hpresent
      exact .words (by simp [Reply.length_words hvalues])
  | writeCoil _ | writeRegister _ | writeCoils _ | writeRegisters _ =>
      obtain ⟨outcome, -, hpresent⟩ := Result.bind_eq_ok.mp h
      cases outcome with
      | written matched => exact (fulfilled_of_written hpresent).2
      | _ => cases hpresent
  | identify category object =>
      obtain ⟨fragment, -, hpage⟩ := Result.bind_eq_ok.mp h
      obtain rfl := Except.ok.inj hpage
      exact .identification rfl
  | invalid _ _ => cases h
  | unsupported _ => cases h

/-- **A write is reported only if it was confirmed.** -/
lemma confirmed_of_interpret (haccess : request.access? = some access)
    (hwrite : access.isWrite = true) (h : request.interpret pdu = .ok response) :
    access.confirmation? = some pdu := by
  rw [interpret_of_access haccess] at h
  obtain ⟨outcome, hconclude, hpresent⟩ := Result.bind_eq_ok.mp h
  cases outcome with
  | written matched =>
      obtain ⟨rfl, -⟩ := fulfilled_of_written hpresent
      exact Access.conclude_eq_confirmed.mp hconclude
  | bits cells =>
      cases request with
      | readBits _ _ _ =>
          obtain rfl := Option.some.inj haccess
          cases hwrite
      | _ => cases hpresent
  | words cells =>
      cases request with
      | readWords _ _ _ =>
          obtain rfl := Option.some.inj haccess
          cases hwrite
      | _ => cases hpresent

end Request

/-! ## Replies of a proxy -/

namespace Proxy

/-- **The device behind refused** the request of the call `id`: the bytes that came back are taken
for an exception reply to it. -/
def RefusedBehind (framing : Framing) (unit : UnitId) (transaction : UInt16) (request : Request)
    (told : List Occurrence) (id : Nat) (code : ExceptionCode) : Prop :=
  ∃ asked bytes, request.resent? = some (.ok asked) ∧ CameBack told id bytes ∧
    framing.validate (framing.wrap ⟨unit, some transaction⟩ asked) bytes
      = .error (.exception request.function code)

/-- **The reply of a proxy to a request** that the call `id` served, by what is told of the call. -/
structure Answers (framing : Framing) (unit : UnitId) (transaction : UInt16) (request : Request)
    (told : List Occurrence) (id : Nat) (response : Response) : Prop where
  /-- It carries the function code of the request, plain or flagged. -/
  function : response.toPdu.head? = some request.function ∨
    response.toPdu.head? = some (Function.flagged request.function)
  /-- What is no exception is what was asked for, and a write is reported only if its confirmation
  came back. -/
  fulfilled : (∃ code, response = request.exception code) ∨
    request.FulfilledBy response ∧
      ∀ access, request.access? = some access → access.isWrite = true →
        ∃ bytes confirmation, CameBack told id bytes ∧
          access.confirmation? = some confirmation ∧
            framing.Bears unit transaction bytes confirmation
  /-- A request that breaks the rules is not made again. -/
  invalid : ∀ function code, request = .invalid function code →
    response = .exception function code ∧ ¬ Accepted told id
  unsupported : ∀ function, request = .unsupported function →
    response = .exception function .illegalFunction ∧ ¬ Accepted told id
  /-- An exception of the device behind is passed on. -/
  refused : ∀ code, RefusedBehind framing unit transaction request told id code →
    response = request.exception code
  /-- Every other failure of a request that is made again is one of the device. -/
  failed : request.resent? ≠ none → ∀ code, response = request.exception code →
    RefusedBehind framing unit transaction request told id code ∨
      code = .slaveDeviceFailure ∧
        ∀ other, ¬ RefusedBehind framing unit transaction request told id other

variable {σ : Type} {framing : Framing} {unit : UnitId} {transaction : UInt16} {request : Request}
  {told : List Occurrence} {id : Nat} {asked : Bytes} {response : Response}

/-- An exception that a proxy makes by itself. -/
lemma Answers.of_unsent {code : ExceptionCode} (hnone : ¬ Accepted told id)
    (hinvalid : ∀ function own, request = .invalid function own → code = own)
    (hunsupported : ∀ function, request = .unsupported function → code = .illegalFunction)
    (hfailed : request.resent? ≠ none → code = .slaveDeviceFailure) :
    Answers framing unit transaction request told id (request.exception code) := by
  have hrefused (other : ExceptionCode) :
      ¬ RefusedBehind framing unit transaction request told id other := by
    rintro ⟨asked, bytes, -, ⟨ticket, haccepted, -⟩, -⟩
    exact hnone ⟨ticket, haccepted⟩
  refine ⟨.inr rfl, .inl ⟨code, rfl⟩, ?_, ?_, fun other hother => absurd hother (hrefused other),
    fun hresent other hother => .inr ⟨?_, hrefused⟩⟩
  · rintro function own rfl
    rw [hinvalid function own rfl]
    exact ⟨rfl, hnone⟩
  · rintro function rfl
    rw [hunsupported function rfl]
    exact ⟨rfl, hnone⟩
  · obtain rfl := (Response.exception.inj hother).2
    exact hfailed hresent

/-- **A reply that was made of a result from the link.** -/
lemma Answers.of_settles {result : Result Bytes} (hsent : request.resent? = some (.ok asked))
    (hcame : ∀ bytes, CameBack told id bytes ↔ result = .ok bytes)
    (hsettles : Settles framing unit transaction request asked result response) :
    Answers framing unit transaction request told id response := by
  have hresent : request.resent? ≠ none := by simp [hsent]
  have hplain : (∀ function code, request ≠ .invalid function code) ∧
      ∀ function, request ≠ .unsupported function := by
    refine ⟨?_, ?_⟩
    · rintro function code rfl
      exact hresent rfl
    · rintro function rfl
      exact hresent rfl
  -- The bytes that came back for the call are the result, and only one PDU was sent.
  have hrefused {code : ExceptionCode}
      (h : RefusedBehind framing unit transaction request told id code) :
      ∃ bytes, result = .ok bytes ∧ framing.validate (framing.wrap ⟨unit, some transaction⟩ asked)
        bytes = .error (.exception request.function code) := by
    obtain ⟨other, bytes, hother, hback, hvalid⟩ := h
    obtain rfl := Except.ok.inj (Option.some.inj (hsent.symm.trans hother))
    exact ⟨bytes, (hcame bytes).mp hback, hvalid⟩
  cases hsettles with
  | @fulfilled bytes pdu response hvalid hbears hinterpret =>
      have hfulfils := Request.fulfilled_of_interpret hinterpret
      refine ⟨.inl hfulfils.function, .inr ⟨hfulfils, fun access haccess hwrite => ?_⟩,
        fun function code h => absurd h (hplain.1 function code),
        fun function h => absurd h (hplain.2 function), fun code h => ?_, fun _ code h => ?_⟩
      · exact ⟨bytes, pdu, (hcame bytes).mpr rfl,
          Request.confirmed_of_interpret haccess hwrite hinterpret, hbears⟩
      · obtain ⟨_, ⟨⟩, hexception⟩ := hrefused h
        cases hvalid.symm.trans hexception
      · rw [h] at hfulfils
        cases hfulfils
  | @refused bytes code hexception =>
      refine ⟨.inr rfl, .inl ⟨code, rfl⟩, fun function code h => absurd h (hplain.1 function code),
        fun function h => absurd h (hplain.2 function), fun other h => ?_, fun _ other h => ?_⟩
      · obtain ⟨_, ⟨⟩, hother⟩ := hrefused h
        cases hexception.symm.trans hother
        rfl
      · obtain rfl := (Response.exception.inj h).2
        exact .inl ⟨asked, bytes, hsent, (hcame bytes).mpr rfl, hexception⟩
  | failed hother =>
      have hnone (code : ExceptionCode) :
          ¬ RefusedBehind framing unit transaction request told id code := fun h => by
        obtain ⟨bytes, hbytes, hexception⟩ := hrefused h
        exact hother bytes code hbytes hexception
      refine ⟨.inr rfl, .inl ⟨_, rfl⟩, fun function code h => absurd h (hplain.1 function code),
        fun function h => absurd h (hplain.2 function), fun code h => absurd h (hnone code),
        fun _ code h => .inr ⟨(Response.exception.inj h).2.symm, hnone⟩⟩

/-- **A proxy always answers, and answers the right question.**  On any connection that is in use,
whatever the link and its peer do and whoever cancels or disposes, a request that a proxy is done
with has a reply of its own function.  What is no exception is what was asked for, with as many
values as were asked for, and a write is reported only if the device behind confirmed it.  The code
of an exception is that of the device behind exactly if the reply that came back is refused as an
exception, and otherwise that of the request itself or of a device failure.  Replies are judged
against the frame that the proxy handed over. -/
theorem every_request_answered [Peer σ] (name : String) (timing : Timing) (framing : Framing)
    (wire : Wire σ) (before later : List (Happening Response)) (unit : UnitId)
    (request : Request) (cancelled : Bool) :
    let reached : Connection σ Response := (create name timing framing wire).runOver before
    let id := reached.calls.length
    let started := (Caller.start reached (handle framing unit request) cancelled).2
    let final := started.runOver later
    ∀ outcome, final.outcome? id = some outcome →
      ∃ transaction response, outcome = .ok response ∧
        (∀ asked, request.resent? = some (.ok asked) →
          HandsOver started later id (framing.wrap ⟨unit, some transaction⟩ asked)) ∧
        Answers framing unit transaction request (occurrences final.history) id response := by
  intro reached id started final outcome houtcome
  -- What is not sent is answered at once, and no request of the call is ever accepted.
  have hdone {response : Response} (hhandle : handle framing unit request = .done (.ok response)) :
      outcome = .ok response ∧ ¬ Accepted (occurrences final.history) id := by
    have hunasked :=
      unasked_of_outcome name timing framing wire before later cancelled (.ok response) outcome
    rw [← hhandle] at hunasked
    exact hunasked houtcome
  cases hresent : request.resent? with
  | none =>
      rcases @handle_of_unsent framing unit request hresent with ⟨function, code, rfl, hhandle⟩ |
        ⟨function, rfl, hhandle⟩
      · obtain ⟨rfl, hnone⟩ := hdone hhandle
        exact ⟨0, _, rfl, nofun, .of_unsent hnone (by rintro _ _ ⟨⟩; rfl) nofun (absurd hresent)⟩
      · obtain ⟨rfl, hnone⟩ := hdone hhandle
        exact ⟨0, _, rfl, nofun, .of_unsent hnone nofun (fun _ _ => rfl) (absurd hresent)⟩
  | some sent =>
      cases sent with
      | error error =>
          have hrefusal := @refusal_of_plain request _ (Request.plain_of_unsendable hresent)
          obtain ⟨rfl, hnone⟩ := hdone (hrefusal ▸ handle_of_unsendable hresent)
          refine ⟨0, _, rfl, nofun, .of_unsent hnone ?_ ?_ fun _ => rfl⟩
          · rintro function code rfl
            cases hresent
          · rintro function rfl
            cases hresent
      | ok asked =>
          let errand : Errand Response :=
            ⟨framing, unit, asked, framing.responseComplete, fun sent reply =>
              .ok (settled request (read framing request sent reply))⟩
          have hhandle : handle framing unit request = errand.operation := handle_of_resent hresent
          have hran := errand.ran_of_outcome name timing wire before later cancelled outcome
          rw [← hhandle] at hran
          obtain ⟨transaction, result, hhanded, rfl, hplain, hcame⟩ := hran houtcome
          refine ⟨transaction, _, rfl, ?_,
            .of_settles hresent hcame (settled_cases hresent hplain)⟩
          rintro _ ⟨⟩
          exact hhanded

/-- A coil written through a proxy, whose backend echoes the write under its first number. -/
theorem echoed_write_answered :
    let request : Request := .writeCoil ⟨0, true⟩
    let echo : Bytes := [0, 1, 0, 0, 0, 6, 1, 5, 0, 0, 0xFF, 0]
    let initial : Connection Responder Response :=
      create "backend" .network (.tcp true) { peer := .script [[echo]] }
    let actions : List (Action Response) :=
      [.caller 0, .caller 0] ++ List.replicate 8 .worker ++ [.caller 0, .caller 0]
    let later := actions.map Happening.act
    let started := (Caller.start initial (handle (.tcp true) 1 request) false).2
    let final := started.runOver later
    final.outcome? 0 = some (.ok (.coilWritten ⟨0, true⟩)) ∧
      ∃ transaction bytes,
        HandsOver started later 0
          ((Framing.tcp true).wrap ⟨1, some transaction⟩ (Request.writeCoilPdu ⟨0, true⟩)) ∧
        CameBack (occurrences final.history) 0 bytes ∧
        (Framing.tcp true).Bears 1 transaction bytes (Request.writeCoilPdu ⟨0, true⟩) := by
  intro request echo initial actions later started final
  have houtcome : final.outcome? 0 = some (.ok (.coilWritten ⟨0, true⟩)) := by
    simp only [final, started, later, actions, initial, echo, request, Caller.start]
    cbv
  clear_value later
  obtain ⟨transaction, response, hresponse, hhanded, hanswers⟩ :=
    every_request_answered "backend" .network (.tcp true) { peer := Responder.script [[echo]] } []
      later 1 request false _ houtcome
  obtain rfl := Except.ok.inj hresponse
  refine ⟨houtcome, transaction, ?_⟩
  rcases hanswers.fulfilled with ⟨code, hexception⟩ | ⟨-, hconfirmed⟩
  · cases hexception
  · obtain ⟨bytes, confirmation, hback, hconfirmation, hbears⟩ :=
      hconfirmed (.writeCoil ⟨0, true⟩) rfl rfl
    obtain rfl := Option.some.inj hconfirmation
    exact ⟨bytes, hhanded _ rfl, hback, hbears⟩

end Proxy

end Modbus
