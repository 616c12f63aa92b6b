import Modbus.Proofs.Proxy.Requests

/-!
# One exchange for one request

`Requests` follows a proxy through the requests for memory.  This file adds those for
identification, so that the program of a proxy has one form for whatever it is asked.  A request is
sent again as a PDU, or its arguments are refused, or it is not sent at all (`Request.resent?`);
what comes back is made into a response (`Request.interpret`), and every error on the way into an
exception (`Proxy.settled`).  The three cases are `Proxy.handle_of_resent`,
`Proxy.handle_of_unsendable` and `Proxy.handle_of_unsent`.
-/

namespace Modbus

namespace Request

/-- **What a proxy sends for a request**: a PDU, or nothing because of the error that the arguments
deserve.  A request that is invalid or not served is not made again. -/
def resent? : Request → Option (Result Bytes)
  | .identify category object => some (.ok (identifyPdu category object))
  | request => request.access?.map Access.pdu

/-- **The response that a proxy makes** of the PDU of a reply. -/
def interpret : Request → Bytes → Result Response
  | .identify category _, pdu => do
    return .identification ((← Reply.fragment pdu).toReply category)
  | request, pdu =>
    match request.access? with
    | some access => access.conclude pdu >>= request.present
    | none => .error (.framing .echoMismatch)

lemma interpret_of_access {request : Request} {access : Access}
    (haccess : request.access? = some access) (pdu : Bytes) :
    request.interpret pdu = access.conclude pdu >>= request.present := by
  cases request with
  | identify _ _ => simp [access?] at haccess
  | _ => simp [interpret, haccess]

/-- What is sent again is an access to memory or to the identification. -/
lemma access?_of_resent {request : Request} {sent : Result Bytes}
    (h : request.resent? = some sent) :
    (∃ access, request.access? = some access ∧ access.pdu = sent) ∨
      ∃ category object, request = .identify category object ∧
        sent = .ok (identifyPdu category object) := by
  cases request with
  | identify category object => exact .inr ⟨category, object, rfl, (Option.some.inj h).symm⟩
  | _ => exact .inl (Option.map_eq_some_iff.mp h)

end Request

namespace Proxy

variable {framing : Framing} {unit : UnitId} {request : Request}

/-- **What making a request again comes to**, from the bytes that come back. -/
def read (framing : Framing) (request : Request) (sent : Bytes) (reply : Result Bytes) :
    Result Response := do
  let response ← reply
  framing.validate sent response
  let (_, pdu) ← framing.parse response
  request.interpret pdu

lemma read_of_access {access : Access} (haccess : request.access? = some access) (sent : Bytes)
    (reply : Result Bytes) :
    access.read framing sent reply >>= request.present = read framing request sent reply := by
  cases reply with
  | error error => rfl
  | ok response =>
      simp only [Access.read, read, Result.ok_bind, request.interpret_of_access haccess]
      cases framing.validate sent response with
      | error error => rfl
      | ok _ => cases framing.parse response <;> rfl

/-- **A proxy makes one exchange** for a request that it sends again, and replies with what comes of
it. -/
lemma handle_of_resent {pdu : Bytes} (h : request.resent? = some (.ok pdu)) :
    handle framing unit request = .frame unit pdu fun sent =>
      .invoke sent framing.responseComplete fun reply =>
        .done (.ok (settled request (read framing request sent reply))) := by
  rcases Request.access?_of_resent h with ⟨access, haccess, hpdu⟩ | ⟨category, object, rfl, hpdu⟩
  · rw [handle_of_access haccess hpdu]
    simp only [read_of_access haccess]
  · obtain rfl := Except.ok.inj hpdu
    have hforward : forward framing unit (.identify category object)
        = Client.exchange framing unit (Request.identifyPdu category object) >>= fun response =>
            Operation.ofResult (do
              let (_, pdu) ← framing.parse response
              (Request.identify category object).interpret pdu) := by
      simp only [forward, Client.fragment, Framing.readFragment, bind_assoc, Operation.pure_eq,
        Operation.ofResult_bind, Request.interpret, Result.pure_eq]
    rw [handle_eq, hforward, Client.exchange_bind]
    rfl

/-- Arguments that are refused are answered at once. -/
lemma handle_of_unsendable {error : Error} (h : request.resent? = some (.error error)) :
    handle framing unit request = .done (.ok (refusal request error)) := by
  rcases Request.access?_of_resent h with ⟨access, haccess, hpdu⟩ | ⟨category, object, rfl, hpdu⟩
  · rw [handle_eq, forward_of_access haccess, Access.operation_of_error hpdu]
    rfl
  · cases hpdu

/-- A request that is not sent again. -/
lemma handle_of_unsent (h : request.resent? = none) :
    (∃ function code, request = .invalid function code ∧
        handle framing unit request = .done (.ok (.exception function code))) ∨
      ∃ function, request = .unsupported function ∧
        handle framing unit request = .done (.ok (.exception function .illegalFunction)) := by
  cases request with
  | invalid function code => exact .inl ⟨function, code, rfl, rfl⟩
  | unsupported function => exact .inr ⟨function, rfl, rfl⟩
  | _ => simp [Request.resent?, Request.access?] at h

end Proxy

end Modbus
