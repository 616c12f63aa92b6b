import Modbus.Proxy
import Modbus.Proofs.Service

/-!
# What a proxy makes of a request

A proxy takes a request that was read from a PDU apart and makes it again.  This file shows that
nothing is lost on the way.  Every request for memory that can be read at all is an access whose
arguments a client accepts, and the PDU of that access is read as the same request again
(`Request.served_of_ofPdu`): a batch was read as a sequence, and sorting a sequence changes nothing
(`Request.batch_sequence`).

`Proxy.handle_of_access` is the program of the proxy with its effects first: one exchange, and a
response made from what the client concludes.  What it makes of the right conclusion is the
response of the device itself (`Access.Served.present`).  Requests that are refused or not served
cause no exchange at all (`Proxy.handle_of_refused`).
-/

namespace Modbus

/-! ## Requests for memory are accesses -/

/-- The access that a request asks for, if it asks for memory. -/
def Request.access? : Request → Option Access
  | .readBits table start count => some (.readBits table start count)
  | .readWords table start count => some (.readWords table start count)
  | .writeCoil coil => some (.writeCoil coil)
  | .writeRegister register => some (.writeRegister register)
  | .writeCoils coils => some (.writeCoils coils)
  | .writeRegisters registers => some (.writeRegisters registers)
  | .identify _ _ => none
  | .invalid _ _ => none
  | .unsupported _ => none

namespace Request

variable {α : Type}

lemma pairwise_sequence (start : UInt16) (values : List α)
    (hspace : start.toNat + values.length ≤ 65536) :
    (Cell.sequence start values).Pairwise fun a b => decide (a.address ≤ b.address) = true := by
  have hsorted : ((Cell.sequence start values).map fun cell => cell.address.toNat).Pairwise
      (· < ·) := by
    rw [Cell.map_address_sequence start values hspace]
    exact List.pairwise_lt_range'
  rw [List.pairwise_map] at hsorted
  refine hsorted.imp fun hlt => ?_
  rw [decide_eq_true_iff, UInt16.le_iff_toNat_le]
  exact Nat.le_of_lt hlt

/-- **A sequence is a batch as it stands.** -/
lemma batch_sequence {max start count : UInt16} {values : List α}
    (hrange : rangeFault? max start count = none) (hlength : values.length = count.toNat) :
    batch max (Cell.sequence start values) = .ok (Cell.sequence start values) := by
  obtain ⟨hsome, hshort, hspace⟩ := rangeFault?_eq_none.mp hrange
  rw [← hlength] at hsome hshort hspace
  have hne : Cell.sequence start values ≠ [] := by
    rw [← List.length_pos_iff, Cell.length_sequence]
    omega
  have hmany : ¬ max.toNat < (Cell.sequence start values).length := by
    rw [Cell.length_sequence]
    omega
  have hsort : (Cell.sequence start values).mergeSort (fun a b => decide (a.address ≤ b.address))
      = Cell.sequence start values :=
    List.mergeSort_of_pairwise (pairwise_sequence start values hspace)
  simp only [batch, if_neg hne, if_neg hmany, hsort, addressFault?_sequence start values hspace]

/-- A range in order is accepted by a client. -/
lemma readPdu_of_range {function : UInt8} {max start count : UInt16}
    (hmax : (if function = 0x01 ∨ function = 0x02 then Limit.readBits else Limit.readWords) = max)
    (hrange : rangeFault? max start count = none) :
    readPdu function start count = .ok (function :: (Word.toBytes start ++ Word.toBytes count)) := by
  simp only [rangeFault?] at hrange
  split_ifs at hrange with hcount hspace
  simp only [readPdu, hmax, if_neg hcount, if_neg hspace, List.cons_append]

end Request

/-! ## What the client is told becomes the reply -/

/-- A reply to a write that was confirmed. -/
def Response.ifMatched (reply : Response) (matched : Bool) : Result Response :=
  if matched then .ok reply else .error (.framing .echoMismatch)

/-- **The response that a proxy makes** of what the client is told. -/
def Request.present : Request → Outcome → Result Response
  | .readBits table _ _, .bits cells => .ok (.bits table (cells.map Cell.value))
  | .readWords table _ _, .words cells => .ok (.words table (cells.map Cell.value))
  | .writeCoil coil, .written matched => (Response.coilWritten coil).ifMatched matched
  | .writeRegister register, .written matched =>
    (Response.registerWritten register).ifMatched matched
  | .writeCoils coils, .written matched =>
    (Response.coilsWritten (range coils).1 (range coils).2).ifMatched matched
  | .writeRegisters registers, .written matched =>
    (Response.registersWritten (range registers).1 (range registers).2).ifMatched matched
  | _, _ => .error (.framing .echoMismatch)

/-- **The values of a range** are what reading it gives. -/
lemma Covers.map_value {α : Type} {table : UInt16 → α} {start count : UInt16}
    {cells : List (Cell α)} (h : Covers table start count cells) :
    cells.map Cell.value = Image.read table start count.toNat := by
  obtain ⟨haddresses, hvalues⟩ := h
  have hcells : cells.map Cell.value
      = (cells.map fun cell => cell.address.toNat).map fun address => table (UInt16.ofNat address) := by
    rw [List.map_map]
    refine List.map_congr_left fun cell hcell => ?_
    simp [hvalues cell hcell]
  rw [hcells, haddresses, List.range'_eq_map_range, List.map_map, Image.read]
  refine List.map_congr_left fun offset _ => ?_
  simp [UInt16.ofNat_add]

/-- Whether an access changes memory. -/
def Access.isWrite : Access → Bool
  | .readBits _ _ _ => false
  | .readWords _ _ _ => false
  | .writeCoil _ => true
  | .writeRegister _ => true
  | .writeCoils _ => true
  | .writeRegisters _ => true

lemma Access.Answered.eq_written {access : Access} {image : Image} {outcome : Outcome}
    (h : access.Answered image outcome) (hwrite : access.isWrite = true) :
    outcome = .written true := by
  cases access <;> cases outcome <;> simp_all [Access.Answered, Access.isWrite]

/-- **Of the right conclusion the proxy makes the response of the device.** -/
lemma Access.Served.present {access : Access} {pdu : Bytes} {image : Image} {request : Request}
    {response : Response} {outcome : Outcome}
    (h : access.Served pdu image request response) (haccess : request.access? = some access)
    (hanswered : access.Answered image outcome) : request.present outcome = .ok response := by
  obtain ⟨hreply, -⟩ := h.handled { unit := fun _ => some image } 0 rfl
  simp only [Store.handle, Store.hasUnit, Option.isSome_some, Bool.not_true, Bool.false_eq_true,
    if_false] at hreply
  cases request with
  | readBits table start count =>
      obtain rfl := Option.some.inj haccess
      cases outcome with
      | bits cells =>
          rw [Request.present, Covers.map_value hanswered]
          exact congrArg _ (Option.some.inj hreply)
      | words _ => exact hanswered.elim
      | written _ => exact hanswered.elim
  | readWords table start count =>
      obtain rfl := Option.some.inj haccess
      cases outcome with
      | bits _ => exact hanswered.elim
      | words cells =>
          rw [Request.present, Covers.map_value hanswered]
          exact congrArg _ (Option.some.inj hreply)
      | written _ => exact hanswered.elim
  | writeCoil coil =>
      obtain rfl := Option.some.inj haccess
      obtain rfl := Access.Answered.eq_written hanswered rfl
      exact congrArg _ (Option.some.inj hreply)
  | writeRegister register =>
      obtain rfl := Option.some.inj haccess
      obtain rfl := Access.Answered.eq_written hanswered rfl
      exact congrArg _ (Option.some.inj hreply)
  | writeCoils coils =>
      obtain rfl := Option.some.inj haccess
      obtain rfl := Access.Answered.eq_written hanswered rfl
      exact congrArg _ (Option.some.inj hreply)
  | writeRegisters registers =>
      obtain rfl := Option.some.inj haccess
      obtain rfl := Access.Answered.eq_written hanswered rfl
      exact congrArg _ (Option.some.inj hreply)
  | identify _ _ => simp [Request.access?] at haccess
  | invalid _ _ => simp [Request.access?] at haccess
  | unsupported _ => simp [Request.access?] at haccess

/-! ## The program of a proxy, effects first -/

namespace Proxy

variable {framing : Framing} {unit : UnitId} {request : Request}

lemma confirmed_eq (reply : Response) (matched : Bool) :
    confirmed reply matched = Operation.ofResult (reply.ifMatched matched) := rfl

/-- **Making a request again** is its access, and a response made of the outcome. -/
lemma forward_of_access {access : Access} (haccess : request.access? = some access) :
    forward framing unit request = access.operation framing unit >>= fun outcome =>
      Operation.ofResult (request.present outcome) := by
  cases request with
  | readBits table start count =>
      obtain rfl := Option.some.inj haccess
      simp [forward, Access.operation, Request.present]
  | readWords table start count =>
      obtain rfl := Option.some.inj haccess
      simp [forward, Access.operation, Request.present]
  | writeCoil coil =>
      obtain rfl := Option.some.inj haccess
      simp [forward, Access.operation, Request.present, confirmed_eq]
  | writeRegister register =>
      obtain rfl := Option.some.inj haccess
      simp [forward, Access.operation, Request.present, confirmed_eq]
  | writeCoils coils =>
      obtain rfl := Option.some.inj haccess
      simp [forward, Access.operation, Request.present, confirmed_eq]
  | writeRegisters registers =>
      obtain rfl := Option.some.inj haccess
      simp [forward, Access.operation, Request.present, confirmed_eq]
  | identify _ _ => simp [Request.access?] at haccess
  | invalid _ _ => simp [Request.access?] at haccess
  | unsupported _ => simp [Request.access?] at haccess

/-- The reply of a proxy to whatever making the request again comes to. -/
def settled (request : Request) : Result Response → Response
  | .ok response => response
  | .error error => refusal request error

lemma handle_eq : handle framing unit request
    = (forward framing unit request).attempt >>= fun outcome =>
        Operation.ofResult (.ok (settled request outcome)) := by
  refine congrArg ((forward framing unit request).attempt >>= ·) (funext fun outcome => ?_)
  cases outcome <;> rfl

/-- **A proxy makes one exchange** for a request for memory, and replies with what comes of it. -/
lemma handle_of_access {access : Access} {pdu : Bytes} (haccess : request.access? = some access)
    (hpdu : access.pdu = .ok pdu) :
    handle framing unit request = .frame unit pdu fun sent =>
      .invoke sent framing.responseComplete fun reply =>
        .done (.ok (settled request (access.read framing sent reply >>= request.present))) := by
  have hforward : forward framing unit request = .frame unit pdu fun sent =>
      .invoke sent framing.responseComplete fun reply =>
        .done (access.read framing sent reply >>= request.present) := by
    rw [forward_of_access haccess, Access.operation_of_pdu hpdu]
    exact congrArg (Operation.frame unit pdu) (funext fun sent =>
      congrArg (Operation.invoke sent framing.responseComplete) (funext fun reply =>
        Operation.ofResult_bind (access.read framing sent reply) request.present))
  rw [handle_eq, hforward]
  rfl

/-- **A proxy answers by itself** where the device would not look at its memory either. -/
lemma handle_of_refused (framing : Framing) {store : Store}
    (hexists : store.hasUnit unit = true)
    (haccess : request.access? = none)
    (hplain : ∀ category object, request ≠ .identify category object) :
    ∃ response, handle framing unit request = .done (.ok response) ∧
      store.handle unit request = ⟨some response, store, []⟩ := by
  cases request with
  | identify category object => exact absurd rfl (hplain category object)
  | invalid function code =>
      refine ⟨.exception function code, rfl, ?_⟩
      simp [Store.handle, hexists]
  | unsupported function =>
      refine ⟨(Request.unsupported function).exception .illegalFunction, rfl, ?_⟩
      simp [Store.handle, hexists]
  | _ => simp [Request.access?] at haccess

end Proxy

end Modbus
