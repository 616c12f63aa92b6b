import Modbus.Proofs.Connection.Receiving
import Modbus.Proofs.Server.Serving
import Modbus.Proofs.Service

/-!
# An access from end to end

One access passes through everything the library has: the client serialises and frames it, the
bytes cross the link in pieces, the server puts them together and asks the device, the device
answers and changes its memory, the reply crosses the link in pieces, and the client puts it
together, checks it and reads it.  `Exchanged` is the list of what all these stations are meant to
do with one access, and `exchanged_of_accepted` says that they do, for every framing, every store,
every access whose arguments are accepted and every way to cut both frames.
-/

namespace Modbus

/-- **The outcome of an operation** whose PDUs are framed by a codec and whose frames are exchanged
for replies by a function. -/
def Operation.against {α : Type} (exchange : Bytes → (Bytes → Bool) → Result Bytes) :
    Codec → Operation α → Result α
  | _, done outcome => outcome
  | codec, frame unit pdu next =>
    let (adu, codec) := codec.request unit pdu
    (next adu).against exchange codec
  | codec, invoke request complete next =>
    (next (exchange request complete)).against exchange codec

/-- **One access and its reply**, station by station. -/
structure Exchanged (codec : Codec) (device : Device) (unit : UnitId) (image : Image)
    (access : Access) (request reply : Bytes) : Prop where
  /-- The reply is no longer than a frame may be. -/
  fits : reply.length ≤ codec.framing.maxAdu
  /-- However the request is cut, the server asks the device once, writes the reply and nothing
  else, and the store changes as the access is meant to change it. -/
  served : ∀ reads, Cut request reads →
    let loop := DeviceServer.readAll { server := { framing := codec.framing }, device } reads
    loop.server.outbox = reply ∧
      loop.device.store = access.apply unit device.store ∧
      ∃ decoded, access.pdu >>= Request.ofPdu = .ok decoded ∧
        (Serving.start codec.framing device).readAll Device.answer reads
          = loop.withAsked [(unit, decoded)]
  /-- However the reply is cut, and whatever arrives behind it, the client stops reading at its last
  byte. -/
  received : ∀ {σ α : Type} [Peer σ] (connection : Connection σ α) (item : Queued)
    (reads behind : List Bytes), Cut reply reads →
    item.complete = codec.framing.responseComplete → connection.worker = .receiving item [] →
    connection.wire.connected = true → connection.wire.arriving = reads ++ behind →
    let after := connection.run (List.replicate reads.length .worker)
    after.worker = .concluding item (.ok reply) ∧ after.wire.arriving = behind
  /-- The reply is found to answer the request. -/
  valid : codec.framing.validate request reply = .ok ()
  /-- Over a link that exchanges the request for the reply, the client is told what it is meant to
  be told. -/
  concluded : ∃ outcome, access.Answered image outcome ∧
    ∀ exchange, exchange request codec.framing.responseComplete = .ok reply →
      (access.operation codec.framing unit).against exchange codec = .ok outcome

/-- **Every accepted access is exchanged end to end.** -/
theorem exchanged_of_accepted (codec : Codec) (device : Device) (unit : UnitId) (image : Image)
    (access : Access) (pdu : Bytes) (hunit : device.store.unit unit = some image)
    (hpdu : access.pdu = .ok pdu) :
    ∃ reply, Exchanged codec device unit image access (codec.request unit pdu).1 reply := by
  obtain ⟨request, response, hserved⟩ := Access.served_of_pdu hpdu image
  obtain ⟨hreply, hstore⟩ := hserved.handled device.store unit hunit
  obtain ⟨outcome, hanswered, hread⟩ :=
    hserved.read_reply codec.framing ⟨unit, some codec.transaction⟩
  refine ⟨codec.framing.writeResponse ⟨unit, some codec.transaction⟩ response, ?_, ?_, ?_, ?_, ?_⟩
  · exact codec.framing.length_wrap_le _ hserved.fits
  · intro reads hcut loop
    have hrequest : (codec.request unit pdu).1 ≠ [] := codec.framing.wrap_ne_nil _ _
    obtain ⟨houtbox, hdevice, hasked⟩ := DeviceServer.readAll_frame
      (codec.framing.requestEndsAt _ hserved.read hserved.served)
      (codec.framing.readRequest_wrap ⟨unit, some codec.transaction⟩ hserved.read hserved.served)
      (codec.framing.length_wrap_le _ (Request.length_le_of_ofPdu hserved.read hserved.served))
      hrequest device hcut
    rw [Framing.heading_unit] at houtbox hdevice hasked
    rw [Handler.reply_heading, hreply] at houtbox
    rw [hstore] at hdevice
    refine ⟨houtbox, hdevice, request, ?_, hasked⟩
    rw [hpdu]
    exact hserved.read
  · intro σ α _ connection item reads behind hcut hcomplete hworker hopen harriving
    exact Connection.receive_reply (hcomplete ▸ hserved.endsAt codec.framing _) behind reads
      connection [] (hcut.ne_nil (codec.framing.wrap_ne_nil _ _)) hcut.some hcut.fit hcut.whole
      hworker hopen harriving
  · exact hserved.validate codec.framing _
  · refine ⟨outcome, hanswered, fun exchange hexchange => ?_⟩
    rw [Access.operation_of_pdu hpdu]
    simp only [Operation.against, hexchange]
    exact hread

/-- Two registers written at the end of the address space, the last one first. -/
theorem exchanged_at_last_addresses :
    let device : Device := { store := ({} : Store).addUnit 17 }
    let access : Access := .writeRegisters [⟨65535, 2⟩, ⟨65534, 1⟩]
    let pdu : Bytes := [0x10, 0xFF, 0xFE, 0, 2, 4, 0, 1, 0, 2]
    device.store.unit 17 = some {} ∧ access.pdu = .ok pdu ∧
      ∃ reply, Exchanged ⟨.ascii, 1⟩ device 17 {} access
        (Codec.request ⟨.ascii, 1⟩ 17 pdu).1 reply := by
  intro device access pdu
  have hpdu : access.pdu = .ok pdu := by
    simp [access, Access.pdu, Request.writeRegistersPdu, Request.batch, List.mergeSort]
    rfl
  exact ⟨rfl, hpdu, exchanged_of_accepted ⟨.ascii, 1⟩ device 17 {} access pdu rfl hpdu⟩

end Modbus
