import Modbus.Proofs.Framing.Spelling
import Modbus.Proofs.Proxy.Sizes
import Modbus.Proofs.Server.Alignment
import Modbus.Server.Gateway

/-!
# Which frames a gateway writes

A gateway reads requests in front and has them answered behind.  While one of them is being made
again nothing is read, so the frames that are written are the replies to the requests that were
read, in their order (`Gateway.Kept`).  This holds in every run, whatever the peers in front and
behind do and in whatever order it happens (`Gateway.Kept.of_run`), and each reply is one that a
proxy gives (`Proxy.sized_of_outcome`).

A reply that is written is framed for the link in front, and nobody asks whether it fits there.  So
the size of its frame is that of its PDU, and only a page that did not fit behind makes a frame that
is too long (`Gateway.only_pages_exceed`).
-/

namespace Modbus

open Connection

/-! ## One move of the server -/

/-- A request that becomes complete with a read is one that can be read from a frame. -/
lemma Server.readRequest_of_absorb {framing : Framing} {pending chunk : Bytes}
    {request : Header × Request} (h : (absorb framing pending chunk).2 = some request) :
    framing.readRequest (pending ++ chunk) = .ok request := by
  rcases absorb_cases framing pending chunk with ⟨read, hread, habsorb⟩ | habsorb | habsorb
  · rw [habsorb] at h
    rw [hread, Option.some.inj h]
  · simp [habsorb] at h
  · simp [habsorb] at h

/-- **A move of the server** writes nothing and keeps the framing, and what is asked was read from a
frame. -/
lemma Server.moved_of_step? {server moved : Server} {asked : Option (UnitId × Request)}
    (h : server.step? = some (moved, asked)) :
    moved.outbox = server.outbox ∧ moved.framing = server.framing ∧
      ∀ unit request, asked = some (unit, request) →
        ∃ header adu, moved.asking = some header ∧ header.unit = unit ∧
          server.framing.readRequest adu = .ok (header, request) := by
  simp only [step?] at h
  split at h
  · cases h
  split at h
  · obtain ⟨rfl, rfl⟩ := Prod.mk.inj (Option.some.inj h)
    exact ⟨rfl, rfl, nofun⟩
  split at h
  · split at h
    · obtain ⟨rfl, rfl⟩ := Prod.mk.inj (Option.some.inj h)
      exact ⟨rfl, rfl, nofun⟩
    · cases h
  · split at h
    · obtain ⟨rfl, rfl⟩ := Prod.mk.inj (Option.some.inj h)
      exact ⟨rfl, rfl, nofun⟩
    · rename_i header request habsorb
      obtain ⟨rfl, rfl⟩ := Prod.mk.inj (Option.some.inj h)
      refine ⟨rfl, rfl, ?_⟩
      rintro _ _ ⟨⟩
      exact ⟨header, _, rfl, rfl, readRequest_of_absorb habsorb⟩

/-- **A reply is written** as a frame behind what was written before, unless the peer is gone. -/
lemma Server.answer_some {server : Server} {header : Header} (hasking : server.asking = some header)
    (response : Response) :
    (server.answer (some response)).framing = server.framing ∧
      ((server.answer (some response)).outbox = server.outbox ∨
        (server.answer (some response)).outbox
          = server.outbox ++ server.framing.writeResponse header response) := by
  simp only [answer, hasking]
  split_ifs
  · exact ⟨rfl, .inl rfl⟩
  · exact ⟨rfl, .inr rfl⟩

namespace Gateway

variable {σ : Type}

/-! ## Runs -/

/-- **What can happen to a gateway.** -/
inductive Event where
  /-- The peer in front writes. -/
  | write (bytes : Bytes)
  /-- The peer in front will write no more. -/
  | close
  /-- The peer in front is gone. -/
  | leave
  | cancel
  /-- Something happens to the connection behind. -/
  | behind (happening : Happening Response)
  /-- The server moves if it can. -/
  | serve

/-- The server does not move while the worker of the connection behind runs. -/
def happen [Peer σ] (gateway : Gateway σ) : Event → Gateway σ
  | .write bytes => { gateway with server := gateway.server.write bytes }
  | .close => { gateway with server := { gateway.server with closed := true } }
  | .leave => { gateway with server := { gateway.server with gone := true } }
  | .cancel => { gateway with server := { gateway.server with cancelled := true } }
  | .behind happening => { gateway with connection := gateway.connection.happen happening }
  | .serve => if gateway.connection.worker.isRunning then gateway else gateway.step?.getD gateway

/-- **A run of a gateway.** -/
def runOver [Peer σ] (gateway : Gateway σ) (events : List Event) : Gateway σ :=
  events.foldl happen gateway

/-- **A new gateway** over a link. -/
def create (name : String) (timing : Timing) (front back : Framing) (wire : Wire σ) : Gateway σ where
  server := { framing := front }
  connection := Connection.create name timing back wire

/-! ## What is written -/

/-- **A reply that was written**, and the request that it answers. -/
structure Relayed where
  header : Header
  request : Request
  response : Response

namespace Relayed

/-- The frame of a reply. -/
def frame (front : Framing) (reply : Relayed) : Bytes :=
  front.writeResponse reply.header reply.response

/-- **A reply that was due**: to a request that was read in front, as a proxy replies to it. -/
structure Due (front back : Framing) (told : List Occurrence) (reply : Relayed) : Prop where
  read : ∃ adu, front.readRequest adu = .ok (reply.header, reply.request)
  sized : ∃ id, Proxy.Sized back reply.header.unit reply.request told id reply.response

end Relayed

/-- **The call that a gateway waits for** was started for a request that was read in front. -/
def Calling [Peer σ] (name : String) (timing : Timing) (back : Framing) (wire : Wire σ)
    (gateway : Gateway σ) (id : Nat) : Prop :=
  ∃ header request adu before later,
    let reached : Connection σ Response := (Connection.create name timing back wire).runOver before
    gateway.server.asking = some header ∧
      gateway.server.framing.readRequest adu = .ok (header, request) ∧
      id = reached.calls.length ∧
      gateway.connection
        = (Caller.start reached (Proxy.handle back header.unit request) false).2.runOver later

/-- **What every run of a gateway keeps.** -/
structure Kept [Peer σ] (name : String) (timing : Timing) (front back : Framing) (wire : Wire σ)
    (gateway : Gateway σ) : Prop where
  framing : gateway.server.framing = front
  reached : ∃ happenings,
    gateway.connection = (Connection.create name timing back wire).runOver happenings
  calling : ∀ id, gateway.call = some id → gateway.Calling name timing back wire id
  written : ∃ relayed : List Relayed, gateway.server.outbox = relayed.flatMap (Relayed.frame front) ∧
    ∀ reply ∈ relayed, reply.Due front back (occurrences gateway.connection.history)

namespace Kept

variable [Peer σ] {name : String} {timing : Timing} {front back : Framing} {wire : Wire σ}
  {gateway : Gateway σ}

lemma of_create : Kept name timing front back wire (create name timing front back wire) where
  framing := rfl
  reached := ⟨[], rfl⟩
  calling := nofun
  written := ⟨[], rfl, fun _ hreply => absurd hreply List.not_mem_nil⟩

lemma orderly (h : Kept name timing front back wire gateway) :
    Orderly back gateway.connection := by
  obtain ⟨happenings, hreached⟩ := h.reached
  rw [hreached]
  exact (Orderly.of_create name timing back wire).of_run happenings

/-- What leaves the answers of the server alone. -/
lemma of_server (h : Kept name timing front back wire gateway) {server : Server}
    (hframing : server.framing = gateway.server.framing)
    (hasking : server.asking = gateway.server.asking)
    (houtbox : server.outbox = gateway.server.outbox) :
    Kept name timing front back wire { gateway with server } where
  framing := hframing.trans h.framing
  reached := h.reached
  calling id hid := by
    obtain ⟨header, request, adu, before, later, hbefore, hread, hcall⟩ := h.calling id hid
    exact ⟨header, request, adu, before, later, hasking.trans hbefore, hframing ▸ hread, hcall⟩
  written := by
    obtain ⟨relayed, hwritten, hdue⟩ := h.written
    exact ⟨relayed, houtbox.trans hwritten, hdue⟩

/-- What happens behind. -/
lemma of_behind (h : Kept name timing front back wire gateway) (happening : Happening Response) :
    Kept name timing front back wire
      { gateway with connection := gateway.connection.happen happening } where
  framing := h.framing
  reached := by
    obtain ⟨happenings, hreached⟩ := h.reached
    exact ⟨happenings ++ [happening], by rw [hreached, runOver_concat]⟩
  calling id hid := by
    obtain ⟨header, request, adu, before, later, hasking, hread, hlength, hconnection⟩ :=
      h.calling id hid
    exact ⟨header, request, adu, before, later ++ [happening], hasking, hread, hlength,
      by rw [hconnection, runOver_concat]⟩
  written := by
    obtain ⟨relayed, hwritten, hdue⟩ := h.written
    refine ⟨relayed, hwritten, fun reply hreply => ?_⟩
    obtain ⟨hread, id, hsized⟩ := hdue reply hreply
    refine ⟨hread, id, ?_⟩
    cases hsized with
    | fits hplain hfits => exact .fits hplain hfits
    | page hrequest hpage hback hbears hlength =>
        exact .page hrequest hpage (h.orderly.cameBack happening hback) hbears hlength

/-- **The call is over**, and its reply is written if there is still somebody to write to. -/
lemma of_answer (h : Kept name timing front back wire gateway) {id : Nat}
    {outcome : Result Response} (hcall : gateway.call = some id)
    (houtcome : gateway.connection.outcome? id = some outcome) :
    Kept name timing front back wire
      { gateway with server := gateway.server.answer outcome.toOption, call := none } := by
  obtain ⟨header, request, adu, before, later, hasking, hread, rfl, hconnection⟩ :=
    h.calling id hcall
  rw [hconnection] at houtcome
  obtain ⟨response, rfl, hsized⟩ :=
    Proxy.sized_of_outcome name timing back wire before later header.unit request houtcome
  rw [← hconnection] at hsized
  obtain ⟨hframing, houtbox⟩ := Server.answer_some hasking response
  rw [h.framing] at hread hframing houtbox
  obtain ⟨relayed, hwritten, hdue⟩ := h.written
  refine ⟨hframing, h.reached, fun other hother => ?_, ?_⟩
  · simp at hother
  · rcases houtbox with hgone | hanswered
    · exact ⟨relayed, hgone.trans hwritten, hdue⟩
    · refine ⟨relayed ++ [⟨header, request, response⟩], ?_, fun reply hreply => ?_⟩
      · rw [List.flatMap_append, ← hwritten, List.flatMap_singleton]
        exact hanswered
      · rcases List.mem_append.mp hreply with hold | hnew
        · exact hdue reply hold
        · rw [List.mem_singleton.mp hnew]
          exact ⟨⟨adu, hread⟩, _, hsized⟩

/-- **The server reads**, and asks if a request became complete. -/
lemma of_read (h : Kept name timing front back wire gateway) (hcall : gateway.call = none)
    (hidle : gateway.connection.worker.isRunning = false) {server : Server}
    {asked : Option (UnitId × Request)} (hmove : gateway.server.step? = some (server, asked)) :
    Kept name timing front back wire (match asked with
      | none => { gateway with server }
      | some (unit, request) =>
        let (id, connection) := Caller.start gateway.connection
          (Proxy.handle gateway.connection.codec.framing unit request) false
        { server, connection, call := some id }) := by
  obtain ⟨houtbox, hframing, hasked⟩ := Server.moved_of_step? hmove
  obtain ⟨happenings, hreached⟩ := h.reached
  obtain ⟨relayed, hwritten, hdue⟩ := h.written
  cases asked with
  | none =>
      refine ⟨hframing.trans h.framing, h.reached, fun id hid => ?_, relayed,
        houtbox.trans hwritten, hdue⟩
      simp [hcall] at hid
  | some asked =>
      obtain ⟨unit, request⟩ := asked
      obtain ⟨header, adu, hasking, rfl, hread⟩ := hasked unit request rfl
      refine ⟨hframing.trans h.framing,
        ⟨happenings ++ [.act (.start (Proxy.handle back header.unit request) false)], ?_⟩,
        ?_, relayed, houtbox.trans hwritten, hdue⟩
      · rw [runOver_concat, ← hreached, ← h.orderly.framing]
        simp [Connection.happen, Connection.step, hidle]
      · rintro _ ⟨⟩
        refine ⟨header, request, adu, happenings, [], hasking, hframing.symm ▸ hread, ?_, ?_⟩
        · rw [← hreached]
        · rw [← hreached, ← h.orderly.framing]
          rfl

lemma of_serve (h : Kept name timing front back wire gateway) :
    Kept name timing front back wire (gateway.happen .serve) := by
  rw [happen]
  cases hidle : gateway.connection.worker.isRunning with
  | true => exact h
  | false =>
      rw [if_neg (by simp)]
      cases hcall : gateway.call with
      | some id =>
          cases houtcome : gateway.connection.outcome? id with
          | none => simpa [step?, hcall, houtcome] using h
          | some outcome => simpa [step?, hcall, houtcome] using h.of_answer hcall houtcome
      | none =>
          cases hmove : gateway.server.step? with
          | none => simpa [step?, hcall, hmove] using h
          | some moved =>
              obtain ⟨server, asked⟩ := moved
              have hread := h.of_read hcall hidle hmove
              cases asked with
              | none => simpa [step?, hcall, hmove] using hread
              | some asked => simpa [step?, hcall, hmove] using hread

/-- **One event** keeps it. -/
lemma of_event (h : Kept name timing front back wire gateway) (event : Event) :
    Kept name timing front back wire (gateway.happen event) := by
  cases event with
  | write bytes =>
      refine h.of_server ?_ ?_ ?_ <;> rw [Server.write] <;> split_ifs <;> rfl
  | close => exact h.of_server rfl rfl rfl
  | leave => exact h.of_server rfl rfl rfl
  | cancel => exact h.of_server rfl rfl rfl
  | behind happening => exact h.of_behind happening
  | serve => exact h.of_serve

lemma of_run : ∀ (events : List Event) {gateway : Gateway σ},
    Kept name timing front back wire gateway →
      Kept name timing front back wire (gateway.runOver events)
  | [], _, h => h
  | event :: events, _, h => of_run events (h.of_event event)

end Kept

/-! ## Which frames fit -/

/-- **What the size of a written reply depends on.** -/
structure Relayed.Measured (front back : Framing) (told : List Occurrence) (reply : Relayed) :
    Prop where
  /-- It answers a request that was read in front. -/
  read : ∃ adu, front.readRequest adu = .ok (reply.header, reply.request)
  fits : (reply.frame front).length ≤ front.maxAdu ↔ reply.response.toPdu.length ≤ Limit.maxPdu
  parsed : front.parse (reply.frame front) = .ok (reply.header, reply.response.toPdu) ↔
    front.CanTell reply.response.toPdu.length
  plain : reply.response.isPage = false → reply.response.toPdu.length ≤ Limit.maxPdu
  /-- A page is as long as the one that came back from behind. -/
  page : reply.response.isPage = true → ∃ category object id transaction bytes pdu,
    reply.request = .identify category object ∧ CameBack told id bytes ∧
      back.Bears reply.header.unit transaction bytes pdu ∧
      reply.response.toPdu.length = pdu.length

lemma Relayed.Due.measured {front back : Framing} {told : List Occurrence} {reply : Relayed}
    (h : reply.Due front back told) : reply.Measured front back told := by
  obtain ⟨⟨adu, hread⟩, id, hsized⟩ := h
  obtain ⟨pdu, hparse, -⟩ := Framing.parse_of_readRequest hread
  have hheading := Framing.heading_of_carries (Framing.wrap_of_parse hparse).1
  refine ⟨⟨adu, hread⟩, ?_, ?_, fun hplain => ?_, fun hpage => ?_⟩
  · rw [frame, Framing.writeResponse, Framing.length_wrap]
    exact front.aduLength_le_iff
  · have hparsed := front.parse_wrap_iff reply.header reply.response.toPdu_ne_nil
    rwa [hheading] at hparsed
  · cases hsized with
    | fits _ hfits => exact hfits
    | page _ hpage => simp [hpage] at hplain
  · cases hsized with
    | fits hplain _ => simp [hplain] at hpage
    | @page category object transaction bytes pdu hrequest _ hback hbears hlength =>
        exact ⟨category, object, id, transaction, bytes, pdu, hrequest, hback, hbears, hlength⟩

/-- **Only a page that did not fit behind makes a frame that does not fit in front.**  Whatever the
peers of a gateway do, it writes one frame after the other, each of them the reply to a request that
it read.  A frame is within the limit of its framing exactly if its PDU is within that of PDUs, and
it can be taken apart as long as it can tell its length.  Every reply but a page keeps to the limit;
a page is as long as the one that came back from behind, and that one may have any length. -/
theorem only_pages_exceed [Peer σ] (name : String) (timing : Timing) (front back : Framing)
    (wire : Wire σ) (events : List Event) :
    let final := (create name timing front back wire).runOver events
    ∃ relayed : List Relayed, final.server.outbox = relayed.flatMap (Relayed.frame front) ∧
      ∀ reply ∈ relayed, reply.Measured front back (occurrences final.connection.history) := by
  intro final
  have hkept : Kept name timing front back wire final := Kept.of_run events .of_create
  obtain ⟨relayed, hwritten, hdue⟩ := hkept.written
  exact ⟨relayed, hwritten, fun reply hreply => (hdue reply hreply).measured⟩

/-- **A page too large for a frame.**  A device behind answers with one object of 247 bytes, and the
gateway writes a frame of 263 bytes on a link whose frames have at most 260. -/
theorem large_page_exceeds :
    let page : Bytes := [0, 1, 0, 0, 1, 1, 1, 0x2B, 0x0E, 0x01, 0x81, 0x00, 0x00, 1, 0x00, 247]
      ++ List.replicate 247 0x41
    let request : Bytes := [0, 9, 0, 0, 0, 5, 1, 0x2B, 0x0E, 0x01, 0x00]
    let initial : Gateway Responder :=
      create "backend" .network (.tcp true) (.tcp true) { peer := .script [[page]] }
    let actions : List (Action Response) :=
      [.caller 0, .caller 0] ++ List.replicate 8 .worker ++ [.caller 0, .caller 0]
    let final := initial.runOver
      ([.write request, .serve] ++ actions.map (Event.behind ∘ .act) ++ [.serve])
    final.server.outbox.length = 263 ∧ ¬ 263 ≤ Framing.maxAdu (.tcp true) := by
  decide +kernel

end Gateway

end Modbus
