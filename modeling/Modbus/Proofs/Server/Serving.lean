import Modbus.Proofs.Framing.Wrapping
import Modbus.Server.DeviceServer

/-!
# The serving loop with a handler

A server leaves the handler to whoever runs it.  `Serving` is the loop together with a handler that
answers at once: any function from a state, a unit and a request to an answer and the state after
it.  Beside it stands the record of what the handler was asked.

What the loop does with a list of reads splits into two parts that know nothing of each other.
`Server.absorbed` cuts the reads into requests, and `Handler.replies` answers requests one after the
other.  `Serving.readAll_eq` is the law of the loop: it asks what is absorbed, in order and once
each, and writes the replies.

A device is one such handler, and the loop over it is the loop that serves devices
(`DeviceServer.readAll_eq`).
-/

namespace Modbus

/-- **A handler that answers at once.** -/
abbrev Handler (σ : Type) :=
  σ → UnitId → Request → Option Response × σ

/-- **A serving loop and its handler**, with what the handler was asked so far. -/
structure Serving (σ : Type) where
  server : Server
  state : σ
  asked : List (UnitId × Request) := []

/-! ## The two parts -/

/-- **The requests that become complete**, read after read. -/
def Server.absorbed (framing : Framing) : Bytes → List Bytes → List (Header × Request)
  | _, [] => []
  | pending, chunk :: reads =>
    let (pending, request) := Server.absorb framing pending chunk
    request.toList ++ absorbed framing pending reads

namespace Handler

variable {σ : Type}

/-- The bytes that answer a request. -/
def reply (framing : Framing) (header : Header) (response : Option Response) : Bytes :=
  response.elim [] (framing.writeResponse header)

/-- The header that a frame carries is all of the header that a reply shows. -/
lemma reply_heading (framing : Framing) (header : Header) (response : Option Response) :
    Handler.reply framing (framing.heading header) response
      = Handler.reply framing header response := by
  cases response with
  | none => simp only [Handler.reply, Option.elim_none]
  | some response => simp only [Handler.reply, Option.elim_some, Framing.writeResponse,
      Framing.wrap_heading]

/-- **The replies to requests**, one after the other. -/
def replies (handle : Handler σ) (framing : Framing) : σ → List (Header × Request) → Bytes
  | _, [] => []
  | state, (header, request) :: rest =>
    let (response, after) := handle state header.unit request
    reply framing header response ++ replies handle framing after rest

/-- The state after requests. -/
def after (handle : Handler σ) : σ → List (Header × Request) → σ
  | state, [] => state
  | state, (header, request) :: rest =>
    after handle (handle state header.unit request).2 rest

end Handler

/-! ## A frame through its reads -/

namespace Server

variable {framing : Framing}

lemma absorb_whole {frame pending chunk : Bytes} {header : Header} {request : Request}
    (hends : EndsAt framing.requestComplete frame)
    (hread : framing.readRequest frame = .ok (header, request)) (h : pending ++ chunk = frame) :
    absorb framing pending chunk = ([], some (header, request)) := by
  rw [absorb, h, if_pos hends.whole, hread]

lemma absorb_part {frame pending chunk : Bytes} (hends : EndsAt framing.requestComplete frame)
    (hfits : frame.length ≤ framing.maxAdu) (h : pending ++ chunk <+: frame)
    (hshort : (pending ++ chunk).length < frame.length) :
    absorb framing pending chunk = (pending ++ chunk, none) := by
  have hopen := hends.before _ h hshort
  rw [absorb, hopen, if_neg Bool.false_ne_true, if_neg (by omega)]

/-- **A frame is held back until it is whole**, and then taken. -/
lemma absorbed_frame {frame : Bytes} {header : Header} {request : Request}
    (hends : EndsAt framing.requestComplete frame)
    (hread : framing.readRequest frame = .ok (header, request))
    (hfits : frame.length ≤ framing.maxAdu) (more : List Bytes) :
    ∀ (reads : List Bytes) (pending : Bytes), reads ≠ [] → (∀ chunk ∈ reads, chunk ≠ []) →
      pending ++ reads.flatten = frame →
        absorbed framing pending (reads ++ more) = (header, request) :: absorbed framing [] more
  | [], _, hreads, _, _ => absurd rfl hreads
  | [chunk], pending, _, _, h => by
      have hwhole := absorb_whole hends hread (by simpa using h : pending ++ chunk = frame)
      simp [absorbed, hwhole]
  | chunk :: next :: rest, pending, _, hsome, h => by
      have hnext := List.length_pos_iff.mpr (hsome next (by simp))
      have hpart : pending ++ chunk <+: frame := ⟨(next :: rest).flatten, by
        rw [← h]; simp⟩
      have hshort : (pending ++ chunk).length < frame.length := by
        rw [← h]
        simp only [List.length_append, List.flatten_cons]
        omega
      have hlater := absorbed_frame hends hread hfits more (next :: rest) (pending ++ chunk)
        (List.cons_ne_nil _ _) (fun other hother => hsome other (List.mem_cons_of_mem _ hother))
        (by rw [← h]; simp)
      rw [List.cons_append, absorbed, absorb_part hends hfits hpart hshort]
      exact hlater

end Server

/-! ## The loop -/

namespace Serving

variable {σ : Type}

/-- A loop about to begin. -/
def start (framing : Framing) (state : σ) : Serving σ where
  server := { framing }
  state := state

/-- One move of the loop, with the handler's answer. -/
def step? (handle : Handler σ) (serving : Serving σ) : Option (Serving σ) :=
  match serving.server.step? with
  | none => none
  | some (server, none) => some { serving with server }
  | some (server, some (unit, request)) =>
    let (response, state) := handle serving.state unit request
    some { server := server.answer response, state, asked := serving.asked ++ [(unit, request)] }

/-- The loop moved, at most so many times. -/
def settleWithin (handle : Handler σ) : Nat → Serving σ → Serving σ
  | 0, serving => serving
  | moves + 1, serving =>
    match serving.step? handle with
    | some moved => settleWithin handle moves moved
    | none => serving

/-- One read: the peer writes, and the loop moves until it waits. -/
def read (handle : Handler σ) (serving : Serving σ) (chunk : Bytes) : Serving σ :=
  let written := { serving with server := serving.server.write chunk }
  settleWithin handle (written.server.inbox.length + 1) written

/-- **Reads, one after the other.** -/
def readAll (handle : Handler σ) (serving : Serving σ) (reads : List Bytes) : Serving σ :=
  reads.foldl (read handle) serving

end Serving

/-- A server that waits for its peer. -/
structure Server.Waiting (server : Server) : Prop where
  inbox : server.inbox = []
  closed : server.closed = false
  gone : server.gone = false
  cancelled : server.cancelled = false
  asking : server.asking = none
  ended : server.ended = none

namespace Serving

variable {σ : Type}

/-- The loop after one request that became complete, or after none. -/
def taken (handle : Handler σ) (serving : Serving σ) (pending : Bytes) :
    Option (Header × Request) → Serving σ
  | none => { serving with server := { serving.server with pending } }
  | some (header, request) =>
    let (response, state) := handle serving.state header.unit request
    { server := { serving.server with
        pending
        outbox := serving.server.outbox ++ Handler.reply serving.server.framing header response }
      state
      asked := serving.asked ++ [(header.unit, request)] }

lemma waiting_taken (handle : Handler σ) {serving : Serving σ} (hwaiting : serving.server.Waiting)
    (pending : Bytes) (request : Option (Header × Request)) :
    (serving.taken handle pending request).server.Waiting := by
  obtain ⟨hinbox, hclosed, hgone, hcancelled, hasking, hended⟩ := hwaiting
  cases request <;> exact ⟨hinbox, hclosed, hgone, hcancelled, hasking, hended⟩

lemma step?_of_waiting (handle : Handler σ) {serving : Serving σ}
    (hwaiting : serving.server.Waiting) : serving.step? handle = none := by
  obtain ⟨hinbox, hclosed, hgone, hcancelled, hasking, hended⟩ := hwaiting
  simp [step?, Server.step?, hinbox, hclosed, hgone, hcancelled, hasking, hended]

lemma settleWithin_of_waiting (handle : Handler σ) {serving : Serving σ}
    (hwaiting : serving.server.Waiting) (moves : Nat) :
    serving.settleWithin handle moves = serving := by
  cases moves with
  | zero => rfl
  | succ moves => rw [settleWithin, step?_of_waiting handle hwaiting]

lemma write_eq {server : Server} (hwaiting : server.Waiting) (chunk : Bytes) :
    server.write chunk = { server with inbox := chunk } := by
  obtain ⟨hinbox, hclosed, hgone, hcancelled, hasking, hended⟩ := hwaiting
  simp [Server.write, Server.accepts, hinbox, hclosed, hgone, hended]

/-- The one move that a chunk causes. -/
lemma step?_written (handle : Handler σ) {serving : Serving σ} (hwaiting : serving.server.Waiting)
    {chunk : Bytes} (hsome : chunk ≠ []) (hfit : chunk.length ≤ Limit.readBuffer) :
    ({ serving with server := { serving.server with inbox := chunk } } : Serving σ).step? handle =
      some (serving.taken handle
        (Server.absorb serving.server.framing serving.server.pending chunk).1
        (Server.absorb serving.server.framing serving.server.pending chunk).2) := by
  obtain ⟨⟨framing, pending, inbox, outbox, closed, gone, cancelled, asking, ended⟩, state, asked⟩ :=
    serving
  obtain ⟨rfl, rfl, rfl, rfl, rfl, rfl⟩ := hwaiting
  obtain ⟨first, rest, rfl⟩ := List.exists_cons_of_ne_nil hsome
  have htake : (first :: rest).take Limit.readBuffer = first :: rest :=
    List.take_of_length_le hfit
  have hdrop : (first :: rest).drop Limit.readBuffer = [] := List.drop_eq_nil_of_le hfit
  simp only [step?, Server.step?, Option.isSome_none, Bool.or_self, Bool.false_eq_true, if_false,
    htake, hdrop]
  rcases Server.absorb framing pending (first :: rest) with ⟨pending', _ | ⟨header, request⟩⟩
  · rfl
  · simp only [taken]
    rcases handle state header.unit request with ⟨_ | response, after⟩
    · simp [Server.answer, Handler.reply]
    · rfl

/-- **One read of a waiting loop** absorbs the chunk as a whole. -/
lemma read_eq (handle : Handler σ) {serving : Serving σ} (hwaiting : serving.server.Waiting)
    {chunk : Bytes} (hsome : chunk ≠ []) (hfit : chunk.length ≤ Limit.readBuffer) :
    serving.read handle chunk =
      serving.taken handle
        (Server.absorb serving.server.framing serving.server.pending chunk).1
        (Server.absorb serving.server.framing serving.server.pending chunk).2 := by
  rw [read, write_eq hwaiting]
  simp only [settleWithin, step?_written handle hwaiting hsome hfit]
  exact settleWithin_of_waiting handle (waiting_taken handle hwaiting _ _) _

/-- **The law of the loop.**  It asks what is absorbed, and writes the replies. -/
theorem readAll_eq (handle : Handler σ) (reads : List Bytes)
    (hsome : ∀ chunk ∈ reads, chunk ≠ []) (hfit : ∀ chunk ∈ reads, chunk.length ≤ Limit.readBuffer)
    (serving : Serving σ) (hwaiting : serving.server.Waiting) :
    let requests := Server.absorbed serving.server.framing serving.server.pending reads
    (serving.readAll handle reads).asked
        = serving.asked ++ requests.map (fun (header, request) => (header.unit, request)) ∧
      (serving.readAll handle reads).server.outbox = serving.server.outbox
        ++ handle.replies serving.server.framing serving.state requests ∧
      (serving.readAll handle reads).state = handle.after serving.state requests := by
  induction reads generalizing serving with
  | nil => simp [readAll, Server.absorbed, Handler.replies, Handler.after]
  | cons chunk reads ih =>
      have hread := read_eq handle hwaiting (hsome chunk (List.mem_cons_self ..))
        (hfit chunk (List.mem_cons_self ..))
      have hlater := ih (fun other hother => hsome other (List.mem_cons_of_mem _ hother))
        (fun other hother => hfit other (List.mem_cons_of_mem _ hother)) _
        (waiting_taken handle hwaiting
          (Server.absorb serving.server.framing serving.server.pending chunk).1
          (Server.absorb serving.server.framing serving.server.pending chunk).2)
      rw [← hread] at hlater
      simp only [readAll, List.foldl_cons, Server.absorbed] at hlater ⊢
      obtain ⟨hasked, houtbox, hstate⟩ := hlater
      rw [hasked, houtbox, hstate, hread]
      rcases Server.absorb serving.server.framing serving.server.pending chunk with
        ⟨pending, _ | ⟨header, request⟩⟩
      · exact ⟨rfl, rfl, rfl⟩
      · refine ⟨?_, ?_, rfl⟩
        · simp [taken]
        · simp [taken, Handler.replies]

lemma waiting_start (framing : Framing) (state : σ) : (start framing state).server.Waiting :=
  ⟨rfl, rfl, rfl, rfl, rfl, rfl⟩

end Serving

/-! ## A device as the handler -/

/-- **A device that answers requests**, its reports left aside. -/
def Device.answer : Handler Device :=
  fun device unit request =>
    let (response, _, after) := device.handle unit request
    (response, after)

namespace DeviceServer

/-- One read: the peer writes, and the loop moves until it waits. -/
def read (serving : DeviceServer) (chunk : Bytes) : DeviceServer :=
  settle { serving with server := serving.server.write chunk }

/-- Reads, one after the other. -/
def readAll (serving : DeviceServer) (reads : List Bytes) : DeviceServer :=
  reads.foldl read serving

/-- The loop without the reports, and with the record of what was asked. -/
def withAsked (serving : DeviceServer) (asked : List (UnitId × Request)) : Serving Device :=
  ⟨serving.server, serving.device, asked⟩

lemma step?_eq (serving : DeviceServer) (asked : List (UnitId × Request)) :
    (serving.step? = none ∧ (serving.withAsked asked).step? Device.answer = none) ∨
      ∃ moved later, serving.step? = some moved ∧
        (serving.withAsked asked).step? Device.answer = some (moved.withAsked later) := by
  simp only [step?, Serving.step?, withAsked]
  rcases serving.server.step? with _ | ⟨server, _ | ⟨unit, request⟩⟩
  · exact .inl ⟨rfl, rfl⟩
  · exact .inr ⟨_, asked, rfl, rfl⟩
  · exact .inr ⟨_, _, rfl, rfl⟩

lemma settleWithin_eq (moves : Nat) (serving : DeviceServer) (asked : List (UnitId × Request)) :
    ∃ later, (serving.withAsked asked).settleWithin Device.answer moves
      = (settleWithin moves serving).withAsked later := by
  induction moves generalizing serving asked with
  | zero => exact ⟨asked, rfl⟩
  | succ moves ih =>
      rcases step?_eq serving asked with ⟨hdevice, hserving⟩ | ⟨moved, later, hdevice, hserving⟩
      · exact ⟨asked, by simp only [Serving.settleWithin, settleWithin, hdevice, hserving]⟩
      · obtain ⟨last, hlast⟩ := ih moved later
        exact ⟨last, by simp only [Serving.settleWithin, settleWithin, hdevice, hserving, hlast]⟩

/-- **The loop over a device** is the serving loop with the device as its handler. -/
theorem readAll_eq (reads : List Bytes) (serving : DeviceServer)
    (asked : List (UnitId × Request)) :
    ∃ later, (serving.withAsked asked).readAll Device.answer reads
      = (serving.readAll reads).withAsked later := by
  induction reads generalizing serving asked with
  | nil => exact ⟨asked, rfl⟩
  | cons chunk reads ih =>
      obtain ⟨later, hlater⟩ := settleWithin_eq
        ((serving.server.write chunk).inbox.length + 1)
        { serving with server := serving.server.write chunk } asked
      obtain ⟨last, hlast⟩ := ih (serving.read chunk) later
      refine ⟨last, ?_⟩
      rw [Serving.readAll, List.foldl_cons]
      exact (congrArg (fun moved => reads.foldl (Serving.read Device.answer) moved) hlater).trans
        hlast

/-- **A device is asked a request once**, when all of its frame has been read. -/
lemma readAll_frame {framing : Framing} {frame : Bytes} {header : Header} {request : Request}
    (hends : EndsAt framing.requestComplete frame)
    (hread : framing.readRequest frame = .ok (header, request))
    (hfits : frame.length ≤ framing.maxAdu) (hframe : frame ≠ []) (device : Device)
    {reads : List Bytes} (hcut : Cut frame reads) :
    let loop := readAll { server := { framing }, device } reads
    loop.server.outbox
        = Handler.reply framing header (device.store.handle header.unit request).reply ∧
      loop.device.store = (device.store.handle header.unit request).store ∧
      (Serving.start framing device).readAll Device.answer reads
        = loop.withAsked [(header.unit, request)] := by
  intro loop
  have habsorbed : Server.absorbed framing [] reads = [(header, request)] := by
    have hgroup := Server.absorbed_frame hends hread hfits [] reads [] (hcut.ne_nil hframe)
      hcut.some hcut.whole
    rwa [List.append_nil] at hgroup
  have hlaw := Serving.readAll_eq Device.answer reads hcut.some hcut.fit
    (Serving.start framing device) (Serving.waiting_start framing device)
  obtain ⟨later, hloop⟩ := readAll_eq reads { server := { framing }, device } []
  have hserving : (Serving.start framing device).readAll Device.answer reads
      = loop.withAsked later := hloop
  simp only [Serving.start] at hserving hlaw
  rw [hserving, habsorbed] at hlaw
  obtain ⟨hasked, houtbox, hstate⟩ := hlaw
  have hlater : later = [(header.unit, request)] := hasked
  refine ⟨?_, ?_, ?_⟩
  · simpa [Handler.replies, Device.answer, Device.handle, withAsked] using houtbox
  · have hdevice : loop.device = (Device.answer device header.unit request).2 := hstate
    rw [hdevice]
    rfl
  · rw [← hlater]
    exact hserving

end DeviceServer

end Modbus
