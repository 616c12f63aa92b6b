import Modbus.Proofs.Connection.Resting
import Modbus.Proofs.Framing.Completion

/-!
# A call on a quiet connection

A caller who makes a call and waits for it sees one run of the connection: the tasks move until none
can, and then the clock goes on to the next timer.  This file follows that run on a connection at
rest whose far end answers at once, and says what the caller gets: the answer to its own request,
and a connection at rest again (`Session.call_exchange`).

The request is framed and queued (`Resting.posts`).  When it is the request's turn the worker opens
the link if need be, sends, reads the whole answer and delivers it (`exchanges`), and the caller
goes on with it (`finishes`).  Its turn may come only when the guard time of the request before is
over, and meanwhile the idle timer may close the link (`returns`).
-/

namespace Modbus

/-- Pieces that are not empty are no more than the bytes they make up. -/
lemma Cut.length_le {bytes : Bytes} {reads : List Bytes} (h : Cut bytes reads) :
    reads.length ≤ bytes.length := by
  obtain ⟨rfl, hsome, -⟩ := h
  induction reads with
  | nil => exact Nat.le_refl 0
  | cons chunk rest ih =>
      have hchunk := List.length_pos_iff.mpr (hsome chunk (List.mem_cons_self ..))
      have hrest := ih fun other hother => hsome other (List.mem_cons_of_mem _ hother)
      simp only [List.length_cons, List.flatten_cons, List.length_append]
      omega

namespace Connection

variable {σ α : Type}

/-- **A far end that answers a request at once**, in pieces that make up one reply. -/
structure Answering [Peer σ] (peer : σ) (request : Bytes) (complete : Bytes → Bool) (reply : Bytes)
    (after : σ) : Prop where
  cut : Cut reply (Peer.answer peer request).1
  after : (Peer.answer peer request).2 = after
  some : reply ≠ []
  ends : EndsAt complete reply
  /-- The reply is so short that there is patience to read it byte by byte. -/
  short : reply.length + 50 ≤ Clocked.patience

/-- **A request that waits for its turn**, behind calls that are over. -/
structure Pending (earlier : List (Call α)) (item : Queued) (next : Result Bytes → Operation α)
    (connection : Connection σ α) : Prop where
  sound : Sound connection
  items : connection.queue.items = [item]
  waiter : connection.queue.signal.waiter ≠ .waiting
  calls : connection.calls = earlier ++ [⟨false, .waiting item.ticket none next⟩]
  call : item.call = earlier.length
  ended : ∀ call ∈ earlier, call.isOver = true
  timer : connection.timer = .watching connection.idleDeadline
  rearmed : connection.rearmed = ⟨false, .waiting⟩

lemma Pending.of_tended {earlier : List (Call α)} {item : Queued}
    {next : Result Bytes → Operation α} {before after : Connection σ α}
    (h : Pending earlier item next before) (htended : Tended before after) (hcalm : Calm after) :
    Pending earlier item next after := by
  have hsound := h.sound.of_tended htended
  have htimer := hcalm.timer
  have hrearmed := hcalm.rearmed
  obtain ⟨_, _, _, _, _, _, rfl⟩ := htended
  exact { h with sound := hsound, timer := htimer, rearmed := hrearmed }

/-- Nothing interrupts a request whose caller waits. -/
lemma Pending.wanted {earlier : List (Call α)} {item : Queued} {next : Result Bytes → Operation α}
    {connection : Connection σ α} (h : Pending earlier item next connection) :
    connection.interruption? item = none := by
  simp [interruption?, cancellation, awaits, h.calls, h.call, Call.awaits, Cancellation.fired?,
    h.sound.running]

variable [Peer σ] {connection : Connection σ α}

/-! ## One exchange -/

lemma fetches {item : Queued} {rest : List Queued} (hworker : connection.worker = .fetching)
    (hrunning : connection.shutdown = false)
    (hwaiter : connection.queue.signal.waiter ≠ .waiting)
    (hitems : connection.queue.items = item :: rest) :
    connection.taskStep? = some { connection with
      worker := .fetched item
      queue := { connection.queue with
        items := rest
        signal := connection.queue.signal.resume } } := by
  refine taskStep?_worker ?_
  simp only [Worker.step?, hworker, Worker.fetch?, hrunning, hwaiter, if_false,
    Bool.false_eq_true, connection.queue.poll_cons hwaiter hitems]

/-- The link is opened for a request, if it is not open yet. -/
lemma opens (connection : Connection σ α) {item : Queued}
    (hworker : connection.worker = .linked item)
    (hwilling : connection.wire.refusals = 0) (hprompt : connection.wire.openDelay = 0) :
    ∃ count state history, count ≤ 2 ∧ Proceeds count connection { connection with
      worker := .sending item
      wire := { connection.wire with connected := true }
      state, history } := by
  cases hopen : connection.wire.connected with
  | true =>
      have hready : connection.taskStep? = some { connection with worker := .sending item } := by
        refine taskStep?_worker ?_
        simp [Worker.step?, hworker, hopen, Worker.moveTo]
      refine ⟨1, connection.state, connection.history, by omega, ?_⟩
      rw [← hopen]
      exact .one hready
  | false =>
      have hattempt : connection.taskStep? = some { connection with
          state := .connecting
          worker := .attempting item ⟨connection.now, connection.timing.minBackoff⟩ } := by
        refine taskStep?_worker ?_
        simp [Worker.step?, hworker, hopen]
      have hopened : ({ connection with
          state := .connecting
          worker := .attempting item ⟨connection.now, connection.timing.minBackoff⟩ } :
            Connection σ α).taskStep? = some { connection with
              state := .connected
              worker := .sending item
              wire := { connection.wire with connected := true }
              history := ⟨connection.now, .wire .opened⟩ :: ⟨connection.now, .attempted⟩ ::
                connection.history } := by
        refine taskStep?_worker ?_
        simp [Worker.step?, Worker.beginAttempt, Wire.close, hopen, perform, note, hprompt,
          Worker.attemptEnded, Wire.open, hwilling, Worker.moveTo]
      exact ⟨2, _, _, by omega, .step hattempt (.one hopened)⟩

/-- **A request goes out**, over a link that is opened for it if need be. -/
lemma sends (hsound : Sound connection) {item : Queued}
    (hworker : connection.worker = .fetched item)
    (hwanted : connection.interruption? item = none) :
    ∃ count state history, count ≤ 4 ∧ Proceeds count connection { connection with
      worker := .receiving item []
      link := ⟨some .worker, []⟩
      wire := { connection.wire with
        connected := true
        peer := (Peer.answer connection.wire.peer item.request).2
        arriving := (Peer.answer connection.wire.peer item.request).1 }
      state, history } := by
  have hlinked : connection.taskStep? = some { connection with
      worker := .linked item
      link := ⟨some .worker, []⟩ } := by
    refine taskStep?_worker ?_
    simp [Worker.step?, hworker, hwanted, hsound.free, LinkLock.request, LinkLock.isHeldBy]
  obtain ⟨count, state, history, hcount, hopened⟩ := opens { connection with
    worker := .linked item
    link := ⟨some .worker, []⟩ } rfl hsound.willing hsound.prompt
  have hsent : ({ connection with
      worker := .sending item
      link := ⟨some .worker, []⟩
      wire := { connection.wire with connected := true }
      state, history } : Connection σ α).taskStep? = some { connection with
        worker := .receiving item []
        link := ⟨some .worker, []⟩
        wire := { connection.wire with
          connected := true
          peer := (Peer.answer connection.wire.peer item.request).2
          arriving := (Peer.answer connection.wire.peer item.request).1 }
        state
        history := ⟨connection.now, .wire (.sent item.request)⟩ :: history } := by
    refine taskStep?_worker ?_
    simp [Worker.step?, Worker.moveTo, Worker.send, Wire.send, perform, note, hsound.empty]
  exact ⟨count + 1 + 1, _, _, by omega, .step hlinked (hopened.trans (.one hsent))⟩

/-- One read of a chunk that one read takes in as a whole. -/
lemma reads_chunk {item : Queued} {received chunk : Bytes} {later : List Bytes}
    (hworker : connection.worker = .receiving item received)
    (hopen : connection.wire.connected = true)
    (harriving : connection.wire.arriving = chunk :: later) (hsome : chunk ≠ [])
    (hfit : chunk.length ≤ Limit.readBuffer) :
    connection.taskStep? = some { connection with
      worker :=
        if item.complete (received ++ chunk) then .concluding item (.ok (received ++ chunk))
        else .receiving item (received ++ chunk)
      wire := { connection.wire with arriving := later }
      history := ⟨connection.now, .wire (.received chunk)⟩ :: connection.history } := by
  have hread : connection.wire.receive Limit.readBuffer
      = ⟨.ok (some chunk), { connection.wire with arriving := later }, [.received chunk]⟩ := by
    simp [Wire.receive, hopen, harriving, List.take_of_length_le hfit, Nat.not_lt.mpr hfit]
  refine taskStep?_worker ?_
  obtain ⟨first, more, rfl⟩ := List.exists_cons_of_ne_nil hsome
  simp only [Worker.step?, hworker, Worker.receive, hread, perform, List.foldl_cons,
    List.foldl_nil, note]
  split_ifs <;> rfl

lemma receives {item : Queued} {reply : Bytes} (hends : EndsAt item.complete reply) :
    ∀ (reads : List Bytes) (received : Bytes) (connection : Connection σ α), reads ≠ [] →
      (∀ chunk ∈ reads, chunk ≠ []) → (∀ chunk ∈ reads, chunk.length ≤ Limit.readBuffer) →
      received ++ reads.flatten = reply → connection.worker = .receiving item received →
      connection.wire.connected = true → connection.wire.arriving = reads →
        ∃ history, Proceeds reads.length connection { connection with
          worker := .concluding item (.ok reply)
          wire := { connection.wire with arriving := [] }
          history }
  | [], _, _, hreads, _, _, _, _, _, _ => absurd rfl hreads
  | [chunk], received, connection, _, hsome, hfit, hreply, hworker, hopen, harriving => by
      have hstep := reads_chunk hworker hopen harriving (hsome chunk (by simp))
        (hfit chunk (by simp))
      have hwhole : received ++ chunk = reply := by simpa using hreply
      rw [hwhole, if_pos hends.whole] at hstep
      exact ⟨_, .one hstep⟩
  | chunk :: next :: rest, received, connection, _, hsome, hfit, hreply, hworker, hopen,
      harriving => by
      have hstep := reads_chunk hworker hopen harriving (hsome chunk (by simp))
        (hfit chunk (by simp))
      have hlonger := List.length_pos_iff.mpr (hsome next (by simp))
      have hpart : received ++ chunk <+: reply := ⟨(next :: rest).flatten, by rw [← hreply]; simp⟩
      have hshort : (received ++ chunk).length < reply.length := by
        rw [← hreply]
        simp only [List.length_append, List.flatten_cons]
        omega
      rw [hends.before _ hpart hshort, if_neg Bool.false_ne_true] at hstep
      obtain ⟨history, hlater⟩ := receives hends (next :: rest) (received ++ chunk)
        { connection with
          worker := .receiving item (received ++ chunk)
          wire := { connection.wire with arriving := next :: rest }
          history := ⟨connection.now, .wire (.received chunk)⟩ :: connection.history }
        (List.cons_ne_nil _ _) (fun other hother => hsome other (List.mem_cons_of_mem _ hother))
        (fun other hother => hfit other (List.mem_cons_of_mem _ hother))
        (by rw [← hreply]; simp) rfl hopen rfl
      exact ⟨history, .step hstep hlater⟩

/-- **The worker reads a reply to its last byte.** -/
lemma Proceeds.receives {first : Connection σ α} {count : Nat}
    (h : Proceeds count first connection) {item : Queued} {reply : Bytes} {reads : List Bytes}
    (hends : EndsAt item.complete reply) (hcut : Cut reply reads) (hreply : reply ≠ [])
    (hworker : connection.worker = .receiving item []) (hopen : connection.wire.connected = true)
    (harriving : connection.wire.arriving = reads) :
    ∃ history, Proceeds (count + reads.length) first { connection with
      worker := .concluding item (.ok reply)
      wire := { connection.wire with arriving := [] }
      history } := by
  obtain ⟨history, hread⟩ := Connection.receives hends reads [] connection (hcut.ne_nil hreply)
    hcut.some hcut.fit hcut.whole hworker hopen harriving
  exact ⟨history, h.trans hread⟩

lemma modify_concat {β : Type} (front : List β) (last : β) (change : β → β) :
    (front ++ [last]).modify front.length change = front ++ [change last] := by
  induction front with
  | nil => rfl
  | cons first rest ih => simpa using ih

section Pending

variable {earlier : List (Call α)} {item : Queued} {next : Result Bytes → Operation α}

/-- **A whole reply is delivered**, and the link is free for the next request. -/
lemma Proceeds.delivers {first : Connection σ α} {count : Nat}
    (h : Proceeds count first connection) {reply : Bytes}
    (hworker : connection.worker = .concluding item (.ok reply))
    (hlink : connection.link = ⟨some .worker, []⟩)
    (hrearmed : connection.rearmed = ⟨false, .waiting⟩) (hcall : item.call = earlier.length)
    (hcalls : connection.calls = earlier ++ [⟨false, .waiting item.ticket none next⟩]) :
    ∃ worker idleDeadline history,
      (worker = .fetching ∨ ∃ until_, worker = .guarding until_) ∧
      Proceeds (count + 2) first { connection with
        worker, idleDeadline, history
        link := {}
        rearmed := ⟨false, .woken⟩
        calls := earlier ++ [⟨false, .waiting item.ticket (some (.ok reply)) next⟩] } := by
  have hconcluded : connection.taskStep? = some { connection with
      worker := .delivering item (.ok reply)
      link := {}
      idleDeadline := some (connection.now + connection.timing.idleTimeout.ticks)
      rearmed := ⟨false, .woken⟩ } := by
    refine taskStep?_worker ?_
    simp [Worker.step?, hworker, Worker.conclude, hrearmed, Signal.notify, releaseLink, hlink,
      LinkLock.release, Worker.moveTo]
  refine ⟨Worker.afterDelivery connection,
    some (connection.now + connection.timing.idleTimeout.ticks),
    ⟨connection.now, .delivered item.ticket (.ok reply)⟩ :: connection.history, ?_,
    h.trans (.step hconcluded (.one (taskStep?_worker ?_)))⟩
  · rw [Worker.afterDelivery]
    split_ifs
    · exact .inl rfl
    · exact .inr ⟨_, rfl⟩
  · simp [Worker.step?, deliver, modifyCall, hcalls, hcall, modify_concat, note, Worker.moveTo,
      Worker.afterDelivery]

/-- **A connection after an exchange**, with nothing queued and the tasks about to rest. -/
structure Served (before : Connection σ α) (peer : σ) (calls : List (Call α))
    (last : Connection σ α) : Prop where
  sound : Sound last
  items : last.queue.items = []
  idle : last.worker = .fetching ∨ ∃ until_, last.worker = .guarding until_
  watch : Watchable last.timer last.rearmed last.idleDeadline
  calls : last.calls = calls
  codec : last.codec = before.codec
  peer : last.wire.peer = peer

/-- **One exchange**: the request goes out, its whole answer comes in and is delivered. -/
lemma exchanges (h : Pending earlier item next connection) (hworker : connection.worker = .fetching)
    {peer : σ} {reply : Bytes}
    (hanswers : Answering connection.wire.peer item.request item.complete reply peer) :
    ∃ count last, count ≤ reply.length + 7 ∧ Proceeds count connection last ∧
      Served connection peer
        (earlier ++ [⟨false, .waiting item.ticket (some (.ok reply)) next⟩]) last := by
  have hfetched := fetches hworker h.sound.running h.waiter h.items
  have hsound : Sound { connection with
      worker := .fetched item
      queue := { connection.queue with
        items := []
        signal := connection.queue.signal.resume } } :=
    { h.sound with }
  obtain ⟨count, state, _, hcount, hsent⟩ := sends hsound rfl h.wanted
  obtain ⟨_, hreceived⟩ := hsent.receives hanswers.ends hanswers.cut hanswers.some rfl rfl rfl
  obtain ⟨worker, idleDeadline, history, hidle, hdelivered⟩ :=
    hreceived.delivers rfl rfl h.rearmed h.call h.calls
  have hpieces := hanswers.cut.length_le
  refine ⟨_, _, ?_, .step hfetched hdelivered, ?_⟩
  · omega
  exact {
    sound := { h.sound with free := rfl, empty := rfl }
    items := rfl
    idle := hidle
    watch := h.timer ▸ .woken
    calls := rfl
    codec := rfl
    peer := hanswers.after }

/-! ## The end of a call -/

/-- **The last call is over**, and the connection at rest. -/
structure CallOver (codec : Codec) (peer : σ) (earlier : List (Call α)) (outcome : Result α)
    (last : Connection σ α) : Prop where
  quiet : Quiet last
  still : last.taskStep? = none
  calls : last.calls = earlier ++ [⟨false, .finished outcome⟩]
  peer : last.wire.peer = peer
  codec : last.codec = codec

namespace Resting

/-- At rest the move is up to the last caller. -/
lemma taskStep?_eq (h : Resting connection) {call : Call α}
    (hcalls : connection.calls = earlier ++ [call])
    (hover : ∀ call ∈ earlier, call.isOver = true) :
    connection.taskStep? = Caller.step? connection earlier.length :=
  taskStep?_caller h.sound h.parked h.calm hcalls hover

/-- A call that knows its outcome is over with one more move. -/
lemma ends (h : Resting connection) (hover : ∀ call ∈ earlier, call.isOver = true)
    {outcome : Result α}
    (hcalls : connection.calls = earlier ++ [⟨false, .running (.done outcome)⟩]) :
    ∃ last, Proceeds 1 connection last ∧
      CallOver connection.codec connection.wire.peer earlier outcome last := by
  have hstep : connection.taskStep? = some { connection with
      calls := earlier ++ [⟨false, .finished outcome⟩] } := by
    rw [h.taskStep?_eq hcalls hover]
    simp [Caller.step?, modifyCall, hcalls, modify_concat]
  have hlast : Resting { connection with calls := earlier ++ [⟨false, .finished outcome⟩] } :=
    h.with_calls _ _ _
  have hover' : ∀ call ∈ earlier ++ [⟨false, .finished outcome⟩], call.isOver = true := by
    intro call hcall
    rcases List.mem_append.mp hcall with hearlier | hfinished
    · exact hover call hearlier
    · rw [List.mem_singleton.mp hfinished]
      rfl
  exact ⟨_, .one hstep, hlast.quiet hover', hlast.taskStep?_over hover', rfl, rfl, rfl⟩

/-- **A call that is told its reply** is over with two more moves. -/
lemma leaves (h : Resting connection) (hover : ∀ call ∈ earlier, call.isOver = true) {ticket : Nat}
    {result : Result Bytes} {outcome : Result α} (hnext : next result = .done outcome)
    (hcalls : connection.calls = earlier ++ [⟨false, .waiting ticket (some result) next⟩]) :
    ∃ last, Proceeds 2 connection last ∧
      CallOver connection.codec connection.wire.peer earlier outcome last := by
  have hstep : connection.taskStep? = some { connection with
      calls := earlier ++ [⟨false, .running (.done outcome)⟩]
      history := ⟨connection.now, .returned ticket result⟩ :: connection.history } := by
    rw [h.taskStep?_eq hcalls hover]
    simp [Caller.step?, Caller.leave, Caller.continueWith, modifyCall, hcalls, modify_concat, note,
      Queue.remove, h.items, hnext]
    rw [← h.items]
  obtain ⟨last, hlast, hconcluded⟩ := (h.with_calls _ _ _).ends hover rfl
  exact ⟨last, .step hstep hlast, hconcluded⟩

/-- **A request is made**: it is framed, and queued behind nothing. -/
lemma posts (h : Resting connection) (hover : ∀ call ∈ earlier, call.isOver = true)
    {unit : UnitId} {pdu : Bytes} {complete : Bytes → Bool}
    {conclude : Bytes → Result Bytes → Result α}
    (hcalls : connection.calls = earlier ++ [⟨false, .running (.frame unit pdu fun request =>
      .invoke request complete fun reply => .done (conclude request reply))⟩])
    (hsome : (connection.codec.request unit pdu).1 ≠ []) :
    ∃ ticket last, Proceeds 2 connection last ∧
      Pending earlier ⟨ticket, earlier.length, (connection.codec.request unit pdu).1, complete⟩
        (fun reply => .done (conclude (connection.codec.request unit pdu).1 reply)) last ∧
      Calm last ∧ (last.worker = .fetching ∨ ∃ until_, last.worker = .guarding until_) ∧
      last.codec = (connection.codec.request unit pdu).2 ∧
      last.wire.peer = connection.wire.peer := by
  have hframed : connection.taskStep? = some { connection with
      codec := (connection.codec.request unit pdu).2
      calls := earlier ++ [⟨false, .running (.invoke (connection.codec.request unit pdu).1 complete
        fun reply => .done (conclude (connection.codec.request unit pdu).1 reply))⟩] } := by
    rw [h.taskStep?_eq hcalls hover]
    simp [Caller.step?, Caller.continueWith, modifyCall, hcalls, modify_concat]
  have hresting := h.with_calls (connection.codec.request unit pdu).2 (earlier ++
    [⟨false, .running (.invoke (connection.codec.request unit pdu).1 complete
      fun reply => .done (conclude (connection.codec.request unit pdu).1 reply))⟩])
    connection.history
  have hwaiter : connection.queue.signal.notify.waiter ≠ .waiting := by
    rw [Signal.notify]
    split
    · simp
    · assumption
  have hqueued : ({ connection with
      codec := (connection.codec.request unit pdu).2
      calls := earlier ++ [⟨false, .running (.invoke (connection.codec.request unit pdu).1 complete
        fun reply => .done (conclude (connection.codec.request unit pdu).1 reply))⟩] }
      : Connection σ α).taskStep? = some { connection with
        codec := (connection.codec.request unit pdu).2
        queue := { connection.queue with
          items := [⟨connection.queue.nextTicket, earlier.length,
            (connection.codec.request unit pdu).1, complete⟩]
          nextTicket := connection.queue.nextTicket + 1
          signal := connection.queue.signal.notify }
        calls := earlier ++ [⟨false, .waiting connection.queue.nextTicket none
          fun reply => .done (conclude (connection.codec.request unit pdu).1 reply)⟩]
        history := ⟨connection.now, .accepted connection.queue.nextTicket earlier.length⟩ ::
          connection.history } := by
    rw [hresting.taskStep?_eq rfl hover]
    simp [Caller.step?, Caller.invoke, Caller.refusal?, isDisposed, h.sound.undisposed, hsome,
      h.sound.running, Cancellation.fired?, Queue.push, h.sound.accepting, h.items, modifyCall,
      modify_concat, note]
  refine ⟨connection.queue.nextTicket, _, .step hframed (.one hqueued), ?_, ?_, h.parked.idle, rfl,
    rfl⟩
  · exact {
      sound := { h.sound with }
      items := rfl
      waiter := hwaiter
      calls := rfl
      call := rfl
      ended := hover
      timer := h.calm.timer
      rearmed := h.calm.rearmed }
  · exact ⟨h.calm.timer, h.calm.rearmed, h.calm.early⟩

end Resting

/-- **A request whose turn it is** is exchanged at once, and its call is over. -/
lemma finishes (h : Pending earlier item next connection)
    (hturn : connection.worker = .fetching ∨
      ∃ until_, connection.worker = .guarding until_ ∧ until_ ≤ connection.now)
    {peer : σ} {reply : Bytes}
    (hanswers : Answering connection.wire.peer item.request item.complete reply peer)
    {outcome : Result α} (hnext : next (.ok reply) = .done outcome) :
    ∃ count last, count ≤ reply.length + 17 ∧ Proceeds count connection last ∧
      CallOver connection.codec peer earlier outcome last := by
  -- The guard time is over: one more move, and the worker looks for a request.
  obtain ⟨before, hbefore, hstart⟩ : ∃ before, before ≤ 1 ∧
      Proceeds before connection { connection with worker := .fetching } := by
    rcases hturn with hworker | ⟨until_, hworker, hdue⟩
    · refine ⟨0, Nat.zero_le 1, ?_⟩
      rw [← hworker]
      exact .refl connection
    · refine ⟨1, Nat.le_refl 1, .one (taskStep?_worker ?_)⟩
      simp [Worker.step?, hworker, h.sound.running, hdue, Worker.moveTo]
  have hpending : Pending earlier item next { connection with worker := .fetching } :=
    { h with sound := { h.sound with } }
  obtain ⟨count, served, hcount, hexchange, hserved⟩ :=
    exchanges hpending rfl hanswers
  obtain ⟨more, rested, hmore, hrest, hresting, hcalls, hcodec, hpeer⟩ :=
    rests hserved.sound hserved.items hserved.idle hserved.watch
  obtain ⟨last, hleave, hconcluded⟩ :=
    hresting.leaves h.ended hnext (hcalls.trans hserved.calls)
  rw [hcodec, hserved.codec, hpeer, hserved.peer] at hconcluded
  exact ⟨before + (count + (more + 2)), last, by omega,
    hstart.trans (hexchange.trans (hrest.trans hleave)), hconcluded⟩

/-! ## Waiting for the call -/

/-- **A call waited for**, past at most so many timers. -/
def awaitWithin (timers id : Nat) (connection : Connection σ α) : Connection σ α :=
  Clocked.passWithin (fun connection => connection.isOver id) none timers connection

/-- **The last call returns** with its outcome to whoever waits for it past so many timers. -/
def Returns (codec : Codec) (peer : σ) (earlier : List (Call α)) (outcome : Result α)
    (timers : Nat) (first : Connection σ α) : Prop :=
  ∃ last, CallOver codec peer earlier outcome last ∧
    ∀ more, awaitWithin (more + timers) earlier.length first = last

lemma Returns.mono {codec : Codec} {peer : σ} {outcome : Result α} {timers larger : Nat}
    {first : Connection σ α} (h : Returns codec peer earlier outcome timers first)
    (hle : timers ≤ larger) : Returns codec peer earlier outcome larger first := by
  obtain ⟨last, hover, hlast⟩ := h
  obtain ⟨extra, rfl⟩ := Nat.exists_eq_add_of_le' hle
  exact ⟨last, hover, fun more => by rw [← Nat.add_assoc, hlast]⟩

/-- A call that is over where the connection settles returns there. -/
lemma Proceeds.returns {codec : Codec} {peer : σ} {outcome : Result α}
    {first last : Connection σ α} {count : Nat} (h : Proceeds count first last)
    (hover : CallOver codec peer earlier outcome last) (hcount : count ≤ Clocked.patience) :
    Returns codec peer earlier outcome 1 first := by
  refine ⟨last, hover, fun more => ?_⟩
  have hsettled : last.isOver earlier.length = true := by
    simp [isOver, hover.calls, Call.isOver]
  rw [awaitWithin, Clocked.passWithin_none]
  simp only [Clocked.settle, h.settle_eq hover.still hcount, hsettled, if_true]

/-- A call that is not over where the connection settles is waited for past the next timer. -/
lemma Proceeds.awaitWithin_eq {first last : Connection σ α} {count id : Nat}
    (h : Proceeds count first last) (hcount : count ≤ Clocked.patience)
    (hstill : last.taskStep? = none) (hwaits : last.isOver id = false) {deadline : Nat}
    (hdeadline : last.nextDeadline? = some deadline) (hlater : last.now ≤ deadline)
    (timers : Nat) :
    awaitWithin (timers + 1) id first = awaitWithin timers id { last with now := deadline } := by
  have hfirst : last.deadlines.all (deadline ≤ ·) = true := by
    simpa using (List.min?_eq_some_iff.mp hdeadline).2
  have hadvance : last.advance deadline = { last with now := deadline } := by
    simp [advance, isSettled, hstill, hlater, hfirst]
  rw [awaitWithin, Clocked.passWithin_none]
  simp only [Clocked.settle, Clocked.nextDeadline?, Clocked.advance, h.settle_eq hstill hcount,
    hwaits, hdeadline, hadvance, Bool.false_eq_true, if_false, Option.elim_some, awaitWithin]

/-- **A request whose turn it is** makes its call return where the connection settles. -/
lemma returns_at_once (h : Pending earlier item next connection)
    (hturn : connection.worker = .fetching ∨
      ∃ until_, connection.worker = .guarding until_ ∧ until_ ≤ connection.now)
    {peer : σ} {reply : Bytes}
    (hanswers : Answering connection.wire.peer item.request item.complete reply peer)
    {outcome : Result α} (hnext : next (.ok reply) = .done outcome) {first : Connection σ α}
    {count : Nat} (hbefore : Proceeds count first connection) (hcount : count ≤ 30) :
    Returns connection.codec peer earlier outcome 1 first := by
  obtain ⟨more, last, hmore, hlater, hover⟩ := finishes h hturn hanswers hnext
  have hshort := hanswers.short
  exact (hbefore.trans hlater).returns hover (by omega)

/-- A request that waits out the guard time stands still until the next timer. -/
lemma returns_later (h : Pending earlier item next connection) (hcalm : Calm connection)
    {until_ deadline : Nat} (hworker : connection.worker = .guarding until_)
    (hearly : connection.now < until_)
    (hdeadline : connection.nextDeadline? = some deadline) (hlater : connection.now ≤ deadline)
    {first : Connection σ α} {count : Nat} (hbefore : Proceeds count first connection)
    (hcount : count ≤ 30) {codec : Codec} {peer : σ} {outcome : Result α} {timers : Nat}
    (hreturns : Returns codec peer earlier outcome timers { connection with now := deadline }) :
    Returns codec peer earlier outcome (timers + 1) first := by
  have hstill : connection.taskStep? = none := by
    rw [taskStep?_caller h.sound (hworker ▸ .guarding hearly) hcalm h.calls h.ended]
    simp [Caller.step?, h.calls, h.sound.running]
  have hwaits : connection.isOver earlier.length = false := by
    simp [isOver, h.calls, Call.isOver]
  have hpatience : (30 : Nat) ≤ Clocked.patience := by simp [Clocked.patience]
  obtain ⟨last, hover, hlast⟩ := hreturns
  refine ⟨last, hover, fun more => ?_⟩
  rw [← Nat.add_assoc,
    hbefore.awaitWithin_eq (by omega) hstill hwaits hdeadline hlater, hlast]

/-- The guard time ends before the idle timer has anything to do. -/
lemma returns_guarded (h : Pending earlier item next connection) (hcalm : Calm connection)
    {until_ : Nat} (hworker : connection.worker = .guarding until_)
    (hearly : connection.now < until_)
    (hfirst : ∀ deadline, connection.idleDeadline = some deadline → until_ ≤ deadline)
    {peer : σ} {reply : Bytes}
    (hanswers : Answering connection.wire.peer item.request item.complete reply peer)
    {outcome : Result α} (hnext : next (.ok reply) = .done outcome) {first : Connection σ α}
    {count : Nat} (hbefore : Proceeds count first connection) (hcount : count ≤ 30) :
    Returns connection.codec peer earlier outcome 2 first := by
  have hdeadline : connection.nextDeadline? = some until_ := by
    simp only [nextDeadline?, deadlines, Worker.deadline?, hworker, IdleTimer.deadline?,
      hcalm.timer]
    cases hidle : connection.idleDeadline with
    | none => rfl
    | some deadline => simp [Nat.min_eq_left (hfirst deadline hidle)]
  have hpending : Pending earlier item next { connection with now := until_ } :=
    { h with sound := { h.sound with } }
  exact returns_later h hcalm hworker hearly hdeadline (Nat.le_of_lt hearly) hbefore hcount
    (returns_at_once hpending (.inr ⟨until_, hworker, Nat.le_refl _⟩) hanswers hnext (.refl _)
      (Nat.zero_le _))

/-- **A call returns whose request waits for its turn**: when the guard time is over the request is
exchanged; the idle timer may close the link before. -/
lemma returns (h : Pending earlier item next connection) (hcalm : Calm connection)
    (hidle : connection.worker = .fetching ∨ ∃ until_, connection.worker = .guarding until_)
    {peer : σ} {reply : Bytes}
    (hanswers : Answering connection.wire.peer item.request item.complete reply peer)
    {outcome : Result α} (hnext : next (.ok reply) = .done outcome) {first : Connection σ α}
    {count : Nat} (hbefore : Proceeds count first connection) (hcount : count ≤ 30) :
    Returns connection.codec peer earlier outcome 3 first := by
  by_cases hturn : connection.worker = .fetching ∨
      ∃ until_, connection.worker = .guarding until_ ∧ until_ ≤ connection.now
  · exact (returns_at_once h hturn hanswers hnext hbefore hcount).mono (by omega)
  obtain ⟨until_, hworker⟩ := hidle.resolve_left fun hfetching => hturn (.inl hfetching)
  have hearly : connection.now < until_ :=
    Nat.lt_of_not_le fun hdue => hturn (.inr ⟨until_, hworker, hdue⟩)
  by_cases hfirst : ∀ deadline, connection.idleDeadline = some deadline → until_ ≤ deadline
  · exact (returns_guarded h hcalm hworker hearly hfirst hanswers hnext hbefore hcount).mono
      (by omega)
  · -- The idle deadline comes first: the link is closed, and then nothing else is due.
    simp only [not_forall, Nat.not_le] at hfirst
    obtain ⟨deadline, hset, hsooner⟩ := hfirst
    have hdeadline : connection.nextDeadline? = some deadline := by
      simp [nextDeadline?, deadlines, Worker.deadline?, hworker, IdleTimer.deadline?, hcalm.timer,
        hset, Nat.min_eq_right (Nat.le_of_lt hsooner)]
    have hsound : Sound { connection with now := deadline } := { h.sound with }
    obtain ⟨more, calmed, hmore, hcloses, htended, hcalm', hnone⟩ :=
      calms hsound (hworker ▸ .guarding hsooner) (by
        simp only [hcalm.timer, hcalm.rearmed]
        exact .watching)
    have hunset : calmed.idleDeadline = none := by
      refine hnone.resolve_right fun hsame => ?_
      have hpassed := hcalm'.early deadline (hsame.trans hset)
      rw [htended.now_eq] at hpassed
      exact Nat.lt_irrefl _ hpassed
    have hpending : Pending earlier item next { connection with now := deadline } :=
      { h with sound := hsound }
    have hcalmed := hpending.of_tended htended hcalm'
    obtain ⟨_, _, _, _, _, _, rfl⟩ := htended
    exact returns_later h hcalm hworker hearly hdeadline (Nat.le_of_lt (hcalm.early deadline hset))
      hbefore hcount (returns_guarded hcalmed hcalm' hworker hsooner
        (fun _ hset' => absurd (hunset.symm.trans hset') (by simp)) hanswers hnext hcloses
        (by omega))

end Pending

end Connection

namespace Session

open Connection

variable {σ α : Type} [Peer σ] {session : Session σ α}

/-- A call starts from rest. -/
lemma rests_of_start (hquiet : Quiet session.connection) (operation : Operation α) :
    ∃ count last,
      count ≤ 7 ∧ Proceeds count (Caller.start session.connection operation false).2 last ∧
      Resting last ∧ last.calls = session.connection.calls ++ [⟨false, .running operation⟩] ∧
      last.codec = session.connection.codec ∧
      last.wire.peer = session.connection.wire.peer := by
  have hsound : Sound (Caller.start session.connection operation false).2 :=
    { hquiet.toSound with }
  exact rests hsound hquiet.items hquiet.idle hquiet.watch

/-- **A call comes back with its outcome** if it returns to whoever waits for it. -/
lemma call_of_returns {operation : Operation α} {codec : Codec} {peer : σ} {outcome : Result α}
    (h : Returns codec peer session.connection.calls outcome 3
      (Caller.start session.connection operation false).2) :
    ∃ after, session.call operation false none = (some outcome, after) ∧
      Quiet after.connection ∧ after.connection.codec = codec ∧
      after.connection.wire.peer = peer := by
  obtain ⟨last, hover, hlast⟩ := h
  have hawait : (Caller.start session.connection operation false).2.await
      session.connection.calls.length none = last := hlast (Clocked.patience - 3)
  have hcall : last.calls[session.connection.calls.length]? = some ⟨false, .finished outcome⟩ := by
    simp [hover.calls]
  have hdrop : Caller.drop last session.connection.calls.length = last := by
    simp [Caller.drop, hcall]
  have hstart : (Caller.start session.connection operation false).1
      = session.connection.calls.length := rfl
  refine ⟨{ session with connection := last }, ?_, hover.quiet, hover.codec, hover.peer⟩
  simp [call, hstart, hawait, hdrop, outcome?, hcall]

/-- A call that needs nothing from the far end. -/
theorem call_done (hquiet : Quiet session.connection) (outcome : Result α) :
    ∃ after, session.call (.done outcome) false none = (some outcome, after) ∧
      Quiet after.connection ∧ after.connection.codec = session.connection.codec ∧
      after.connection.wire.peer = session.connection.wire.peer := by
  obtain ⟨count, rested, hcount, hrest, hresting, hcalls, hcodec, hpeer⟩ :=
    rests_of_start hquiet (.done outcome)
  obtain ⟨last, hend, hover⟩ := hresting.ends hquiet.ended hcalls
  rw [hcodec, hpeer] at hover
  have hpatience : (30 : Nat) ≤ Clocked.patience := by simp [Clocked.patience]
  exact call_of_returns (((hrest.trans hend).returns hover (by omega)).mono (by omega))

/-- **A call that makes one exchange** comes back with what it concludes from the reply that the far
end gives to its request. -/
theorem call_exchange (hquiet : Quiet session.connection) {unit : UnitId} {pdu reply : Bytes}
    {complete : Bytes → Bool} {peer : σ} (conclude : Bytes → Result Bytes → Result α)
    (hsome : (session.connection.codec.request unit pdu).1 ≠ [])
    (hanswers : Answering session.connection.wire.peer
      (session.connection.codec.request unit pdu).1 complete reply peer) :
    ∃ after, session.call (.frame unit pdu fun request => .invoke request complete fun reply =>
        .done (conclude request reply)) false none
          = (some (conclude (session.connection.codec.request unit pdu).1 (.ok reply)), after) ∧
      Quiet after.connection ∧
      after.connection.codec = (session.connection.codec.request unit pdu).2 ∧
      after.connection.wire.peer = peer := by
  obtain ⟨count, rested, hcount, hrest, hresting, hcalls, hcodec, hpeer⟩ :=
    rests_of_start hquiet (.frame unit pdu fun request => .invoke request complete fun reply =>
        .done (conclude request reply))
  rw [← hcodec] at hsome hanswers ⊢
  rw [← hpeer] at hanswers
  obtain ⟨ticket, posted, hpost, hpending, hcalm, hidle, hcodec', hpeer'⟩ :=
    hresting.posts hquiet.ended hcalls hsome
  rw [← hpeer'] at hanswers
  rw [← hcodec']
  exact call_of_returns (returns hpending hcalm hidle hanswers rfl (hrest.trans hpost) (by omega))

end Session

end Modbus
