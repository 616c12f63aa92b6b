import Modbus.Connection.Schedule
import Modbus.Proofs.Connection.Jobs
import Modbus.Proofs.Connection.Leftover
import Modbus.Proofs.Service

/-!
# Concurrent jobs are done one after the other

With a device at the far end (`DeviceBehind`), a connection makes any number of concurrent jobs look
as if they had been done one after the other.  The order is the one in which requests are sent: it
is a part of the order in which they were accepted, it has each call at most once, the device's
store is what the jobs make of it in that order, and whatever a call concludes is what its job is
meant to conclude at its position (`Serial`).

The argument puts together what is known of any peer.  A device gives at most one frame for a
request, and that frame shows its own end, so a reply that was read to its end took all of it: by
`Leftover`, no request finds anything on the link (`nothing_left`), and each reply is the device's
whole answer to its own request (`reply_whole`).
-/

namespace Modbus

/-! ## Jobs one after the other -/

namespace Job

/-- The store after a job. -/
def apply (job : Job) (store : Store) : Store :=
  job.access.apply job.unit store

end Job

/-- **The store after the jobs of some calls**, one after the other. -/
def applied (jobs : List Job) : List Nat → Store → Store
  | [], store => store
  | id :: order, store => applied jobs order ((jobs[id]?).elim store fun job => job.apply store)

/-! ## One job and a device -/

lemma Store.adjust_of_none {store : Store} {unit : UnitId} (h : store.unit unit = none)
    (change : Image → Image) : store.adjust unit change = store := by
  have hunit : (fun other => if other = unit then (store.unit other).map change
      else store.unit other) = store.unit := by
    funext other
    split_ifs with heq
    · rw [heq, h]
      rfl
    · rfl
  rw [adjust, hunit]

namespace Job.Asks

variable {framing : Framing} {job : Job} {request : Bytes} {store : Store}

/-- **A unit that exists** does the job, and its reply can be told from its bytes and is read as the
job's answer. -/
lemma serve_of_unit (h : job.Asks framing request) {image : Image}
    (hunit : store.unit job.unit = some image) :
    ∃ reply outcome, Responder.serve framing store request = (some reply, job.apply store) ∧
      EndsAt framing.responseComplete reply ∧ job.access.Answered image outcome ∧
      job.access.read framing request (.ok reply) = .ok outcome := by
  obtain ⟨pdu, transaction, hpdu, rfl⟩ := h
  obtain ⟨decoded, response, hserved⟩ := Access.served_of_pdu hpdu image
  obtain ⟨hreply, hstore⟩ := hserved.handled store job.unit hunit
  obtain ⟨outcome, hanswered, hread⟩ := hserved.read_reply framing ⟨job.unit, some transaction⟩
  refine ⟨framing.writeResponse ⟨job.unit, some transaction⟩ response, outcome, ?_,
    hserved.endsAt framing _, hanswered, hread⟩
  rw [Responder.serve, framing.readRequest_wrap _ hserved.read hserved.served]
  simp only [Framing.heading_unit, hreply, hstore, Option.map_some, Framing.writeResponse,
    Framing.wrap_heading, Job.apply]

/-- A unit that does not exist stays silent. -/
lemma serve_of_none (h : job.Asks framing request) (hunit : store.unit job.unit = none) :
    Responder.serve framing store request = (none, job.apply store) := by
  obtain ⟨pdu, transaction, hpdu, rfl⟩ := h
  obtain ⟨decoded, response, hserved⟩ := Access.served_of_pdu hpdu {}
  rw [Responder.serve, framing.readRequest_wrap _ hserved.read hserved.served]
  simp [Store.handle, Store.hasUnit, hunit, Job.apply, Access.apply, Store.adjust_of_none hunit]

lemma serve_store (h : job.Asks framing request) (store : Store) :
    (Responder.serve framing store request).2 = job.apply store := by
  cases hunit : store.unit job.unit with
  | none => rw [h.serve_of_none hunit]
  | some image =>
      obtain ⟨reply, outcome, hserve, -⟩ := h.serve_of_unit hunit
      rw [hserve]

end Job.Asks

namespace Connection

variable {σ α : Type}

/-! ## Conversations -/

/-- **A conversation with a peer**: each request sent is answered in turn. -/
def Conversation [Peer σ] : σ → List Sending → σ → Prop
  | peer, [], last => last = peer
  | peer, sending :: later, last =>
    sending.own = (Peer.answer peer sending.item.request).1 ∧
      Conversation (Peer.answer peer sending.item.request).2 later last

lemma Conversation.concat [Peer σ] {middle : σ} {sending : Sending}
    (hown : sending.own = (Peer.answer middle sending.item.request).1) :
    ∀ (sent : List Sending) (peer : σ), Conversation peer sent middle →
      Conversation peer (sent ++ [sending]) (Peer.answer middle sending.item.request).2
  | [], _, h => by
      obtain rfl := h
      exact ⟨hown, rfl⟩
  | _ :: later, _, h => ⟨h.1, concat hown later _ h.2⟩

lemma Conversation.of_move [Peer σ] {past : List (Label α)} {v v' : View σ α} {label : Label α}
    {peer : σ} (h : Conversation peer (past.filterMap Label.sent?) v.peer)
    (hmove : Move v label v') :
    Conversation peer ((past ++ [label]).filterMap Label.sent?) v'.peer := by
  cases hmove with
  | send hphase hopen =>
      simp only [List.filterMap_append, List.filterMap_cons, Label.sent?, List.filterMap_nil]
      exact .concat rfl _ _ h
  | _ => simpa [List.filterMap_cons, Label.sent?] using h

/-- **Every run is a conversation.** -/
lemma conversation_of_run [Peer σ] (name : String) (timing : Timing) (framing : Framing)
    {wire : Wire σ} (hwire : wire.arriving = []) {actions : List (Action α)}
    (hpush : ∀ chunk, .push chunk ∉ actions) :
    Conversation wire.peer ((create name timing framing wire).sendings actions)
      ((create name timing framing wire).run actions).wire.peer :=
  invariant_of_run (motive := fun past view =>
      Conversation wire.peer (past.filterMap Label.sent?) view.peer)
    name timing framing hwire rfl (fun _ _ _ _ h _ hmove => h.of_move hmove) hpush

/-! ## A device at the far end -/

/-- **A peer that answers like a device**: `holds peer store` says that the store behind the peer is
`store`.  The answer to a frame is the device's reply, in any pieces, or nothing where the device
stays silent. -/
structure DeviceBehind [Peer σ] (framing : Framing) (holds : σ → Store → Prop) : Prop where
  store : ∀ peer store frame, holds peer store →
    holds (Peer.answer peer frame).2 (Responder.serve framing store frame).2
  reply : ∀ peer store frame, holds peer store →
    (Peer.answer peer frame).1.flatten = (Responder.serve framing store frame).1.getD []

lemma flatten_pieces : ∀ (cuts : List Nat) (bytes : Bytes), (pieces cuts bytes).flatten = bytes
  | [], [] => rfl
  | [], byte :: rest => List.flatten_singleton
  | size :: cuts, bytes => by
      rw [pieces, List.flatten_cons, flatten_pieces cuts, List.take_append_drop]

/-- The simulated device is one, however it cuts its replies. -/
lemma deviceBehind_device (framing : Framing) (cuts : List Nat) :
    DeviceBehind framing fun peer store => peer = Responder.device framing store cuts where
  store := by
    rintro _ store frame rfl
    rfl
  reply := by
    rintro _ store frame rfl
    simp only [Peer.answer, Responder.answer]
    cases (Responder.serve framing store frame).1 with
    | none => rfl
    | some reply => exact flatten_pieces cuts reply

/-- The calls whose requests were sent, in order. -/
def order (sent : List Sending) : List Nat :=
  sent.map fun sending => sending.item.call

/-- The request sent is that of its call's job. -/
def Posted (framing : Framing) (jobs : List Job) (sending : Sending) : Prop :=
  ∃ job, jobs[sending.item.call]? = some job ∧ job.Asks framing sending.item.request ∧
    sending.item.complete = framing.responseComplete

/-- **A conversation with a device** does the jobs in the order of their requests, and each request
is answered as the device answers it at its position. -/
lemma answers_of_conversation [Peer σ] {framing : Framing} {holds : σ → Store → Prop}
    (hdevice : DeviceBehind framing holds) {jobs : List Job} {last : σ} :
    ∀ (sent : List Sending) (peer : σ) (store : Store), holds peer store →
      (∀ sending ∈ sent, Posted framing jobs sending) → Conversation peer sent last →
        holds last (applied jobs (order sent) store) ∧
          ∀ before sending after, sent = before ++ sending :: after →
            sending.own.flatten = (Responder.serve framing (applied jobs (order before) store)
              sending.item.request).1.getD []
  | [], _, _, hholds, _, h => by
      obtain rfl := h
      exact ⟨hholds, fun before sending after heq => by simp at heq⟩
  | first :: later, peer, store, hholds, hposted, h => by
      obtain ⟨job, hjob, hasks, -⟩ := hposted first (List.mem_cons_self ..)
      obtain ⟨hown, hlater⟩ := h
      have hnext := hdevice.store peer store first.item.request hholds
      rw [hasks.serve_store] at hnext
      obtain ⟨hlast, hanswers⟩ := answers_of_conversation hdevice later _ _ hnext
        (fun sending hsending => hposted sending (List.mem_cons_of_mem _ hsending)) hlater
      refine ⟨by simpa [order, applied, hjob] using hlast, fun before sending after heq => ?_⟩
      cases before with
      | nil =>
          obtain ⟨rfl, rfl⟩ := List.cons.inj heq
          rw [hown]
          exact hdevice.reply peer store _ hholds
      | cons head rest =>
          obtain ⟨rfl, hrest⟩ := List.cons.inj heq
          simpa [order, applied, hjob] using hanswers rest sending after hrest

/-- **A device gives one whole frame or nothing.** -/
lemma whole_of_answers {framing : Framing} {jobs : List Job} {store : Store} {sending : Sending}
    (hposted : Posted framing jobs sending)
    (hown : sending.own.flatten
      = (Responder.serve framing store sending.item.request).1.getD []) :
    sending.own.flatten = [] ∨ EndsAt sending.item.complete sending.own.flatten := by
  obtain ⟨job, -, hasks, hcomplete⟩ := hposted
  cases hunit : store.unit job.unit with
  | none =>
      rw [hasks.serve_of_none hunit] at hown
      exact .inl hown
  | some image =>
      obtain ⟨reply, outcome, hserve, hends, -⟩ := hasks.serve_of_unit hunit
      rw [hserve] at hown
      rw [hown, hcomplete]
      exact .inr hends

/-- A reply that was read until it was complete is all that there was. -/
lemma eq_of_complete {complete : Bytes → Bool} {bytes own : Bytes} (hsome : bytes ≠ [])
    (hcomplete : complete bytes = true) (hpart : bytes <+: own)
    (hwhole : own = [] ∨ EndsAt complete own) : bytes = own := by
  rcases hwhole with rfl | hends
  · exact absurd (List.prefix_nil.mp hpart) hsome
  · refine hpart.eq_of_length_le (Nat.le_of_not_lt fun hshort => ?_)
    rw [hends.before bytes hpart hshort] at hcomplete
    exact absurd hcomplete (by simp)

/-- **No request finds anything on the link**, if replies take all that there is. -/
lemma nothing_left {ledger : List Occurrence} : ∀ (sent : List Sending),
    (∀ sending, sent.head? = some sending → sending.left.flatten = []) →
      sent.IsChain (Follows ledger) →
        (∀ sending ∈ sent, ∀ bytes, .delivered sending.item.ticket (.ok bytes) ∈ ledger →
          sending.left.flatten = [] → bytes = sending.own.flatten) →
            ∀ sending ∈ sent, sending.left.flatten = []
  | [], _, _, _ => by simp
  | [first], hfirst, _, _ => by
      simpa using hfirst first rfl
  | first :: second :: later, hfirst, hchain, hwhole => by
      obtain ⟨hfollows, hrest⟩ := List.isChain_cons_cons.mp hchain
      have hnone := hfirst first rfl
      have hsecond : second.left.flatten = [] := by
        rcases hfollows with hnothing | ⟨bytes, hdelivered, hall⟩
        · exact hnothing
        · rw [hwhole first (List.mem_cons_self ..) bytes hdelivered hnone, Sending.all, hnone,
            List.nil_append] at hall
          simpa using hall
      have hlater := nothing_left (second :: later) (by simpa using hsecond) hrest
        fun sending hsending => hwhole sending (List.mem_cons_of_mem _ hsending)
      intro sending hsending
      rcases List.mem_cons.mp hsending with rfl | hin
      · exact hnone
      · exact hlater sending hin

/-! ## What calls conclude -/

/-- **What is known of a run with a device.** -/
structure Attended (framing : Framing) (jobs : List Job) (store : Store)
    (past : List (Label Outcome)) (view : View σ Outcome) : Prop where
  ordered : Ordered past view
  leftover : Leftover past view
  engaged : Engaged framing jobs past view
  answers : ∀ before sending after, past.filterMap Label.sent? = before ++ sending :: after →
    sending.own.flatten = (Responder.serve framing (applied jobs (order before) store)
      sending.item.request).1.getD []

namespace Attended

variable {framing : Framing} {jobs : List Job} {store : Store} {past : List (Label Outcome)}
  {view : View σ Outcome} {sending other : Sending}

/-- Tickets tell requests apart. -/
lemma eq_of_ticket (h : Attended framing jobs store past view)
    (hsending : sending ∈ past.filterMap Label.sent?) (hother : other ∈ past.filterMap Label.sent?)
    (hticket : sending.item.ticket = other.item.ticket) : sending = other := by
  have hnodup : ((past.filterMap Label.sent?).map fun sending => sending.item.ticket).Nodup := by
    rw [List.nodup_iff_pairwise_ne, List.pairwise_map]
    exact h.ordered.tickets_lt.imp Nat.ne_of_lt
  exact List.inj_on_of_nodup_map hnodup hsending hother hticket

lemma mem_line (hsending : sending ∈ past.filterMap Label.sent?) :
    sending.item ∈ line past view :=
  List.mem_append_left _ (List.mem_map_of_mem hsending)

lemma posted (h : Attended framing jobs store past view)
    (hsending : sending ∈ past.filterMap Label.sent?) : Posted framing jobs sending :=
  h.engaged.posted sending.item (mem_line hsending)

/-- **A reply is the whole answer to its request**, if nothing was left over before it. -/
lemma reply_whole (h : Attended framing jobs store past view)
    (hsending : sending ∈ past.filterMap Label.sent?) {bytes : Bytes}
    (hreplied : Replied view sending.item.ticket bytes) (hleft : sending.left.flatten = []) :
    bytes = sending.own.flatten := by
  obtain ⟨other, hother, hticket, hsome, hcomplete, hpart⟩ :=
    h.leftover.replies _ bytes hreplied
  obtain rfl := h.eq_of_ticket hother hsending hticket
  obtain ⟨before, after, hsplit⟩ := List.append_of_mem hsending
  rw [Sending.all, hleft, List.nil_append] at hpart
  exact eq_of_complete hsome hcomplete hpart
    (whole_of_answers (h.posted hsending) (h.answers before _ after hsplit))

/-- No request of a job finds anything on the link. -/
lemma left_eq_nil (h : Attended framing jobs store past view)
    (hsending : sending ∈ past.filterMap Label.sent?) : sending.left.flatten = [] :=
  nothing_left _ h.leftover.first h.leftover.chain
    (fun _ hin _ hdelivered hnone => h.reply_whole hin (.delivered hdelivered) hnone) _ hsending

/-- **What a call concludes is what its job is meant to conclude** at its position. -/
lemma answered (h : Attended framing jobs store past view) {id : Nat} {outcome : Outcome}
    (hcall : view.calls[id]? = some (.finished (.ok outcome))) :
    ∃ before after job image, order (past.filterMap Label.sent?) = before ++ id :: after ∧
      jobs[id]? = some job ∧ (applied jobs before store).unit job.unit = some image ∧
      job.access.Answered image outcome := by
  obtain ⟨job, hjob⟩ := h.engaged.courses.exists_job hcall
  cases h.engaged.courses.course id job _ hjob hcall with
  | finished htold =>
      obtain ⟨ticket, request, bytes, hasked, hreturned, hread⟩ := htold outcome rfl
      have hreplied : Replied view ticket bytes := .returned hreturned
      obtain ⟨sending, hsending, rfl, hsome, -⟩ := h.leftover.replies ticket bytes hreplied
      obtain ⟨before, after, hsplit⟩ := List.append_of_mem hsending
      have hcallId : sending.item.call = id := by
        have hentry := h.ordered.sent.subset (List.mem_map_of_mem hsending)
        have hnodup : ((accepted view.ledger).map Prod.fst).Nodup := by
          rw [List.nodup_iff_pairwise_ne, List.pairwise_map]
          exact h.ordered.tickets.imp Nat.ne_of_lt
        exact congrArg Prod.snd (List.inj_on_of_nodup_map hnodup hentry hasked.entry rfl)
      have hrequest := hasked.alone sending.item (mem_line hsending) rfl
      have hbytes := h.reply_whole hsending hreplied (h.left_eq_nil hsending)
      rw [h.answers before sending after hsplit, hrequest] at hbytes
      cases hunit : (applied jobs (order before) store).unit job.unit with
      | none =>
          rw [hasked.asks.serve_of_none hunit] at hbytes
          exact absurd hbytes hsome
      | some image =>
          obtain ⟨reply, answer, hserve, -, hanswered, hreply⟩ :=
            hasked.asks.serve_of_unit hunit
          rw [hserve] at hbytes
          obtain rfl : bytes = reply := hbytes
          obtain rfl : answer = outcome := by
            rw [hreply] at hread
            exact Except.ok.inj hread
          refine ⟨order before, order after, job, image, ?_, hjob, hunit, hanswered⟩
          rw [hsplit, order, order, order, List.map_append, List.map_cons, hcallId]

end Attended

/-! ## Every run with a device -/

/-- **A run that could have been sequential**, seen from its end: `sent` are the requests that went
out, `store` is what the device held at first. -/
structure Serial (framing : Framing) (jobs : List Job) (holds : σ → Store → Prop) (store : Store)
    (sent : List Sending) (final : Connection σ Outcome) : Prop where
  /-- Nothing else went out. -/
  frames : frames (ledger final.history) = sent.map fun sending => sending.item.request
  /-- Each request is that of its call's job. -/
  posted : ∀ sending ∈ sent, Posted framing jobs sending
  /-- No call's request went out twice. -/
  once : (order sent).Nodup
  /-- Requests went out in the order in which they were accepted. -/
  enqueued : (order sent).Sublist ((accepted (ledger final.history)).map Prod.snd)
  /-- The device holds what the jobs make of the store in that order. -/
  stored : holds final.wire.peer (applied jobs (order sent) store)
  /-- What a call returns is its job's answer at its position. -/
  answered : ∀ id outcome, final.outcome? id = some (.ok outcome) → ∃ before after job image,
    order sent = before ++ id :: after ∧ jobs[id]? = some job ∧
      (applied jobs before store).unit job.unit = some image ∧ job.access.Answered image outcome

lemma finished_of_outcome? {connection : Connection σ α} {id : Nat} {outcome : Result α}
    (h : connection.outcome? id = some outcome) :
    connection.view.calls[id]? = some (.finished outcome) := by
  simp only [outcome?] at h
  split at h
  · rename_i hcall
    simpa [view, Option.some.inj h] using hcall
  · exact absurd h (by simp)

/-- **Concurrent jobs are done one after the other.**  For every device, every framing, every way to
cut its replies, any number of jobs started at any time, and every run of the connection, with calls
cancelled and given up, attempts to open the link that fail, timeouts and a disposal wherever they
may come: the run could have been sequential. -/
theorem serial_of_run [Peer σ] (name : String) (timing : Timing) (framing : Framing)
    (wire : Wire σ) (holds : σ → Store → Prop) (store : Store) (jobs : List Job)
    (actions : List (Action Outcome)) (hdevice : DeviceBehind framing holds)
    (hholds : holds wire.peer store) (hwire : wire.arriving = [])
    (hpush : ∀ chunk, .push chunk ∉ actions)
    (hjobs : (create name timing framing wire).started actions
      = jobs.map fun job => job.operation framing) :
    let initial : Connection σ Outcome := create name timing framing wire
    Serial framing jobs holds store (initial.sendings actions) (initial.run actions) := by
  intro initial
  have hordered := ordered_of_run name timing framing hwire hpush
  have hengaged := engaged_of_run name timing framing hwire hpush hjobs
  have hposted : ∀ sending ∈ initial.sendings actions, Posted framing jobs sending :=
    fun sending hsending => hengaged.posted sending.item
      (List.mem_append_left _ (List.mem_map_of_mem hsending))
  obtain ⟨hstore, hanswers⟩ := answers_of_conversation hdevice _ wire.peer store hholds hposted
    (conversation_of_run name timing framing hwire hpush)
  have hattended : Attended framing jobs store (initial.labels actions)
      (initial.run actions).view :=
    ⟨hordered, leftover_of_run name timing framing hwire hpush, hengaged, hanswers⟩
  have henqueued : (order (initial.sendings actions)).Sublist
      ((accepted (ledger (initial.run actions).history)).map Prod.snd) := by
    have hsublist := hordered.sent.map Prod.snd
    rwa [List.map_map] at hsublist
  exact {
    frames := hordered.frames
    posted := hposted
    once := hengaged.once.sublist henqueued
    enqueued := henqueued
    stored := hstore
    answered := fun id outcome h => hattended.answered (finished_of_outcome? h) }

/-- A write and a read of one register, started together: the read finds what was written. -/
theorem read_sees_write_started_with_it :
    let framing : Framing := .tcp true
    let store : Store := ({} : Store).addUnit 1
    let wire : Wire Responder := { peer := .device framing store [4] }
    let holds (peer : Responder) (store : Store) : Prop := peer = .device framing store [4]
    let jobs : List Job :=
      [⟨1, .writeRegister ⟨5, 7⟩⟩, ⟨1, .readWords .holdingRegisters 5 1⟩]
    let initial : Connection Responder Outcome := create "link" .network framing wire
    let operations := jobs.map fun job => job.operation framing
    let moves : List (Action Outcome) :=
      [.caller 0, .caller 0, .caller 1, .caller 1] ++ List.replicate 17 .worker
        ++ [.caller 0, .caller 0, .caller 1, .caller 1]
    let actions := operations.map (fun operation => .start operation false) ++ moves
    (DeviceBehind framing holds ∧ holds wire.peer store ∧ wire.arriving = [] ∧
        (∀ chunk, .push chunk ∉ actions) ∧
        initial.started actions = operations) ∧
      (initial.run actions).outcome? 1 = some (.ok (.words [⟨5, 7⟩])) ∧
      Serial framing jobs holds store (initial.sendings actions) (initial.run actions) := by
  intro framing store wire holds jobs initial operations moves actions
  have hdevice : DeviceBehind framing holds := deviceBehind_device framing [4]
  have hpush : ∀ chunk, .push chunk ∉ actions := by
    intro chunk h
    simp [actions, operations, moves, jobs] at h
  have hjobs : initial.started actions = operations :=
    started_of_starts (by simp [moves]) operations initial rfl
  have houtcome : (initial.run actions).outcome? 1 = some (.ok (.words [⟨5, 7⟩])) := by
    unfold actions moves operations jobs initial wire store framing
    cbv
  exact ⟨⟨hdevice, rfl, rfl, hpush, hjobs⟩, houtcome,
    serial_of_run "link" .network framing wire holds store jobs actions hdevice rfl rfl hpush
      hjobs⟩

end Connection

end Modbus
