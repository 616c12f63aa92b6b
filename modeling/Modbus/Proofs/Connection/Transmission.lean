import Modbus.Proofs.Connection.Amendments
import Modbus.Proofs.Connection.Exclusive

/-!
# One request at a time

What the worker hands to the link are requests that were accepted, in the order in which they were
accepted, and none of them goes out twice; and each exchange has the link to itself.  The second half
is `Exclusive`.  The first follows the requests that may still be sent: an amendment leaves them in
their order, drops some, or adds one at the end (`Amendment.line`), and what is handed to the link is
the first of them.  So what was sent and what may still be sent are together a part of what was
accepted (`Queueing`).

`Transmission` puts the two together, for every run of a new connection over any link, whatever is
done to the connection.
-/

namespace Modbus.Connection

variable {σ α : Type}

/-! ## What is sent, and what is accepted -/

/-- **A Send**: the request that the worker hands to the link, and whether the link is open. -/
structure Dispatch where
  item : Queued
  opened : Bool

/-- The request, if it goes out. -/
def Dispatch.sent? (dispatch : Dispatch) : Option Queued :=
  if dispatch.opened then some dispatch.item else none

/-- The Send that a happening is, if it is one. -/
def dispatch? (connection : Connection σ α) : Happening α → Option Dispatch
  | .act .worker =>
    match connection.worker with
    | .sending item => some ⟨item, connection.wire.connected⟩
    | _ => none
  | _ => none

/-- **The Sends of a run**, in order. -/
def dispatches [Peer σ] (connection : Connection σ α) : List (Happening α) → List Dispatch
  | [] => []
  | happening :: happenings =>
    (connection.dispatch? happening).toList ++ dispatches (connection.happen happening) happenings

/-- **The requests that a happening adds to the queue**: those with a ticket that was not given out
before. -/
def accepting [Peer σ] (connection : Connection σ α) (happening : Happening α) : List Queued :=
  (connection.happen happening).queue.items.filter fun item =>
    connection.queue.nextTicket ≤ item.ticket

/-- **The requests that a run accepts**, in the order in which they are queued. -/
def acceptances [Peer σ] (connection : Connection σ α) : List (Happening α) → List Queued
  | [] => []
  | happening :: happenings =>
    connection.accepting happening ++ acceptances (connection.happen happening) happenings

/-- The worker sends, or nothing is sent. -/
lemma dispatch?_cases (connection : Connection σ α) (happening : Happening α) :
    (∃ item, happening = .act .worker ∧ connection.worker = .sending item ∧
        connection.dispatch? happening = some ⟨item, connection.wire.connected⟩) ∨
      connection.dispatch? happening = none := by
  cases happening with
  | whim whim => exact .inr rfl
  | act action =>
      cases action with
      | worker =>
          cases hworker : connection.worker with
          | sending item => exact .inl ⟨item, rfl, rfl, by simp only [dispatch?, hworker]⟩
          | _ => exact .inr (by simp only [dispatch?, hworker])
      | _ => exact .inr rfl

/-- A worker that is about to send sends. -/
lemma happen_of_sending [Peer σ] {connection : Connection σ α} {item : Queued}
    (hworker : connection.worker = .sending item) :
    connection.happen (.act .worker) = Worker.send connection item := by
  simp only [happen, step, Worker.step?, hworker, Option.getD_some]

/-- **What every happening keeps, every run keeps**, with what was sent and accepted so far in
view. -/
theorem dispatch_induction [Peer σ] {motive : List Dispatch → List Queued → Connection σ α → Prop}
    (hstep : ∀ sent accepted connection happening, motive sent accepted connection →
      motive (sent ++ (connection.dispatch? happening).toList)
        (accepted ++ connection.accepting happening) (connection.happen happening)) :
    ∀ (happenings : List (Happening α)) (connection : Connection σ α) (sent : List Dispatch)
      (accepted : List Queued), motive sent accepted connection →
        motive (sent ++ connection.dispatches happenings)
          (accepted ++ connection.acceptances happenings) (connection.runOver happenings)
  | [], connection, sent, accepted, h => by simpa [dispatches, acceptances, runOver] using h
  | happening :: happenings, connection, sent, accepted, h => by
      have hlater := dispatch_induction hstep happenings (connection.happen happening) _ _
        (hstep _ _ _ happening h)
      rw [List.append_assoc, List.append_assoc] at hlater
      exact hlater

/-! ## First in, first out -/

/-- The request that is taken and not sent yet. -/
def Phase.held? : Phase → Option Queued
  | .holding item => some item
  | _ => none

/-- The requests that may still be sent, in order. -/
def Docket.unsent (d : Docket α) : List Queued :=
  d.phase.held?.toList ++ d.queue

/-- **Requests are queued and sent in the order in which they were accepted**, and tickets go up. -/
structure Queueing (sent accepted : List Queued) (d : Docket α) : Prop where
  line : (sent ++ d.unsent).Sublist accepted
  tickets : accepted.Pairwise fun a b => a.ticket < b.ticket
  bound : ∀ item ∈ accepted, item.ticket < d.nextTicket
  noted : Connection.accepted d.noted = accepted.map fun item => (item.ticket, item.call)

/-- The end of a wait is no acceptance. -/
lemma accepted_news {call : Call α} {news : List Occurrence} (h : Docket.Notes call news)
    (noted : List Occurrence) : accepted (noted ++ news) = accepted noted := by
  cases h <;> simp [accepted]

/-- **One amendment and the line**: it leaves the line as it is, drops requests from it, or adds one
at its end. -/
lemma Amendment.line {d d' : Docket α} (hamendment : Amendment d d')
    (hbound : ∀ item ∈ d.queue, item.ticket < d.nextTicket) :
    ((d'.queue.filter fun item => d.nextTicket ≤ item.ticket) = [] ∧ d'.unsent.Sublist d.unsent ∧
        accepted d'.noted = accepted d.noted ∧ d.nextTicket ≤ d'.nextTicket) ∨
      ∃ item, (d'.queue.filter fun item => d.nextTicket ≤ item.ticket) = [item] ∧
        d'.unsent = d.unsent ++ [item] ∧ item.ticket = d.nextTicket ∧
        accepted d'.noted = accepted d.noted ++ [(item.ticket, item.call)] ∧
        d'.nextTicket = d.nextTicket + 1 := by
  have hnone {queue : List Queued} (hqueue : queue.Sublist d.queue) :
      (queue.filter fun item => d.nextTicket ≤ item.ticket) = [] := by
    rw [List.filter_eq_nil_iff]
    intro item hitem
    simpa using hbound item (hqueue.subset hitem)
  have hkept {later : Docket α} (hphase : later.phase = d.phase)
      (hqueue : later.queue.Sublist d.queue) : later.unsent.Sublist d.unsent := by
    rw [Docket.unsent, Docket.unsent, hphase]
    exact (List.Sublist.refl _).append hqueue
  -- A request that is no more held may not be sent any more.
  have hgone {later : Docket α} (hheld : later.phase.held? = none)
      (hqueue : later.queue.Sublist d.queue) : later.unsent.Sublist d.unsent := by
    rw [Docket.unsent, hheld]
    exact hqueue.trans (List.sublist_append_right _ _)
  cases hamendment with
  | @accept id call request complete next hcall hprogress hopen =>
      refine .inr ⟨⟨d.nextTicket, id, request, complete⟩, ?_, ?_, rfl, ?_, rfl⟩
      · rw [List.filter_append, hnone (List.Sublist.refl _)]
        simp
      · simp [Docket.unsent]
      · simp [accepted]
  | take hphase hqueue =>
      refine .inl ⟨hnone (hqueue ▸ List.sublist_cons_self _ _), ?_, rfl, Nat.le_refl _⟩
      simp [Docket.unsent, hphase, hqueue, Phase.held?]
  | @work item phase hbefore hafter hheld hresult =>
      refine .inl ⟨hnone (List.Sublist.refl _), ?_, rfl, Nat.le_refl _⟩
      cases phase with
      | holding other =>
          obtain rfl := Option.some.inj hafter
          exact hkept (hheld rfl).symm (List.Sublist.refl _)
      | _ => exact hgone rfl (List.Sublist.refl _)
  | deliver hphase =>
      exact .inl ⟨hnone (List.Sublist.refl _), hgone rfl (List.Sublist.refl _), rfl, Nat.le_refl _⟩
  | breakDown hphase =>
      exact .inl ⟨hnone (List.Sublist.refl _), hgone rfl (List.Sublist.refl _), rfl, Nat.le_refl _⟩
  | refuseQueued hdisposal =>
      exact .inl ⟨rfl, hkept rfl (List.nil_sublist _), rfl, Nat.le_refl _⟩
  | resume hcall hresumes hticket hnews =>
      exact .inl ⟨hnone List.filter_sublist, hkept rfl List.filter_sublist, accepted_news hnews _,
        hticket⟩
  | _ =>
      exact .inl ⟨hnone (List.Sublist.refl _), hkept rfl (List.Sublist.refl _), rfl, Nat.le_refl _⟩

/-- **A Send** takes the first request from the line. -/
lemma unsent_of_send [Peer σ] {connection : Connection σ α} {item : Queued}
    (hworker : connection.worker = .sending item) :
    connection.docket.unsent = item :: (Worker.send connection item).docket.unsent := by
  have hbefore : connection.docket.unsent = item :: connection.queue.items := by
    simp [Docket.unsent, docket, hworker, phase, Phase.held?]
  have hperformed := docket_perform connection (connection.wire.send item.request)
  have hafter : (Worker.send connection item).docket.unsent = connection.queue.items := by
    simp only [Worker.send]
    split <;>
      · rw [docket_moveTo, hperformed]
        rfl
  rw [hbefore, hafter]

namespace Queueing

variable {sent accepted : List Queued} {d d' : Docket α}

/-- **What one amendment does to the order.** -/
lemma of_amendment (h : Queueing sent accepted d) (hamendment : Amendment d d') :
    Queueing sent (accepted ++ d'.queue.filter fun item => d.nextTicket ≤ item.ticket) d' := by
  have hqueued : ∀ item ∈ d.queue, item.ticket < d.nextTicket := fun item hitem =>
    h.bound item (h.line.subset (List.mem_append_right _ (List.mem_append_right _ hitem)))
  rcases hamendment.line hqueued with ⟨hnone, hline, hnoted, hticket⟩ |
    ⟨item, hadded, hunsent, hitem, hnoted, hticket⟩
  · rw [hnone, List.append_nil]
    exact ⟨((List.Sublist.refl _).append hline).trans h.line, h.tickets,
      fun item hin => Nat.lt_of_lt_of_le (h.bound item hin) hticket, hnoted.trans h.noted⟩
  · rw [hadded]
    refine ⟨?_, ?_, ?_, ?_⟩
    · rw [hunsent, ← List.append_assoc]
      exact h.line.append (List.Sublist.refl _)
    · rw [List.pairwise_append]
      refine ⟨h.tickets, List.pairwise_singleton _ _, fun earlier hearlier last hlast => ?_⟩
      rw [List.mem_singleton.mp hlast, hitem]
      exact h.bound earlier hearlier
    · intro other hother
      rw [hticket]
      rcases List.mem_append.mp hother with hearlier | hlast
      · exact Nat.lt_succ_of_lt (h.bound other hearlier)
      · rw [List.mem_singleton.mp hlast, hitem]
        exact Nat.lt_succ_self _
    · rw [hnoted, h.noted, List.map_append]
      rfl

/-- **What one happening does to the order.** -/
lemma of_happening [Peer σ] {connection : Connection σ α}
    (h : Queueing sent accepted connection.docket) (happening : Happening α) :
    Queueing (sent ++ ((connection.dispatch? happening).toList.map Dispatch.item))
      (accepted ++ connection.accepting happening) (connection.happen happening).docket := by
  have hafter := h.of_amendment (amendment_of_happening connection happening)
  rcases connection.dispatch?_cases happening with ⟨item, rfl, hworker, hsend⟩ | hnone
  · refine ⟨?_, hafter.tickets, hafter.bound, hafter.noted⟩
    have hline := h.line
    rw [unsent_of_send hworker, ← happen_of_sending hworker] at hline
    rw [hsend, Option.toList_some, List.map_singleton, List.append_assoc]
    exact hline.trans (List.sublist_append_left _ _)
  · rw [hnone, Option.toList_none, List.map_nil, List.append_nil]
    exact hafter

end Queueing

/-! ## Each exchange by itself -/

/-- **What one happening does to a history of exchanges.** -/
lemma Held.of_happening [Peer σ] {sent : List Queued} {connection : Connection σ α}
    (h : Held sent connection.custody) (happening : Happening α) :
    Held (sent ++ (connection.dispatch? happening).toList.filterMap Dispatch.sent?)
      (connection.happen happening).custody := by
  rcases connection.dispatch?_cases happening with ⟨item, rfl, hworker, hsend⟩ | hnone
  · have hopened : (connection.dispatch? (.act .worker)).toList.filterMap Dispatch.sent?
        = if connection.wire.connected then [item] else [] := by
      rw [hsend]
      cases hopen : connection.wire.connected <;> simp [Dispatch.sent?]
    rw [hopened, happen_of_sending hworker]
    exact h.of_send hworker
  · rw [hnone, Option.toList_none, List.filterMap_nil, List.append_nil]
    by_cases hsteady : happening = .whim .lose
    · subst hsteady
      exact h.lose
    · by_cases hsending : ∃ item, connection.worker = .sending item
      · -- Whoever is not the worker does nothing while it is about to send.
        obtain ⟨item, hworker⟩ := hsending
        have hsame : connection.happen happening = connection := by
          cases happening with
          | act action =>
              refine step_of_running (by rw [hworker]; rfl) ?_
              rintro rfl
              simp [dispatch?, hworker] at hnone
          | whim whim =>
              cases whim with
              | lose => exact absurd rfl hsteady
              | _ => simp only [happen, indulge, hworker]
        rw [hsame]
        exact h
      · exact h.of_shift (fun item hstage => hsending ⟨item, hstage⟩)
          (shift_of_happening connection hsteady)

/-- **The worker comes to send only over an open link.** -/
lemma Shift.opens {c c' : Custody} (hshift : Shift c c') {item : Queued}
    (h : c.stage = .sending item → c.connected = true) (hafter : c'.stage = .sending item) :
    c'.connected = true := by
  have hwaiting (hwaits : c.stage.isRunning = false) : c.stage ≠ .sending item := by
    rintro hstage
    rw [hstage] at hwaits
    cases hwaits
  cases hshift with
  | attempt hstage hattempted =>
      cases hattempted with
      | opened => rfl
      | _ => cases hafter
  | opening hstage hattempted =>
      cases hattempted with
      | opened => rfl
      | _ => cases hafter
  | use hstage hopen => exact hopen
  | away hbefore hlater hstopped =>
      obtain rfl := hafter
      rcases hlater with hlater | ⟨item, error, hlater⟩ <;> cases hlater
  | request hstage =>
      simp only at hafter
      split_ifs at hafter
  | read hstage hlater hevents =>
      obtain rfl := hafter
      rcases hlater with ⟨received, hlater⟩ | ⟨received, expiresAt, hlater⟩ <;> cases hlater
  | deliver hstage hlater =>
      obtain rfl := hafter
      rcases hlater with hlater | ⟨until_, hlater⟩ <;> cases hlater
  | @spend deadline hwaits htimer hheld =>
      obtain ⟨_, _, _, _, hspent⟩ := c.exists_spend_eq deadline
      rw [hspent] at hafter
      exact absurd hafter (hwaiting hwaits)
  | unlink hwaits hdisposal hheld => exact absurd hafter (hwaiting hwaits)
  | _ => first | exact h hafter | cases hafter

lemma failed_of_sending [Peer σ] {connection : Connection σ α} {item : Queued}
    (hworker : connection.worker = .sending item) (hclosed : connection.wire.connected = false) :
    (connection.happen (.act .worker)).worker
      = .concluding item (.error (.transport .notConnected)) := by
  rw [happen_of_sending hworker]
  rcases Worker.custody_send connection item with ⟨hopen, -⟩ | ⟨-, hrefused⟩
  · simp [hclosed] at hopen
  · exact congrArg Custody.stage hrefused

/-! ## Every run -/

/-- What the worker sends, and what happens besides, in a run over any link. -/
structure Transmission [Peer σ] (initial : Connection σ α) (happenings : List (Happening α)) :
    Prop where
  /-- What is sent was accepted, in that order. -/
  fifo : ((initial.dispatches happenings).map Dispatch.item).Sublist
    (initial.acceptances happenings)
  /-- No request is accepted twice, and so none is sent twice. -/
  once : (initial.acceptances happenings).Pairwise fun a b => a.ticket < b.ticket
  /-- Every acceptance is noted in the history. -/
  noted : accepted (occurrences (initial.runOver happenings).history)
    = (initial.acceptances happenings).map fun item => (item.ticket, item.call)
  /-- The frames on the link are the requests that are sent over an open link, and nothing else. -/
  frames : Connection.frames (occurrences (initial.runOver happenings).history)
    = ((initial.dispatches happenings).filterMap Dispatch.sent?).map Queued.request
  /-- Whenever the worker sends it finds the link open, unless the link has gone down by itself. -/
  opened : ∀ before item, before <+: happenings → .whim .lose ∉ before →
    (initial.runOver before).worker = .sending item →
      (initial.runOver before).wire.connected = true
  /-- A Send that finds the link closed ends the exchange at once. -/
  failed : ∀ before item, before <+: happenings → (initial.runOver before).worker = .sending item →
    (initial.runOver before).wire.connected = false →
      ((initial.runOver before).happen (.act .worker)).worker
        = .concluding item (.error (.transport .notConnected))
  /-- From the moment a request is sent until a result is told, nothing else is sent, nobody
  connects and the idle timer closes nothing. -/
  undisturbed : ∀ before frame between after,
    occurrences (initial.runOver happenings).history
        = before ++ .wire (.sent frame) :: (between ++ after) →
      (∀ occurrence ∈ between, isDelivered occurrence = false) →
        ∀ occurrence ∈ between, isBeside occurrence = true ∨ occurrence = .wire .closed
  /-- If the link is closed meanwhile, the result is what comes next. -/
  closed : ∀ before frame between next after,
    occurrences (initial.runOver happenings).history
        = before ++ .wire (.sent frame) :: (between ++ .wire .closed :: next :: after) →
      (∀ occurrence ∈ between, isDelivered occurrence = false) → isDelivered next = true
  /-- The result is the one of the request that was sent. -/
  own : ∀ before frame between ticket result after,
    occurrences (initial.runOver happenings).history
        = before ++ .wire (.sent frame) :: (between ++ .delivered ticket result :: after) →
      (∀ occurrence ∈ between, isDelivered occurrence = false) →
        ∃ item, ((initial.dispatches happenings).filterMap
            Dispatch.sent?)[(Connection.frames before).length]? = some item ∧
          item.request = frame ∧ item.ticket = ticket

/-- What a run has sent and accepted, and what it owes. -/
lemma queueing_of_run [Peer σ] (name : String) (timing : Timing) (framing : Framing)
    (wire : Wire σ) (happenings : List (Happening α)) :
    let initial : Connection σ α := create name timing framing wire
    Queueing ((initial.dispatches happenings).map Dispatch.item) (initial.acceptances happenings)
      (initial.runOver happenings).docket :=
  dispatch_induction
    (motive := fun sent accepted c => Queueing (sent.map Dispatch.item) accepted c.docket)
    (fun _ _ _ happening h => by
      rw [List.map_append]
      exact h.of_happening happening)
    happenings _ [] [] ⟨List.Sublist.refl _, List.Pairwise.nil, by simp, rfl⟩

lemma held_of_run [Peer σ] (name : String) (timing : Timing) (framing : Framing)
    (wire : Wire σ) (happenings : List (Happening α)) :
    let initial : Connection σ α := create name timing framing wire
    Held ((initial.dispatches happenings).filterMap Dispatch.sent?)
      (initial.runOver happenings).custody :=
  dispatch_induction
    (motive := fun sent _ c => Held (sent.filterMap Dispatch.sent?) c.custody)
    (fun _ _ _ happening h => by
      rw [List.filterMap_append]
      exact h.of_happening happening)
    happenings _ [] [] ⟨InLine.of_run name timing framing wire [], .free, rfl, .nothing⟩

/-- Of what happens, the acceptances are noted as something that happens to calls. -/
lemma accepted_docket (connection : Connection σ α) :
    accepted connection.docket.noted = accepted (occurrences connection.history) := by
  simp only [accepted, docket, List.filterMap_filter]
  refine List.filterMap_congr fun occurrence _ => ?_
  cases occurrence <;> rfl

/-- **Requests are sent one at a time, in the order in which they were accepted, and at most
once**, over any link. -/
theorem transmission_of_run [Peer σ] (name : String) (timing : Timing) (framing : Framing)
    (wire : Wire σ) (happenings : List (Happening α)) :
    Transmission (create name timing framing wire) happenings := by
  let initial : Connection σ α := create name timing framing wire
  have hqueueing := queueing_of_run name timing framing wire happenings
  obtain ⟨-, channel, -, hexclusive⟩ := held_of_run name timing framing wire happenings
  exact {
    fifo := (List.sublist_append_left _ _).trans hqueueing.line
    once := hqueueing.tickets
    noted := (accepted_docket _).symm.trans hqueueing.noted
    frames := hexclusive.frames
    opened := fun before item _ hsteady hworker =>
      custody_induction (motive := fun c => ∀ item, c.stage = .sending item → c.connected = true)
        (fun _ _ h hshift item hafter => hshift.opens (h item) hafter) before initial
        (fun hlose => absurd hlose hsteady) (by simp [custody, initial, create]) item hworker
    failed := fun before item _ hworker hclosed => failed_of_sending hworker hclosed
    undisturbed := fun before frame between after htrace htold =>
      hexclusive.undisturbed htrace htold
    closed := fun before frame between next after htrace htold =>
      hexclusive.delivered_of_closed htrace htold
    own := fun before frame between ticket result after htrace htold =>
      hexclusive.own htrace htold }

end Modbus.Connection
