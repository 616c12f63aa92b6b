import Modbus.Proofs.Connection.Docket

/-!
# The amendments of a connection

Every happening amends the docket in one of the ways of an `Amendment` (`amendment_of_happening`),
over any link.  The worker's moves come first (`Worker.amendment_of_step`).  Most of them are work on
the request in its hands, and then only two things matter: that it is still the same request, and
why there is a result if there is one.
-/

namespace Modbus.Connection

variable {σ α : Type} {connection : Connection σ α}

/-! ## The worker -/

/-- The reason given is that of a mark. -/
lemma fired?_cases {marks : Cancellation} {reason : CancelReason}
    (h : marks.fired? = some reason) :
    (reason = .caller ∧ marks.caller = true) ∨ (reason = .shutdown ∧ marks.shutdown = true) ∨
      (reason = .abandoned ∧ marks.abandoned = true) := by
  rw [Cancellation.fired?] at h
  split_ifs at h with hcaller hshutdown habandoned
  · exact .inl ⟨(Option.some.inj h).symm, hcaller⟩
  · exact .inr (.inl ⟨(Option.some.inj h).symm, hshutdown⟩)
  · exact .inr (.inr ⟨(Option.some.inj h).symm, habandoned⟩)

lemma fired?_eq_none {marks : Cancellation} :
    marks.fired? = none ↔
      marks.caller = false ∧ marks.shutdown = false ∧ marks.abandoned = false := by
  obtain ⟨caller, shutdown, abandoned⟩ := marks
  cases caller <;> cases shutdown <;> cases abandoned <;> simp [Cancellation.fired?]

/-- **A mark on a request** is a reason for the error that the worker reads off it. -/
lemma interrupted_of_interruption? {item : Queued} {error : Error}
    (h : connection.interruption? item = some error) :
    connection.docket.Interrupted item error := by
  obtain ⟨reason, hfired, rfl⟩ := Option.map_eq_some_iff.mp h
  rcases fired?_cases hfired with ⟨rfl, hcaller⟩ | ⟨rfl, hshutdown⟩ | ⟨rfl, habandoned⟩
  · obtain ⟨call, hcall, hcancelled⟩ := (Option.any_eq_true _ _).mp hcaller
    exact .cancelled hcall hcancelled
  · exact .disposed hshutdown
  · refine .abandoned fun id => ?_
    rintro ⟨call, hcall, hawaits⟩
    simp only [cancellation, awaits, Bool.not_eq_true', List.any_eq_false] at habandoned
    exact habandoned call (List.mem_of_getElem? hcall) hawaits

namespace Worker

variable {item : Queued} {before : Connection σ α}

/-- **The worker goes on to send the request in its hands.** -/
lemma amendment_of_hold (after : Connection σ α) (stage : Stage)
    (hbefore : phase before.worker = .holding item) (hdocket : after.docket = before.docket)
    (hafter : phase stage = .holding item) :
    Amendment before.docket (moveTo after stage).docket := by
  have hsame : { before.docket with phase := phase stage } = before.docket := by
    rw [hafter, ← hbefore]
    rfl
  rw [docket_onward (by rw [hbefore]; rfl) hdocket (by rw [hafter]; rfl), hsame]
  exact .rest

/-- **The worker goes on to read**, and has no result yet. -/
lemma amendment_of_read (after : Connection σ α) (stage : Stage) {received : Bytes}
    (hbefore : (phase before.worker).item? = some item) (hdocket : after.docket = before.docket)
    (hafter : phase stage = .reading item received) :
    Amendment before.docket (moveTo after stage).docket := by
  rw [docket_onward hbefore hdocket (by rw [hafter]; rfl), hafter]
  exact .work hbefore rfl nofun nofun

/-- **The worker comes to a result** for the request in its hands. -/
lemma amendment_of_result (after : Connection σ α) (stage : Stage) {result : Result Bytes}
    (hbefore : (phase before.worker).item? = some item) (hdocket : after.docket = before.docket)
    (hafter : (phase stage).item? = some item) (hresult : (phase stage).result? = some result)
    (hearned : before.docket.Earned item result) :
    Amendment before.docket (moveTo after stage).docket := by
  rw [docket_onward hbefore hdocket hafter]
  refine .work hbefore hafter (fun hheld => ?_) fun other hsome => .inr ?_
  · rw [hheld] at hresult
    simp [Phase.result?] at hresult
  · rw [Option.some.inj (hsome.symm.trans hresult)]
    exact hearned

/-- The link failed: that is not an error that a caller or a disposal makes. -/
lemma earned_of_fault (d : Docket α) (item : Queued) (fault : TransportFault) :
    d.Earned item (.error (.transport fault)) :=
  .failed (by simp) (by simp) rfl

lemma amendment_of_failed (attempts : Attempts) (fault : TransportFault)
    (hbefore : phase before.worker = .holding item)
    (hdocket : connection.docket = before.docket) :
    Amendment before.docket (attemptFailed connection item attempts fault).docket := by
  rw [attemptFailed]
  split
  · exact amendment_of_hold _ _ hbefore hdocket rfl
  · exact amendment_of_result _ _ (by rw [hbefore]; rfl) hdocket rfl rfl (earned_of_fault _ _ _)

lemma amendment_of_ended (attempts : Attempts) (hbefore : phase before.worker = .holding item)
    (hdocket : connection.docket = before.docket) :
    Amendment before.docket (attemptEnded connection item attempts).docket := by
  have hperformed := (docket_perform connection connection.wire.open).trans hdocket
  rcases attemptEnded_cases connection item attempts with ⟨-, -, hopened⟩ | ⟨fault, -, hfailed⟩
  · rw [hopened]
    exact amendment_of_hold _ _ hbefore hperformed rfl
  · rw [hfailed]
    exact amendment_of_failed attempts fault hbefore hperformed

lemma amendment_of_begun (attempts : Attempts) (hbefore : phase connection.worker = .holding item) :
    Amendment connection.docket (beginAttempt connection item attempts).docket := by
  have hbegun := docket_attempted connection
  simp only [beginAttempt]
  split_ifs
  · exact amendment_of_ended attempts hbefore hbegun
  · exact amendment_of_hold _ _ hbefore hbegun rfl

/-- **A wait that ends**: an interruption is the result. -/
lemma amendment_of_resume {continue_ : Option (Connection σ α)} {c' : Connection σ α}
    (hbefore : (phase connection.worker).item? = some item)
    (hcontinue : ∀ after, continue_ = some after → Amendment connection.docket after.docket)
    (hstep : resumeExchange connection item continue_ = some c') :
    Amendment connection.docket c'.docket := by
  rw [resumeExchange] at hstep
  split at hstep
  · rename_i error hfired
    exact Option.some.inj hstep ▸ amendment_of_result _ _ hbefore rfl rfl rfl
      (.interrupted (interrupted_of_interruption? hfired))
  · exact hcontinue c' hstep

lemma amendment_of_fetch {c' : Connection σ α} (hworker : connection.worker = .fetching)
    (hstep : fetch? connection = some c') : Amendment connection.docket c'.docket := by
  have hphase : connection.docket.phase = .idle := by simp [docket, hworker, phase]
  rw [fetch?] at hstep
  split_ifs at hstep with hshutdown hwaiting
  · have hdocket : c'.docket = { connection.docket with parked := false, stopped := true } := by
      rw [← Option.some.inj hstep]
      simp only [docket, Queue.withdraw, hworker, phase]
      cases hwaiter : connection.queue.signal.waiter <;>
        simp [Signal.withdraw, hwaiter, Stage.isStopped]
    rw [hdocket]
    exact .stop hphase hshutdown (by simp)
  · cases hitems : connection.queue.items with
    | nil =>
        have hpoll : connection.queue.poll
            = (none, { connection.queue with signal := ⟨false, .waiting⟩ }) := by
          simp [Queue.poll, hitems]
        rw [hpoll] at hstep
        have hdocket : c'.docket = { connection.docket with parked := true } := by
          rw [← Option.some.inj hstep]
          rfl
        rw [hdocket]
        exact .park hphase hitems
    | cons item rest =>
        have hpoll : connection.queue.poll = (some item, { connection.queue with
            items := rest, signal := connection.queue.signal.resume }) := by
          simp [Queue.poll, hitems]
        rw [hpoll] at hstep
        have hdocket : c'.docket = { connection.docket with
            phase := .holding item, queue := rest, parked := false } := by
          rw [← Option.some.inj hstep]
          simp only [docket, hworker, Stage.isStopped]
          rfl
        rw [hdocket]
        exact .take hphase hitems

lemma amendment_of_send [Peer σ] (hworker : connection.worker = .sending item) :
    Amendment connection.docket (send connection item).docket := by
  have hbefore : (phase connection.worker).item? = some item := by
    simp [hworker, phase, Phase.item?]
  have hperformed := docket_perform connection (connection.wire.send item.request)
  simp only [send]
  split
  · exact amendment_of_read _ _ hbefore hperformed rfl
  · exact amendment_of_result _ _ hbefore hperformed rfl rfl (earned_of_fault _ _ _)

/-- **A read**: what is delivered as a reply is what the request's own test calls complete. -/
lemma amendment_of_receive {received : Bytes} (hworker : connection.worker = .receiving item received) :
    Amendment connection.docket (receive connection item received).docket := by
  have hbefore : (phase connection.worker).item? = some item := by
    simp [hworker, phase, Phase.item?]
  have hperformed := docket_perform connection (connection.wire.receive Limit.readBuffer)
  simp only [receive]
  split
  · exact amendment_of_result _ _ hbefore hperformed rfl rfl (earned_of_fault _ _ _)
  · exact amendment_of_read _ _ hbefore hperformed rfl
  · exact amendment_of_result _ _ hbefore hperformed rfl rfl (.failed (by simp) (by simp) rfl)
  · split_ifs with hcomplete
    · exact amendment_of_result _ _ hbefore hperformed rfl rfl (.complete hcomplete)
    · exact amendment_of_read _ _ hbefore hperformed rfl

/-- The result that the worker delivers is the one that it has come to. -/
lemma amendment_of_conclude {result : Result Bytes}
    (hworker : connection.worker = .concluding item result) :
    Amendment connection.docket (conclude connection item result).docket := by
  have hdocket : (conclude connection item result).docket
      = (moveTo connection (.delivering item result)).docket := by
    cases result with
    | ok reply => rfl
    | error error =>
        simp only [conclude]
        split_ifs
        · rw [docket_moveTo, docket_moveTo, ← docket_closeLink connection]
          rfl
        · rfl
  have hbefore : (phase connection.worker).item? = some item := by
    simp [hworker, phase, Phase.item?]
  rw [hdocket, docket_onward hbefore rfl rfl]
  refine .work hbefore rfl (fun hheld => ?_) fun other hsome => .inl ?_
  · cases hheld
  · rw [← hsome]
    simp [docket, hworker, phase, Phase.result?]

lemma amendment_of_deliver {result : Result Bytes} {stage : Stage}
    (hworker : connection.worker = .delivering item result) (hidle : phase stage = .idle)
    (hgoes : stage.isStopped = false) :
    Amendment connection.docket
      (moveTo ((connection.deliver item result).note (.delivered item.ticket result))
        stage).docket := by
  have hstopped : stage.isStopped = connection.docket.stopped := by
    rw [hgoes, docket, hworker]
    rfl
  rw [docket_moveTo, docket_note_foreign _ rfl, docket_deliver, hidle, hstopped]
  exact .deliver (by simp [docket, hworker, phase])

/-- **A move of the worker** is an amendment of the docket. -/
lemma amendment_of_step [Peer σ] {c' : Connection σ α} (hstep : step? connection = some c') :
    Amendment connection.docket c'.docket := by
  have hphase {stage : Stage} (hworker : connection.worker = stage) :
      phase connection.worker = phase stage := by rw [hworker]
  have hitem {stage : Stage} (hworker : connection.worker = stage) :
      (phase connection.worker).item? = (phase stage).item? := by rw [hworker]
  cases hworker : connection.worker with
  | fetching =>
      simp only [step?, hworker] at hstep
      exact amendment_of_fetch hworker hstep
  | fetched item =>
      simp only [step?, hworker] at hstep
      split at hstep
      · rename_i error hfired
        exact Option.some.inj hstep ▸ amendment_of_result _ _ (hitem hworker) rfl rfl rfl
          (.interrupted (interrupted_of_interruption? hfired))
      · rw [← Option.some.inj hstep]
        have hafter (stage : Stage) (hstage : stage = .linked item ∨ stage = .awaitingLink item) :
            Amendment connection.docket
              (moveTo { connection with link := connection.link.request .worker } stage).docket := by
          rcases hstage with rfl | rfl <;> exact amendment_of_hold _ _ (hphase hworker) rfl rfl
        refine hafter _ ?_
        split_ifs
        · exact .inl rfl
        · exact .inr rfl
  | awaitingLink item =>
      simp only [step?, hworker] at hstep
      split at hstep
      · rename_i error hfired
        exact Option.some.inj hstep ▸ amendment_of_result
          { connection with link := connection.link.withdraw .worker } (.delivering item (.error error))
          (hitem hworker) rfl rfl rfl (.interrupted (interrupted_of_interruption? hfired))
      · split_ifs at hstep
        exact Option.some.inj hstep ▸ amendment_of_hold _ _ (hphase hworker) rfl rfl
  | linked item =>
      simp only [step?, hworker] at hstep
      split_ifs at hstep
      · exact Option.some.inj hstep ▸ amendment_of_hold _ _ (hphase hworker) rfl rfl
      · exact Option.some.inj hstep ▸ amendment_of_hold { connection with state := .connecting }
          (.attempting item ⟨connection.now, connection.timing.minBackoff⟩) (hphase hworker) rfl rfl
  | attempting item attempts =>
      simp only [step?, hworker, Option.some.injEq] at hstep
      exact hstep ▸ amendment_of_begun attempts (hphase hworker)
  | opening item attempts opensAt expiresAt =>
      simp only [step?, hworker] at hstep
      refine amendment_of_resume (hitem hworker) (fun after hafter => ?_) hstep
      split_ifs at hafter
      · exact Option.some.inj hafter ▸ amendment_of_ended attempts (hphase hworker) rfl
      · exact Option.some.inj hafter ▸ amendment_of_failed attempts _ (hphase hworker) rfl
  | backingOff item attempts until_ =>
      simp only [step?, hworker] at hstep
      refine amendment_of_resume (hitem hworker) (fun after hafter => ?_) hstep
      split_ifs at hafter
      exact Option.some.inj hafter ▸ amendment_of_hold _ _ (hphase hworker) rfl rfl
  | sending item =>
      simp only [step?, hworker, Option.some.injEq] at hstep
      exact hstep ▸ amendment_of_send hworker
  | receiving item received =>
      simp only [step?, hworker, Option.some.injEq] at hstep
      exact hstep ▸ amendment_of_receive hworker
  | stalled item received expiresAt =>
      simp only [step?, hworker] at hstep
      refine amendment_of_resume (hitem hworker) (fun after hafter => ?_) hstep
      split_ifs at hafter
      exact Option.some.inj hafter ▸
        amendment_of_result _ _ (hitem hworker) rfl rfl rfl (earned_of_fault _ _ _)
  | concluding item result =>
      simp only [step?, hworker, Option.some.injEq] at hstep
      exact hstep ▸ amendment_of_conclude hworker
  | delivering item result =>
      simp only [step?, hworker, Option.some.injEq] at hstep
      refine hstep ▸ amendment_of_deliver hworker ?_ ?_ <;>
        · rw [afterDelivery]
          split_ifs <;> rfl
  | guarding until_ =>
      have hdocket (stage : Stage) (hidle : phase stage = .idle) :
          (moveTo connection stage).docket
            = { connection.docket with stopped := stage.isStopped } := by
        rw [docket_moveTo, hidle]
        simp only [docket, hworker, phase]
      simp only [step?, hworker] at hstep
      split_ifs at hstep with hshutdown
      · rw [← Option.some.inj hstep, hdocket .stopped rfl]
        exact .stop (by simp [docket, hworker, phase]) hshutdown fun hparked => hparked
      · have hsame : (moveTo connection .fetching).docket = connection.docket := by
          rw [hdocket .fetching rfl]
          simp only [docket, hworker, Stage.isStopped]
        rw [← Option.some.inj hstep, hsame]
        exact .rest
  | stopped => simp [step?, hworker] at hstep

end Worker

/-! ## The idle timer and a disposal -/

/-- The idle timer owes nothing to anybody. -/
lemma IdleTimer.docket_of_step {wakeup : IdleTimer.Wakeup} {c' : Connection σ α}
    (hstep : IdleTimer.step? connection wakeup = some c') : c'.docket = connection.docket := by
  cases htimer : connection.timer with
  | looking =>
      simp only [IdleTimer.step?, htimer] at hstep
      exact Option.some.inj hstep ▸ rfl
  | watching deadline =>
      simp only [IdleTimer.step?, htimer] at hstep
      cases wakeup with
      | shutdown =>
          simp only [IdleTimer.wake?] at hstep
          split_ifs at hstep
          exact Option.some.inj hstep ▸ rfl
      | rearmed =>
          simp only [IdleTimer.wake?] at hstep
          split_ifs at hstep
          exact Option.some.inj hstep ▸ rfl
      | deadline =>
          cases deadline with
          | none => simp [IdleTimer.wake?] at hstep
          | some deadline =>
              simp only [IdleTimer.wake?] at hstep
              split_ifs at hstep
              exact Option.some.inj hstep ▸ rfl
  | awaitingLink deadline =>
      simp only [IdleTimer.step?, htimer] at hstep
      split_ifs at hstep
      have hexpired : (IdleTimer.expire connection deadline).docket = connection.docket := by
        rw [IdleTimer.expire]
        split_ifs
        · exact (docket_closeLink _).trans (docket_note_foreign _ rfl)
        · rfl
        · rfl
      rw [← hexpired, ← Option.some.inj hstep]
      rfl
  | stopped => simp [IdleTimer.step?, htimer] at hstep

namespace Disposing

lemma amendment_of_begin (connection : Connection σ α) :
    Amendment connection.docket (begin connection).docket := by
  rw [begin]
  split
  · rename_i hdisposal
    exact .dispose hdisposal
  · exact .rest

lemma amendment_of_step {c' : Connection σ α} (hstep : step? connection = some c') :
    Amendment connection.docket c'.docket := by
  cases hdisposal : connection.disposal with
  | joiningWorker =>
      simp only [step?, hdisposal] at hstep
      split at hstep
      · exact Option.some.inj hstep ▸ .join hdisposal
      · simp at hstep
  | joiningTimer =>
      simp only [step?, hdisposal] at hstep
      split at hstep
      · have hdocket : c'.docket
            = { (refuseQueued connection).docket with disposal := .awaitingLink } := by
          rw [← Option.some.inj hstep]
          rfl
        rw [hdocket, refuseQueued, Queue.close, docket_foldl_deliver]
        exact .refuseQueued hdisposal
      · simp at hstep
  | awaitingLink =>
      simp only [step?, hdisposal] at hstep
      split_ifs at hstep
      have hdocket : c'.docket = { connection.closeLink.docket with disposal := .finished } := by
        rw [← Option.some.inj hstep]
        rfl
      rw [hdocket, docket_closeLink]
      exact .finish hdisposal
  | untouched => simp [step?, hdisposal] at hstep
  | finished => simp [step?, hdisposal] at hstep

end Disposing

/-! ## Calls -/

namespace Caller

variable {id : Nat} {call : Call α}

/-- A call that waits for nothing goes on. -/
lemma amendment_of_resumes {c' : Connection σ α} {after : Call α} {nextTicket : Nat}
    (hcall : connection.calls[id]? = some call) (hresumes : connection.docket.Resumes call after)
    (hticket : connection.queue.nextTicket ≤ nextTicket) (hsilent : call.ticket? = none)
    (hdocket : c'.docket = { connection.docket with
      queue := connection.queue.items.filter fun item => call.ticket? != some item.ticket
      nextTicket
      calls := connection.calls.set id after }) :
    Amendment connection.docket c'.docket := by
  have hamendment := Amendment.resume hcall hresumes hticket (.silent hsilent)
  rw [List.append_nil] at hamendment
  rw [hdocket]
  exact hamendment

lemma filter_of_running {operation : Operation α} (hprogress : call.progress = .running operation)
    (items : List Queued) :
    (items.filter fun item => call.ticket? != some item.ticket) = items := by
  simp [Call.ticket?, hprogress]

/-- The wait for a ticket ends: what is queued under it is taken out. -/
lemma filter_of_waiting {ticket : Nat} {reply : Option (Result Bytes)}
    {next : Result Bytes → Operation α} (hprogress : call.progress = .waiting ticket reply next)
    (items : List Queued) :
    (items.filter fun item => call.ticket? != some item.ticket)
      = items.filter fun item => item.ticket != ticket := by
  refine List.filter_congr fun item _ => ?_
  simp only [Call.ticket?, hprogress]
  rw [Bool.eq_iff_iff, bne_iff_ne, bne_iff_ne, ne_eq, ne_eq, Option.some.injEq, eq_comm]

/-- **A wait that ends**, and what is noted of it. -/
lemma amendment_of_end {ticket : Nat} {reply : Option (Result Bytes)}
    {next : Result Bytes → Operation α} {progress : Progress α} {occurrence : Occurrence}
    (hcall : connection.calls[id]? = some call) (hprogress : call.progress = .waiting ticket reply next)
    (hresumes : connection.docket.Resumes call { call with progress })
    (hnotes : Docket.Notes call [occurrence]) (haside : isAside occurrence = true) :
    Amendment connection.docket
      (({ connection with queue := connection.queue.remove ticket }.modifyCall id
        fun call => { call with progress }).note occurrence).docket := by
  have hdocket : ({ connection with queue := connection.queue.remove ticket }.modifyCall id
      fun call => { call with progress }).docket
        = { connection.docket with
            queue := connection.queue.items.filter fun item => call.ticket? != some item.ticket
            calls := connection.calls.set id { call with progress } } := by
    rw [filter_of_waiting hprogress, ← modify_eq_set hcall fun call => { call with progress }]
    rfl
  rw [docket_note _ haside, hdocket]
  exact .resume hcall hresumes (Nat.le_refl _) hnotes

lemma amendment_of_leave {ticket : Nat} {reply : Option (Result Bytes)}
    {next : Result Bytes → Operation α} {result : Result Bytes}
    (hcall : connection.calls[id]? = some call) (hprogress : call.progress = .waiting ticket reply next)
    (hresult : connection.docket.Yields call reply result) :
    Amendment connection.docket (leave connection id ticket result next).docket :=
  amendment_of_end hcall hprogress (.leave hprogress hresult)
    (.returned (by simp [Call.ticket?, hprogress]) result) rfl

/-- What a call does that has no request to hand over. -/
lemma amendment_of_proceed {c' : Connection σ α} {operation : Operation α} {progress : Progress α}
    (hcall : connection.calls[id]? = some call) (hprogress : call.progress = .running operation)
    (hother : ∀ request complete next, operation ≠ .invoke request complete next)
    (hafter : ∀ ticket reply next, progress ≠ .waiting ticket reply next)
    (hdocket : c'.docket = (connection.modifyCall id fun call => { call with progress }).docket) :
    Amendment connection.docket c'.docket := by
  refine amendment_of_resumes hcall (.proceed hprogress hother hafter) (Nat.le_refl _)
    (by simp [Call.ticket?, hprogress]) ?_
  rw [filter_of_running hprogress, ← modify_eq_set hcall fun call => { call with progress }, hdocket]
  rfl

lemma amendment_of_refusal {request : Bytes} {complete : Bytes → Bool}
    {next : Result Bytes → Operation α} {error : Error} (queue : Queue)
    (hcall : connection.calls[id]? = some call)
    (hprogress : call.progress = .running (.invoke request complete next))
    (hcancelled : error = .cancelled → call.cancelled = true)
    (hdisposed : error = .disposed → connection.docket.Stopping)
    (hqueue : queue.items = connection.queue.items ∧ queue.closed = connection.queue.closed ∧
      queue.signal = connection.queue.signal)
    (hticket : connection.queue.nextTicket ≤ queue.nextTicket) :
    Amendment connection.docket
      (continueWith { connection with queue } id (next (.error error))).docket := by
  obtain ⟨hitems, hclosed, hsignal⟩ := hqueue
  refine amendment_of_resumes hcall (.refuse hprogress hcancelled hdisposed) hticket
    (by simp [Call.ticket?, hprogress]) ?_
  rw [filter_of_running hprogress, continueWith, modifyCall, ← modify_eq_set hcall
    fun call => { call with progress := .running (next (.error error)) }]
  simp only [docket, hitems, hclosed, hsignal]

/-- **The errors with which a request is refused** outright. -/
lemma entitled_of_refusal? {request : Bytes} {error : Error}
    (hrefusal : refusal? connection call request = some error) :
    (error = .cancelled → call.cancelled = true) ∧
      (error = .disposed → connection.docket.Stopping) := by
  simp only [refusal?] at hrefusal
  split_ifs at hrefusal with hdisposed hempty
  · rw [← Option.some.inj hrefusal]
    refine ⟨by simp, fun _ => .inr (.inl ?_)⟩
    simpa [isDisposed, docket] using hdisposed
  · rw [← Option.some.inj hrefusal]
    exact ⟨by simp, by simp⟩
  · obtain ⟨reason, hfired, rfl⟩ := Option.map_eq_some_iff.mp hrefusal
    rcases fired?_cases hfired with ⟨rfl, hcancelled⟩ | ⟨rfl, hshutdown⟩ | ⟨rfl, habandoned⟩
    · exact ⟨fun _ => hcancelled, by simp [CancelReason.error]⟩
    · exact ⟨by simp [CancelReason.error], fun _ => .inl hshutdown⟩
    · exact absurd habandoned Bool.false_ne_true

lemma amendment_of_invoke {request : Bytes} {complete : Bytes → Bool}
    {next : Result Bytes → Operation α} (hcall : connection.calls[id]? = some call)
    (hprogress : call.progress = .running (.invoke request complete next)) :
    Amendment connection.docket
      (invoke connection id call request complete next).docket := by
  rw [invoke]
  split
  · rename_i error hrefusal
    obtain ⟨hcancelled, hdisposed⟩ := entitled_of_refusal? hrefusal
    exact amendment_of_refusal connection.queue hcall hprogress hcancelled hdisposed
      ⟨rfl, rfl, rfl⟩ (Nat.le_refl _)
  · cases hclosed : connection.queue.closed with
    | true =>
        have hpush : connection.queue.push id request complete
            = (none, { connection.queue with nextTicket := connection.queue.nextTicket + 1 }) := by
          simp [Queue.push, hclosed]
        rw [hpush]
        exact amendment_of_refusal _ hcall hprogress (by simp) (fun _ => .inr (.inr (.inl hclosed)))
          ⟨rfl, rfl, rfl⟩ (Nat.le_succ _)
    | false =>
        have hpush : connection.queue.push id request complete
            = (some connection.queue.nextTicket, { connection.queue with
                items := connection.queue.items
                  ++ [⟨connection.queue.nextTicket, id, request, complete⟩]
                nextTicket := connection.queue.nextTicket + 1
                signal := connection.queue.signal.notify }) := by
          simp [Queue.push, hclosed]
        have hawake : connection.queue.signal.notify.waiter ≠ .waiting := by
          rw [Signal.notify]
          split
          · simp
          · rename_i hother
            exact fun hwaiting => hother hwaiting
        have haccepted : Amendment connection.docket _ := .accept hcall hprogress hclosed
        have hcalls := modify_eq_set hcall fun call =>
          { call with progress := .waiting connection.queue.nextTicket none next }
        rw [hpush, docket_note _ rfl]
        convert haccepted using 1
        simp [docket, modifyCall, hawake, hcalls]

/-- **A move of a call** is an amendment of the docket. -/
lemma amendment_of_step {c' : Connection σ α} (hstep : step? connection id = some c') :
    Amendment connection.docket c'.docket := by
  rw [step?] at hstep
  split at hstep
  · simp at hstep
  · rename_i call hcall
    split at hstep
    · rename_i outcome hprogress
      exact Option.some.inj hstep ▸ amendment_of_proceed hcall hprogress (by simp) (by simp) rfl
    · rename_i unit pdu next hprogress
      rw [← Option.some.inj hstep]
      exact amendment_of_proceed hcall hprogress (by simp) (by simp) rfl
    · rename_i request complete next hprogress
      exact Option.some.inj hstep ▸ amendment_of_invoke hcall hprogress
    · rename_i ticket result next hprogress
      exact Option.some.inj hstep ▸ amendment_of_leave hcall hprogress .reply
    · rename_i ticket next hprogress
      split_ifs at hstep with hcancelled hshutdown
      · exact Option.some.inj hstep ▸ amendment_of_leave hcall hprogress (.cancelled hcancelled)
      · exact Option.some.inj hstep ▸ amendment_of_leave hcall hprogress (.disposed hshutdown)
    · simp at hstep
    · simp at hstep

lemma amendment_of_cancel (connection : Connection σ α) (id : Nat) :
    Amendment connection.docket (cancel connection id).docket := by
  cases hcall : connection.calls[id]? with
  | none =>
      have hsame : (cancel connection id).docket = connection.docket := by
        simp only [cancel, modifyCall, docket, List.modify_eq_set_getElem?, hcall]
        rfl
      rw [hsame]
      exact .rest
  | some call =>
      have hcancelled : (cancel connection id).docket = { connection.docket with
          calls := connection.calls.set id { call with cancelled := true } } := by
        rw [← modify_eq_set hcall fun call => { call with cancelled := true }]
        rfl
      rw [hcancelled]
      exact .cancel hcall

lemma amendment_of_drop (connection : Connection σ α) (id : Nat) :
    Amendment connection.docket (drop connection id).docket := by
  rw [drop]
  split
  · exact .rest
  · rename_i call hcall
    simp only
    split
    · rename_i operation hprogress
      refine amendment_of_resumes hcall (.drop (by simp [Call.isOver, hprogress])) (Nat.le_refl _)
        (by simp [Call.ticket?, hprogress]) ?_
      rw [filter_of_running hprogress,
        ← modify_eq_set hcall fun call => { call with progress := .dropped }]
      rfl
    · rename_i ticket reply next hprogress
      exact amendment_of_end hcall hprogress (.drop (by simp [Call.isOver, hprogress]))
        (.abandoned (by simp [Call.ticket?, hprogress])) rfl
    · exact .rest
    · exact .rest

end Caller

/-! ## Every happening -/

lemma amendment_of_action [Peer σ] (connection : Connection σ α) (action : Action α) :
    Amendment connection.docket (connection.step action).docket := by
  have hdone {later : Option (Connection σ α)}
      (hlater : ∀ after, later = some after → Amendment connection.docket after.docket) :
      Amendment connection.docket (later.getD connection).docket := by
    cases later with
    | none => exact .rest
    | some after => exact hlater after rfl
  have hother {later : Connection σ α} (hlater : Amendment connection.docket later.docket) :
      Amendment connection.docket
        (if connection.worker.isRunning then connection else later).docket := by
    split_ifs
    · exact .rest
    · exact hlater
  cases action with
  | worker => exact hdone fun after hafter => Worker.amendment_of_step hafter
  | timer wakeup =>
      exact hother (hdone fun after hafter => IdleTimer.docket_of_step hafter ▸ .rest)
  | caller id => exact hother (hdone fun after hafter => Caller.amendment_of_step hafter)
  | disposing => exact hother (hdone fun after hafter => Disposing.amendment_of_step hafter)
  | start operation cancelled => exact hother (.start operation cancelled)
  | cancel id => exact hother (Caller.amendment_of_cancel connection id)
  | drop id => exact hother (Caller.amendment_of_drop connection id)
  | dispose => exact hother (Disposing.amendment_of_begin connection)
  | push chunk => exact hother .rest
  | refuse count => exact hother .rest
  | slow delay => exact hother .rest
  | advance now =>
      refine hother ?_
      rw [advance]
      split_ifs
      · exact .rest
      · exact .rest

lemma amendment_of_whim (connection : Connection σ α) (whim : Whim) :
    Amendment connection.docket (connection.indulge whim).docket := by
  have hindulged := connection.indulged whim
  generalize connection.indulge whim = after at hindulged ⊢
  cases hindulged with
  | unheeded => exact .rest
  | stalled until_ hworker =>
      exact Worker.amendment_of_read _ _ (by rw [hworker]; rfl) rfl rfl
  | resumed hworker hclear =>
      exact Worker.amendment_of_read _ _ (by rw [hworker]; rfl) rfl rfl
  | unopened fault hworker hclear =>
      exact Worker.amendment_of_failed _ fault (by rw [hworker]; rfl) rfl
  | failed fault hworker hclear =>
      exact Worker.amendment_of_result _ _ (by rw [hworker]; rfl) rfl rfl rfl
        (Worker.earned_of_fault _ _ _)
  | lost => exact .rest

/-- **One happening is one amendment of the docket**, over any link. -/
theorem amendment_of_happening [Peer σ] (connection : Connection σ α) (happening : Happening α) :
    Amendment connection.docket (connection.happen happening).docket := by
  cases happening with
  | act action => exact amendment_of_action connection action
  | whim whim => exact amendment_of_whim connection whim

/-- **What every amendment keeps, every run keeps**, if all that happens in it amends the docket. -/
theorem docket_induction {move : Connection σ α → Happening α → Connection σ α}
    (hmove : ∀ connection happening, Amendment connection.docket (move connection happening).docket)
    {motive : Docket α → Prop} (hamendment : ∀ d d', motive d → Amendment d d' → motive d') :
    ∀ (happenings : List (Happening α)) (connection : Connection σ α),
      motive connection.docket → motive (happenings.foldl move connection).docket
  | [], _, h => h
  | happening :: happenings, connection, h =>
      docket_induction hmove hamendment happenings (move connection happening)
        (hamendment _ _ h (hmove connection happening))

end Modbus.Connection
