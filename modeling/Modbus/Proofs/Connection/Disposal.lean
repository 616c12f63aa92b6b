import Modbus.Proofs.Connection.Retirement

/-!
# Disposal is final

What a disposal comes to (`final_of_run`), put together from what becomes of the worker, the idle
timer and the link (`Retired`, `Unsent`) and from what is owed to the callers (`Docket.Accounts`).
Two more facts are needed.  A disposal does not get stuck: wherever a connection that is to stop
comes to rest, its disposal is finished (`finished_of_settled`).  And whoever waited when it began
comes to a result that says so, unless it had one by then or had cancelled (`fate_of_wound`).

The second rests on what the worker does when it wakes up: it looks at the marks of its request
before it looks at what the link has for it.  So after a disposal has begun, what the link still
answers is not looked at (`Wound.of_whim`).
-/

namespace Modbus.Connection

variable {σ α : Type} {connection : Connection σ α}

/-! ## No disposal gets stuck -/

lemma disposal_waits_of_settled [Peer σ] (hsettled : connection.isSettled = true) :
    Disposing.step? connection = none := by
  rw [isSettled, Option.isNone_iff_eq_none, taskStep?, Option.orElse_eq_none,
    Option.orElse_eq_none, Option.orElse_eq_none] at hsettled
  exact hsettled.2.2.2

/-- At rest the worker of a connection that is to stop has stopped. -/
lemma stopped_of_settled [Peer σ] (hsettled : connection.isSettled = true)
    (hshutdown : connection.shutdown = true) : connection.worker = .stopped := by
  have hworker := worker_waits_of_settled hsettled
  have hinterrupted (item : Queued) : ∃ error, connection.interruption? item = some error :=
    interrupted_of_shutdown hshutdown item
  cases hstage : connection.worker with
  | stopped => rfl
  | fetching => simp [Worker.step?, hstage, Worker.fetch?, hshutdown] at hworker
  | guarding until_ => simp [Worker.step?, hstage, hshutdown] at hworker
  | fetched item =>
      obtain ⟨error, hinterruption⟩ := hinterrupted item
      simp [Worker.step?, hstage, hinterruption] at hworker
  | awaitingLink item =>
      obtain ⟨error, hinterruption⟩ := hinterrupted item
      simp [Worker.step?, hstage, hinterruption] at hworker
  | opening item attempts opensAt expiresAt =>
      obtain ⟨error, hinterruption⟩ := hinterrupted item
      simp [Worker.step?, hstage, Worker.resumeExchange, hinterruption] at hworker
  | backingOff item attempts until_ =>
      obtain ⟨error, hinterruption⟩ := hinterrupted item
      simp [Worker.step?, hstage, Worker.resumeExchange, hinterruption] at hworker
  | stalled item received expiresAt =>
      obtain ⟨error, hinterruption⟩ := hinterrupted item
      simp [Worker.step?, hstage, Worker.resumeExchange, hinterruption] at hworker
  | linked item =>
      simp only [Worker.step?, hstage] at hworker
      split_ifs at hworker
  | attempting item attempts => simp [Worker.step?, hstage] at hworker
  | sending item => simp [Worker.step?, hstage] at hworker
  | receiving item received => simp [Worker.step?, hstage] at hworker
  | concluding item result => simp [Worker.step?, hstage] at hworker
  | delivering item result => simp [Worker.step?, hstage] at hworker

/-- **With the worker stopped, the idle timer stops**: whoever has the link before it is about to hand
it on. -/
lemma timer_stopped_of_settled [Peer σ] (hline : InLine connection.custody)
    (hsettled : connection.isSettled = true) (hshutdown : connection.shutdown = true)
    (hworker : connection.worker = .stopped) (hdisposal : connection.disposal ≠ .awaitingLink) :
    connection.timer = .stopped := by
  have htimer := timer_waits_of_settled hsettled
  cases hwatch : connection.timer with
  | stopped => rfl
  | looking => simpa [IdleTimer.step?, hwatch] using htimer .shutdown
  | watching deadline =>
      simpa [IdleTimer.step?, hwatch, IdleTimer.wake?, hshutdown] using htimer .shutdown
  | awaitingLink deadline =>
      have hin : Holder.idleTimer ∈ connection.link.line := (hline.wants .idleTimer).mpr ⟨_, hwatch⟩
      obtain ⟨holder, hholder⟩ := LinkLock.exists_holder hline.sound hin
      have hheld : connection.link.isHeldBy holder = true := beq_iff_eq.mpr hholder
      have hwants := (hline.wants holder).mp (LinkLock.mem_line_of_holder hholder)
      cases holder with
      | idleTimer => simpa [IdleTimer.step?, hwatch, hheld] using htimer .shutdown
      | disposal => exact absurd hwants hdisposal
      | worker => simp [Custody.Wants, custody, hworker, Stage.isInLine, Stage.exchanging?] at hwants

/-- **A disposal that has begun is finished** wherever the connection comes to rest. -/
lemma finished_of_settled [Peer σ] (hline : InLine connection.custody)
    (hretired : connection.custody.Retired) (hsettled : connection.isSettled = true)
    (hshutdown : connection.shutdown = true) (hbegun : connection.disposal ≠ .untouched) :
    connection.disposal = .finished := by
  have hstep := disposal_waits_of_settled hsettled
  have hworker := stopped_of_settled hsettled hshutdown
  cases hdisposal : connection.disposal with
  | finished => rfl
  | untouched => exact absurd hdisposal hbegun
  | joiningWorker => simp [Disposing.step?, hdisposal, hworker] at hstep
  | joiningTimer =>
      have htimer := timer_stopped_of_settled hline hsettled hshutdown hworker (by simp [hdisposal])
      simp [Disposing.step?, hdisposal, htimer] at hstep
  | awaitingLink =>
      have hin : Holder.disposal ∈ connection.link.line := (hline.wants .disposal).mpr hdisposal
      obtain ⟨holder, hholder⟩ := LinkLock.exists_holder hline.sound hin
      have hheld : connection.link.isHeldBy holder = true := beq_iff_eq.mpr hholder
      have hwants := (hline.wants holder).mp (LinkLock.mem_line_of_holder hholder)
      have htimer : connection.timer = .stopped :=
        (hretired.timer (by simp [custody, hdisposal, Disposal.joinedTimer])).1
      cases holder with
      | disposal => simp [Disposing.step?, hdisposal, hheld] at hstep
      | idleTimer => simp [Custody.Wants, custody, htimer] at hwants
      | worker => simp [Custody.Wants, custody, hworker, Stage.isInLine, Stage.exchanging?] at hwants

/-! ## What the waiting calls come to -/

/-- **A connection that is to stop, with nothing to deliver** but that it is to stop. -/
structure Wound (connection : Connection σ α) : Prop where
  shutdown : connection.shutdown = true
  winding : connection.worker.isWinding = true
  reading : ∀ item received, connection.worker ≠ .receiving item received
  ended : ∀ item result, (phase connection.worker).item? = some item →
    (phase connection.worker).result? = some result →
      ∃ error, result = .error error ∧ connection.docket.Interrupted item error

namespace Wound

/-- Nobody but the worker and the link moves the worker. -/
lemma of_same [Peer σ] (h : Wound connection) (haccounts : connection.docket.Accounts)
    (happening : Happening α)
    (hsame : (connection.happen happening).worker = connection.worker) :
    Wound (connection.happen happening) := by
  have honward := (amendment_of_happening connection happening).onward
  refine ⟨honward.shutdown h.shutdown, hsame ▸ h.winding, hsame ▸ h.reading,
    fun item result hitem hresult => ?_⟩
  rw [hsame] at hitem hresult
  obtain ⟨error, herror, hinterrupted⟩ := h.ended item result hitem hresult
  exact ⟨error, herror, hinterrupted.of_onward haccounts.tickets
    (Docket.mem_pending_of_item? hitem) honward⟩

/-- **A move of the worker** leaves it wound up. -/
lemma of_step [Peer σ] (h : Wound connection) (haccounts : connection.docket.Accounts) :
    Wound (connection.step .worker) := by
  cases hstep : Worker.step? connection with
  | none =>
      have hsame : connection.step .worker = connection := by simp [step, hstep]
      rw [hsame]
      exact h
  | some moved =>
      have hmoved : connection.step .worker = moved := by simp [step, hstep]
      rw [hmoved]
      have honward := (Worker.amendment_of_step hstep).onward
      have hunwinds := Worker.unwinds_of_step h.shutdown h.winding hstep
      refine ⟨honward.shutdown h.shutdown, hunwinds.isWinding, hunwinds.ne_receiving h.reading,
        fun item result hitem hresult => ?_⟩
      obtain ⟨hbefore, hcases⟩ := hunwinds.result h.reading hitem hresult
      have hinterrupted : ∃ error, result = .error error ∧
          connection.docket.Interrupted item error := by
        rcases hcases with hkept | ⟨error, herror, hinterruption⟩
        · exact h.ended item result hbefore hkept
        · exact ⟨error, herror, interrupted_of_interruption? hinterruption⟩
      obtain ⟨error, herror, hinterrupted⟩ := hinterrupted
      exact ⟨error, herror, hinterrupted.of_onward haccounts.tickets
        (Docket.mem_pending_of_item? hbefore) honward⟩

/-- What the link has for a request that is over is not looked at. -/
lemma of_whim [Peer σ] (h : Wound connection) (haccounts : connection.docket.Accounts)
    (whim : Whim) : Wound (connection.happen (.whim whim)) := by
  have hheedless (item : Queued) : connection.interruption? item ≠ none := by
    obtain ⟨error, hinterruption⟩ := interrupted_of_shutdown h.shutdown item
    simp [hinterruption]
  refine h.of_same haccounts _ ?_
  change (connection.indulge whim).worker = connection.worker
  have hindulged := connection.indulged whim
  generalize connection.indulge whim = after at hindulged ⊢
  cases hindulged with
  | unheeded => rfl
  | stalled until_ hworker => exact absurd hworker (h.reading _ _)
  | resumed hworker hclear => exact absurd hclear (hheedless _)
  | unopened fault hworker hclear => exact absurd hclear (hheedless _)
  | failed fault hworker hclear => exact absurd hclear (hheedless _)
  | lost => rfl

/-- **Every happening** leaves it wound up. -/
lemma of_happening [Peer σ] (h : Wound connection) (haccounts : connection.docket.Accounts)
    (happening : Happening α) : Wound (connection.happen happening) := by
  cases happening with
  | act action =>
      by_cases haction : action = .worker
      · subst haction
        exact h.of_step haccounts
      · exact h.of_same haccounts _ (worker_of_step connection haction)
  | whim whim => exact h.of_whim haccounts whim

/-- **When a disposal begins** the worker waits, so that it has no result in its hands. -/
lemma of_begin [Peer σ] (hwaits : connection.worker.isRunning = false)
    (huntouched : connection.disposal = .untouched) : Wound (connection.step .dispose) := by
  have hbegun : connection.step .dispose
      = { connection with disposal := .joiningWorker, shutdown := true } := by
    simp [step, hwaits, Disposing.begin, huntouched]
  rw [hbegun]
  refine ⟨rfl, isWinding_of_waits hwaits, fun item received hreading => ?_,
    fun item result hitem hresult => ?_⟩
  · simp only at hreading
    simp [hreading, Stage.isRunning] at hwaits
  · simp only at hresult
    cases hstage : connection.worker <;>
      simp [hstage, phase, Phase.result?, Stage.isRunning] at hresult hwaits

end Wound

/-- A call waits for a ticket in an invoke whose result goes to `next`. -/
def Awaits (ticket : Nat) (next : Result Bytes → Operation α) (call : Call α) : Prop :=
  ∃ reply, call.progress = .waiting ticket reply next

/-- **What a call may come to that waited when a disposal began**: the result that it had been handed
by then, that the connection is disposed of, or that it was cancelled, if its caller did that. -/
def Settles (decided : Option (Result Bytes)) (_ : Connection σ α) (call : Call α)
    (result : Result Bytes) : Prop :=
  decided = some result ∨ result = .error .disposed ∨
    (result = .error .cancelled ∧ call.cancelled = true)

/-- What an amendment does to a call that waits on a connection that is wound up. -/
lemma Wound.wait_cases {d' : Docket α} (h : Wound connection)
    (hamendment : Amendment connection.docket d')
    {id ticket : Nat} {call : Call α} {reply decided : Option (Result Bytes)}
    {next : Result Bytes → Operation α} (hcall : connection.calls[id]? = some call)
    (hprogress : call.progress = .waiting ticket reply next)
    (hsettles : ∀ result, reply = some result → Settles decided connection call result) :
    ∃ after, d'.calls[id]? = some after ∧
      ((∃ later, after.progress = .waiting ticket later next ∧
          ∀ result, later = some result → Settles decided connection after result) ∨
        (∃ result, after = { call with progress := .running (next result) } ∧
          Settles decided connection call result) ∨
        after = { call with progress := .dropped }) := by
  obtain ⟨after, hafter, halters⟩ := Docket.alters_of_amendment hamendment hcall
  refine ⟨after, hafter, ?_⟩
  cases halters with
  | same => exact .inl ⟨reply, hprogress, hsettles⟩
  | cancel =>
      refine .inl ⟨reply, hprogress, fun result hresult => ?_⟩
      exact (hsettles result hresult).imp_right fun h => h.imp_right fun hmark => ⟨hmark.1, rfl⟩
  | @hand own result later hwaiting hresult =>
      obtain ⟨rfl, rfl, rfl⟩ := Progress.waiting.inj (hprogress.symm.trans hwaiting)
      refine .inl ⟨some result, rfl, fun other hother => ?_⟩
      obtain rfl := Option.some.inj hother
      rcases hresult with ⟨item, hphase, rfl, rfl⟩ | ⟨hdisposed, -⟩
      · have hworker : phase connection.worker = .delivering item result := hphase
        obtain ⟨error, rfl, hinterrupted⟩ :=
          h.ended item result (by rw [hworker]; rfl) (by rw [hworker]; rfl)
        rcases hinterrupted.tells hcall (by rw [Call.ticket?, hprogress]) with
          ⟨rfl, hcancelled⟩ | ⟨rfl, -⟩
        · exact .inr (.inr ⟨rfl, hcancelled⟩)
        · exact .inr (.inl rfl)
      · exact .inr (.inl hdisposed)
  | resume hresumes =>
      cases hresumes with
      | proceed hrunning hother hafter' => cases hprogress.symm.trans hrunning
      | refuse hrunning hcancelled hdisposed => cases hprogress.symm.trans hrunning
      | @leave own handed later result hwaiting hresult =>
          obtain ⟨rfl, rfl, rfl⟩ := Progress.waiting.inj (hprogress.symm.trans hwaiting)
          refine .inr (.inl ⟨result, rfl, ?_⟩)
          cases hresult with
          | reply => exact hsettles result rfl
          | cancelled hcancelled => exact .inr (.inr ⟨rfl, hcancelled⟩)
          | disposed hshutdown => exact .inr (.inl rfl)
      | drop hover => exact .inr (.inr rfl)
  | accept hposed hpending => cases hprogress.symm.trans hposed

/-- **What a call comes to that waits on a connection that is wound up.** -/
lemma fate_of_wound [Peer σ] {id ticket : Nat} {decided : Option (Result Bytes)}
    {next : Result Bytes → Operation α} :
    ∀ (later : List (Happening α)) (connection : Connection σ α) (call : Call α)
      (reply : Option (Result Bytes)), Wound connection → connection.docket.Accounts →
        connection.calls[id]? = some call →
          call.progress = .waiting ticket reply next →
            (∀ result, reply = some result → Settles decided connection call result) →
              Fate happen connection id (Awaits ticket next) next (Settles decided) later
  | [], connection, call, reply, _, _, hcall, hprogress, hsettles => by
      refine .nil hcall ⟨reply, hprogress⟩ fun own result hwaiting => hsettles result ?_
      exact (Progress.waiting.inj (hprogress.symm.trans hwaiting)).2.1
  | happening :: later, connection, call, reply, hwound, haccounts, hcall, hprogress, hsettles => by
      have hamendment := amendment_of_happening connection happening
      obtain ⟨after, hafter, hcases⟩ :=
        hwound.wait_cases hamendment hcall hprogress hsettles
      rcases hcases with ⟨handed, hstill, hhanded⟩ | ⟨result, rfl, hresult⟩ | rfl
      · exact (fate_of_wound later _ after handed (hwound.of_happening haccounts happening)
          (haccounts.of_amendment hamendment) hafter hstill hhanded).cons
            ⟨call, hcall, reply, hprogress⟩
      · exact .return_now hcall ⟨reply, hprogress⟩ hafter hresult
      · exact .drop_now hcall ⟨reply, hprogress⟩ hafter

/-! ## Runs -/

/-- **What a finished disposal leaves**: a closed link, shown as closed, an empty queue that takes
nothing any more, no deadline, tasks that have stopped, and nobody who waits without a reply. -/
structure Disposed (connection : Connection σ α) : Prop where
  closed : connection.wire.connected = false
  shown : connection.state = .disconnected
  drained : connection.queue.items = []
  refusing : connection.queue.closed = true
  disarmed : connection.idleDeadline = none
  worker : connection.worker = .stopped
  timer : connection.timer = .stopped
  answered : ∀ id ticket, ¬ Unanswered connection.calls id ticket

/-- **A disposal is final.** -/
structure Final [Peer σ] (connection : Connection σ α) : Prop where
  /-- From the moment at which a disposal begins nothing is sent, and the link is not opened. -/
  unsent : connection.disposal ≠ .untouched → ∀ later : List (Happening α),
    ∃ events, wireEvents (connection.runOver later).history
        = wireEvents connection.history ++ events ∧
      .opened ∉ events ∧ ∀ frame, .sent frame ∉ events
  /-- It does not get stuck. -/
  finishes : connection.disposal ≠ .untouched → connection.isSettled = true →
    connection.disposal = .finished
  /-- Whoever waits when it begins comes to a result, and the result says so, unless there was one
  by then, or the call was cancelled. -/
  resolved : connection.disposal = .untouched → connection.worker.isRunning = false →
    ∀ (id : Nat) (call : Call α) (ticket : Nat) (reply : Option (Result Bytes))
      (next : Result Bytes → Operation α), connection.calls[id]? = some call →
        call.progress = .waiting ticket reply next →
          ∀ later,
            Fate happen (connection.step .dispose) id (Awaits ticket next) next (Settles reply) later
  disposed : connection.disposal = .finished → Disposed connection
  /-- It stays finished, and nothing happens on the link any more, nor is an attempt made to open it:
  what happens from then on happens to calls only. -/
  stays : connection.disposal = .finished → ∀ later : List (Happening α),
    (connection.runOver later).disposal = .finished ∧
      ∃ entries, (connection.runOver later).history = entries ++ connection.history ∧
        ∀ entry ∈ entries, isAside entry.occurrence = true
  /-- From the moment it begins, whoever hands over a request is told so, and nothing else changes. -/
  refuses : connection.disposal ≠ .untouched → connection.worker.isRunning = false →
    ∀ (id : Nat) (call : Call α) (request : Bytes) (complete : Bytes → Bool)
      (next : Result Bytes → Operation α), connection.calls[id]? = some call →
        call.progress = .running (.invoke request complete next) →
          connection.step (.caller id) = { connection with
            calls := connection.calls.set id
              { call with progress := .running (next (.error .disposed)) } }
  /-- Another disposal changes nothing. -/
  idempotent : connection.disposal ≠ .untouched → connection.step .dispose = connection

/-- What a finished disposal leaves, from what it has joined and what is accounted for. -/
lemma disposed_of_finished (haccounts : connection.docket.Accounts)
    (hretired : connection.custody.Retired) (hfinished : connection.disposal = .finished) :
    Disposed connection := by
  have hworker : connection.worker = .stopped :=
    hretired.worker (by simp [custody, hfinished, Disposal.joinedWorker])
  obtain ⟨htimer, hdisarmed⟩ : connection.timer = .stopped ∧ connection.idleDeadline = none :=
    hretired.timer (by simp [custody, hfinished, Disposal.joinedTimer])
  obtain ⟨hclosed, hshown⟩ :
      connection.wire.connected = false ∧ connection.state = .disconnected :=
    hretired.link hfinished
  have hrefusing : connection.queue.closed = true := haccounts.closing.closed.mpr (.inr hfinished)
  have hdrained : connection.queue.items = [] := haccounts.closing.drained hrefusing
  refine ⟨hclosed, hshown, hdrained, hrefusing, hdisarmed, hworker, htimer,
    fun id ticket howed => ?_⟩
  -- whoever waits without a reply is in the queue or with the worker
  obtain ⟨item, hitem, -⟩ := haccounts.owing id ticket howed
  simp [Docket.pending, docket, hworker, hdrained, phase, Phase.item?] at hitem

lemma begin_eq_of_begun (hbegun : connection.disposal ≠ .untouched) :
    Disposing.begin connection = connection := by
  unfold Disposing.begin
  split
  · rename_i huntouched
    exact absurd huntouched hbegun
  · rfl

lemma calls_begin (connection : Connection σ α) :
    (Disposing.begin connection).calls = connection.calls := by
  unfold Disposing.begin
  split <;> rfl

/-- **A disposal of a connection is final** whose callers are accounted for, whose link is held in
line, and whose worker winds up. -/
lemma final_of_accounts [Peer σ] (haccounts : connection.docket.Accounts)
    (hline : InLine connection.custody) (hretired : connection.custody.Retired)
    (hwinding : Winding connection) : Final connection where
  unsent hbegun later := Unsent.of_run later connection (haccounts.closing.shutdown hbegun) hwinding
  finishes hbegun hsettled :=
    finished_of_settled hline hretired hsettled (haccounts.closing.shutdown hbegun) hbegun
  resolved huntouched hwaits id call ticket reply next hcall hprogress later := by
    have hamendment : Amendment connection.docket (connection.step .dispose).docket :=
      amendment_of_action connection .dispose
    have hkept : (connection.step .dispose).calls[id]? = some call := by
      simpa [step, hwaits, calls_begin] using hcall
    exact fate_of_wound later _ call reply (.of_begin hwaits huntouched)
      (haccounts.of_amendment hamendment) hkept hprogress fun result hresult => .inl hresult
  disposed hfinished := disposed_of_finished haccounts hretired hfinished
  stays hfinished later := finished_of_run later connection hretired hfinished
  refuses hbegun hwaits id call request complete next hcall hprogress := by
    have hrefusal : Caller.refusal? connection call request = some .disposed := by
      simp [Caller.refusal?, isDisposed, hbegun]
    have hstep : Caller.step? connection id
        = some (Caller.continueWith connection id (next (.error .disposed))) := by
      simp [Caller.step?, hcall, hprogress, Caller.invoke, hrefusal]
    rw [← modify_eq_set hcall fun call => { call with progress := .running (next (.error .disposed)) }]
    simp only [step, hwaits, hstep, Option.getD_some, Bool.false_eq_true, if_false]
    rfl
  idempotent hbegun := by
    simp only [step, begin_eq_of_begun hbegun, ite_self]

/-- **In every state that a connection can come to, over any link, a disposal is final.** -/
theorem final_of_run [Peer σ] (name : String) (timing : Timing) (framing : Framing) (wire : Wire σ)
    (happenings : List (Happening α)) :
    Final ((create name timing framing wire).runOver happenings : Connection σ α) :=
  final_of_accounts (accounts_of_run name timing framing wire happenings)
    (InLine.of_run name timing framing wire happenings)
    (retired_of_run happenings _ ⟨nofun, nofun, nofun⟩) (Winding.of_run happenings _ nofun)

/-- A disposal that finds one request exchanged and another one queued. -/
example :
    let ask (frame : Bytes) : Operation Bytes := .invoke frame (fun bytes => !bytes.isEmpty) .done
    let initial : Connection Responder Bytes :=
      create "link" .network .rtu { peer := .script [[], [[0x0B]]] }
    let settles (count : Nat) : List (Action Bytes) := List.replicate count .worker
    let reached := initial.run (
      [.timer .shutdown, .start (ask [0x0A]) false, .start (ask [0x0B]) false, .caller 0, .caller 1]
        ++ settles 6 ++ [.dispose] ++ settles 4 ++ [.disposing, .timer .shutdown, .disposing, .disposing,
        .caller 0, .caller 0, .caller 1, .caller 1])
    reached.disposal = .finished ∧ reached.wire.connected = false ∧
      (List.range 2).map reached.outcome? = [some (.error .disposed), some (.error .disposed)] ∧
      wireEvents reached.history = [.opened, .sent [0x0A], .closed] := by
  cbv

end Modbus.Connection
