import Modbus.Proofs.Connection.Accounts
import Modbus.Proofs.Result

/-!
# What callers see of a run

A caller sees little of a connection: how far its own call has come, the frames that were made for
it, and what the history tells of calls.  `Roll` keeps that for all calls, and `Update` lists
everything that one happening can do to it, whatever the link does (`update_of_happening`).

Where an `Amendment` says what a call may do, an update says exactly what it does, since a call goes
on only by its own moves: a frame is the one that the codec makes, a result is the one that the call
was handed, and everything that is told is told in the order in which it happens.  What the worker
hands over comes from the link, and so does not tell of an exception reply unless it is bytes
(`Docket.Earned.plain`).
-/

namespace Modbus.Connection

variable {σ α : Type} {connection : Connection σ α}

/-! ## Rolls -/

/-- Whether an entry of the history tells of a call. -/
def tellsOfCall : Occurrence → Bool
  | .accepted _ _ | .delivered _ _ | .returned _ _ | .abandoned _ => true
  | _ => false

/-- **The calls, and what is told of them**, oldest first. -/
structure Roll (α : Type) where
  codec : Codec
  nextTicket : Nat
  calls : List (Call α)
  told : List Occurrence

/-- The roll of a connection. -/
def roll (connection : Connection σ α) : Roll α where
  codec := connection.codec
  nextTicket := connection.queue.nextTicket
  calls := connection.calls
  told := (occurrences connection.history).filter tellsOfCall

/-- **Everything that one happening can do to a roll.** -/
inductive Update : Roll α → Roll α → Prop where
  | rest {r : Roll α} : Update r r
  | deliver {r : Roll α} {item : Queued} {result : Result Bytes} (hplain : Result.Plain result) :
      Update r { r with
        calls := r.calls.modify item.call (Call.handed item.ticket result)
        told := r.told ++ [.delivered item.ticket result] }
  /-- A disposal refuses what is queued. -/
  | refuseQueued {r : Roll α} (items : List Queued) :
      Update r { r with
        calls := items.foldl (fun calls item =>
          calls.modify item.call (Call.handed item.ticket (.error .disposed))) r.calls }
  | start {r : Roll α} (operation : Operation α) (cancelled : Bool) :
      Update r { r with calls := r.calls ++ [⟨cancelled, .running operation⟩] }
  | cancel {r : Roll α} {id : Nat} {call : Call α} (hcall : r.calls[id]? = some call) :
      Update r { r with calls := r.calls.set id { call with cancelled := true } }
  | finish {r : Roll α} {id : Nat} {call : Call α} {outcome : Result α}
      (hcall : r.calls[id]? = some call) (hprogress : call.progress = .running (.done outcome)) :
      Update r { r with calls := r.calls.set id { call with progress := .finished outcome } }
  | frame {r : Roll α} {id : Nat} {call : Call α} {unit : UnitId} {pdu : Bytes}
      {next : Bytes → Operation α} (hcall : r.calls[id]? = some call)
      (hprogress : call.progress = .running (.frame unit pdu next)) :
      Update r { r with
        codec := (r.codec.request unit pdu).2
        calls := r.calls.set id
          { call with progress := .running (next (r.codec.request unit pdu).1) } }
  /-- A request is refused; it may have used up a ticket. -/
  | refuse {r : Roll α} {id nextTicket : Nat} {call : Call α} {request : Bytes}
      {complete : Bytes → Bool} {next : Result Bytes → Operation α} {error : Error}
      (hcall : r.calls[id]? = some call)
      (hprogress : call.progress = .running (.invoke request complete next))
      (hplain : error.exceptionCode? = none) (hticket : r.nextTicket ≤ nextTicket) :
      Update r { r with
        nextTicket
        calls := r.calls.set id { call with progress := .running (next (.error error)) } }
  | accept {r : Roll α} {id : Nat} {call : Call α} {request : Bytes} {complete : Bytes → Bool}
      {next : Result Bytes → Operation α} (hcall : r.calls[id]? = some call)
      (hprogress : call.progress = .running (.invoke request complete next)) :
      Update r { r with
        nextTicket := r.nextTicket + 1
        calls := r.calls.set id { call with progress := .waiting r.nextTicket none next }
        told := r.told ++ [.accepted r.nextTicket id] }
  /-- A wait ends, with the result that is there or without one. -/
  | leave {r : Roll α} {id ticket : Nat} {call : Call α} {reply : Option (Result Bytes)}
      {next : Result Bytes → Operation α} {result : Result Bytes}
      (hcall : r.calls[id]? = some call) (hprogress : call.progress = .waiting ticket reply next)
      (hresult : reply = some result ∨ Result.Plain result) :
      Update r { r with
        calls := r.calls.set id { call with progress := .running (next result) }
        told := r.told ++ [.returned ticket result] }
  | drop {r : Roll α} {id : Nat} {call : Call α} {told : List Occurrence}
      (hcall : r.calls[id]? = some call)
      (htold : told = r.told ∨ ∃ ticket, told = r.told ++ [.abandoned ticket]) :
      Update r { r with calls := r.calls.set id { call with progress := .dropped }, told }

/-! ## Rolls of changed connections -/

lemma roll_note (connection : Connection σ α) (occurrence : Occurrence) :
    (connection.note occurrence).roll
      = { connection.roll with
          told := connection.roll.told ++ [occurrence].filter tellsOfCall } := by
  simp [note, roll, occurrences]

lemma roll_foldl_note : ∀ (events : List Wire.Event) (connection : Connection σ α),
    (events.foldl (fun connection event => connection.note (.wire event)) connection).roll
      = connection.roll
  | [], _ => rfl
  | event :: events, connection => by
      rw [List.foldl_cons, roll_foldl_note events, roll_note]
      simp [tellsOfCall]

/-- No call is told of what happens on the link. -/
lemma roll_perform {β : Type} (connection : Connection σ α) (performed : Wire.Performed σ β) :
    (connection.perform performed).roll = connection.roll :=
  roll_foldl_note performed.events _

lemma roll_closeLink (connection : Connection σ α) :
    connection.closeLink.roll = connection.roll :=
  roll_perform connection connection.wire.close

lemma calls_deliver (connection : Connection σ α) (item : Queued) (result : Result Bytes) :
    (connection.deliver item result).calls
      = connection.calls.modify item.call (Call.handed item.ticket result) :=
  congrArg Docket.calls (docket_deliver connection item result)

/-! ## The worker -/

namespace Worker

variable {item : Queued}

lemma roll_of_failed (connection : Connection σ α) (item : Queued) (attempts : Attempts)
    (fault : TransportFault) :
    (attemptFailed connection item attempts fault).roll = connection.roll := by
  rw [attemptFailed]
  split <;> rfl

lemma roll_of_ended (connection : Connection σ α) (item : Queued) (attempts : Attempts) :
    (attemptEnded connection item attempts).roll = connection.roll := by
  rcases attemptEnded_cases connection item attempts with ⟨-, -, hopened⟩ | ⟨fault, -, hfailed⟩
  · rw [hopened]
    exact roll_perform _ _
  · rw [hfailed, roll_of_failed, roll_perform]

lemma roll_of_begun (connection : Connection σ α) (item : Queued) (attempts : Attempts) :
    (beginAttempt connection item attempts).roll = connection.roll := by
  have hnoted : ((connection.perform connection.wire.close).note .attempted).roll
      = connection.roll := by
    rw [roll_note, roll_perform]
    simp [tellsOfCall]
  simp only [beginAttempt]
  split_ifs
  · rw [roll_of_ended, hnoted]
  · exact hnoted

lemma roll_of_resume {continue_ : Option (Connection σ α)} {c' : Connection σ α}
    (hcontinue : ∀ after, continue_ = some after → after.roll = connection.roll)
    (hstep : resumeExchange connection item continue_ = some c') : c'.roll = connection.roll := by
  rw [resumeExchange] at hstep
  split at hstep
  · exact Option.some.inj hstep ▸ rfl
  · exact hcontinue c' hstep

lemma roll_of_fetch {c' : Connection σ α} (hstep : fetch? connection = some c') :
    c'.roll = connection.roll := by
  rw [fetch?] at hstep
  split_ifs at hstep
  · exact Option.some.inj hstep ▸ rfl
  · have hpoll : connection.queue.poll.2.nextTicket = connection.queue.nextTicket := by
      rw [Queue.poll]
      split <;> rfl
    split at hstep
    all_goals
      rename_i queue hqueue
      rw [hqueue] at hpoll
      rw [← Option.some.inj hstep]
      exact congrArg (fun nextTicket => { connection.roll with nextTicket }) hpoll

lemma roll_of_send [Peer σ] (connection : Connection σ α) (item : Queued) :
    (send connection item).roll = connection.roll := by
  simp only [send]
  split <;> exact roll_perform _ _

lemma roll_of_receive (connection : Connection σ α) (item : Queued) (received : Bytes) :
    (receive connection item received).roll = connection.roll := by
  simp only [receive]
  split
  · exact roll_perform _ _
  · exact roll_perform _ _
  · exact roll_perform _ _
  · split_ifs <;> exact roll_perform _ _

lemma roll_of_conclude (connection : Connection σ α) (item : Queued) (result : Result Bytes) :
    (conclude connection item result).roll = connection.roll := by
  cases result with
  | ok reply => rfl
  | error error =>
      simp only [conclude]
      split_ifs
      · exact roll_closeLink connection
      · rfl

/-- **The worker does nothing to a call** but hand its result over. -/
lemma roll_of_step [Peer σ] {c' : Connection σ α} (hstep : step? connection = some c') :
    c'.roll = connection.roll ∨ ∃ item result, connection.worker = .delivering item result ∧
      c'.roll = { connection.roll with
        calls := connection.roll.calls.modify item.call (Call.handed item.ticket result)
        told := connection.roll.told ++ [.delivered item.ticket result] } := by
  cases hworker : connection.worker with
  | delivering item result =>
      simp only [step?, hworker, Option.some.injEq] at hstep
      refine .inr ⟨item, result, rfl, ?_⟩
      have hmoved : c'.roll
          = ((connection.deliver item result).note (.delivered item.ticket result)).roll :=
        hstep ▸ rfl
      rw [hmoved, roll_note]
      simp only [roll, calls_deliver]
      rfl
  | fetching =>
      simp only [step?, hworker] at hstep
      exact .inl (roll_of_fetch hstep)
  | fetched item =>
      simp only [step?, hworker] at hstep
      split at hstep <;> exact .inl (Option.some.inj hstep ▸ rfl)
  | awaitingLink item =>
      simp only [step?, hworker] at hstep
      split at hstep
      · exact .inl (Option.some.inj hstep ▸ rfl)
      · split_ifs at hstep
        exact .inl (Option.some.inj hstep ▸ rfl)
  | linked item =>
      simp only [step?, hworker] at hstep
      split_ifs at hstep <;> exact .inl (Option.some.inj hstep ▸ rfl)
  | attempting item attempts =>
      simp only [step?, hworker, Option.some.injEq] at hstep
      exact .inl (hstep ▸ roll_of_begun connection item attempts)
  | opening item attempts opensAt expiresAt =>
      simp only [step?, hworker] at hstep
      refine .inl (roll_of_resume (fun after hafter => ?_) hstep)
      split_ifs at hafter
      · exact Option.some.inj hafter ▸ roll_of_ended connection item attempts
      · exact Option.some.inj hafter ▸ roll_of_failed connection item attempts _
  | backingOff item attempts until_ =>
      simp only [step?, hworker] at hstep
      refine .inl (roll_of_resume (fun after hafter => ?_) hstep)
      split_ifs at hafter
      exact Option.some.inj hafter ▸ rfl
  | sending item =>
      simp only [step?, hworker, Option.some.injEq] at hstep
      exact .inl (hstep ▸ roll_of_send connection item)
  | receiving item received =>
      simp only [step?, hworker, Option.some.injEq] at hstep
      exact .inl (hstep ▸ roll_of_receive connection item received)
  | stalled item received expiresAt =>
      simp only [step?, hworker] at hstep
      refine .inl (roll_of_resume (fun after hafter => ?_) hstep)
      split_ifs at hafter
      exact Option.some.inj hafter ▸ rfl
  | concluding item result =>
      simp only [step?, hworker, Option.some.injEq] at hstep
      exact .inl (hstep ▸ roll_of_conclude connection item result)
  | guarding until_ =>
      simp only [step?, hworker] at hstep
      split_ifs at hstep <;> exact .inl (Option.some.inj hstep ▸ rfl)
  | stopped => simp [step?, hworker] at hstep

end Worker

/-! ## The idle timer and a disposal -/

lemma IdleTimer.roll_of_step {wakeup : IdleTimer.Wakeup} {c' : Connection σ α}
    (hstep : IdleTimer.step? connection wakeup = some c') : c'.roll = connection.roll := by
  cases htimer : connection.timer with
  | looking =>
      simp only [IdleTimer.step?, htimer] at hstep
      exact Option.some.inj hstep ▸ rfl
  | watching deadline =>
      simp only [IdleTimer.step?, htimer] at hstep
      cases wakeup with
      | shutdown =>
          simp only [IdleTimer.wake?] at hstep
          split_ifs at hstep
          exact Option.some.inj hstep ▸ rfl
      | rearmed =>
          simp only [IdleTimer.wake?] at hstep
          split_ifs at hstep
          exact Option.some.inj hstep ▸ rfl
      | deadline =>
          cases deadline with
          | none => simp [IdleTimer.wake?] at hstep
          | some deadline =>
              simp only [IdleTimer.wake?] at hstep
              split_ifs at hstep
              exact Option.some.inj hstep ▸ rfl
  | awaitingLink deadline =>
      simp only [IdleTimer.step?, htimer] at hstep
      split_ifs at hstep
      have hexpired : (IdleTimer.expire connection deadline).roll = connection.roll := by
        rw [IdleTimer.expire]
        split_ifs
        · rw [roll_closeLink, roll_note]
          simp [tellsOfCall, roll]
        · rfl
        · rfl
      rw [← hexpired, ← Option.some.inj hstep]
      rfl
  | stopped => simp [IdleTimer.step?, htimer] at hstep

namespace Disposing

lemma roll_foldl_deliver (result : Result Bytes) :
    ∀ (items : List Queued) (connection : Connection σ α),
      (items.foldl (fun connection item => connection.deliver item result) connection).roll
        = { connection.roll with
            calls := items.foldl (fun calls item =>
              calls.modify item.call (Call.handed item.ticket result)) connection.roll.calls }
  | [], _ => rfl
  | item :: items, connection => by
      rw [List.foldl_cons, roll_foldl_deliver result items]
      simp only [roll, calls_deliver, List.foldl_cons]
      rfl

lemma update_of_step {c' : Connection σ α} (hstep : step? connection = some c') :
    Update connection.roll c'.roll := by
  cases hdisposal : connection.disposal with
  | joiningWorker =>
      simp only [step?, hdisposal] at hstep
      split at hstep
      · exact Option.some.inj hstep ▸ .rest
      · simp at hstep
  | joiningTimer =>
      simp only [step?, hdisposal] at hstep
      split at hstep
      · have hroll : c'.roll = (refuseQueued connection).roll := by
          rw [← Option.some.inj hstep]
          rfl
        rw [hroll, refuseQueued, Queue.close, roll_foldl_deliver]
        exact .refuseQueued connection.queue.items
      · simp at hstep
  | awaitingLink =>
      simp only [step?, hdisposal] at hstep
      split_ifs at hstep
      have hroll : c'.roll = connection.closeLink.roll := by
        rw [← Option.some.inj hstep]
        rfl
      rw [hroll, roll_closeLink]
      exact .rest
  | untouched => simp [step?, hdisposal] at hstep
  | finished => simp [step?, hdisposal] at hstep

end Disposing

/-! ## Calls -/

namespace Caller

variable {id : Nat} {call : Call α}

/-- A call that is there, changed. -/
lemma roll_modifyCall {later : Connection σ α} (hcall : connection.calls[id]? = some call)
    (change : Call α → Call α) (hcalls : later.calls = connection.calls) :
    (later.modifyCall id change).roll
      = { later.roll with calls := connection.roll.calls.set id (change call) } := by
  simp only [modifyCall, roll, hcalls, modify_eq_set hcall]

lemma update_of_leave {ticket : Nat} {reply : Option (Result Bytes)}
    {next : Result Bytes → Operation α} {result : Result Bytes}
    (hcall : connection.calls[id]? = some call)
    (hprogress : call.progress = .waiting ticket reply next)
    (hresult : reply = some result ∨ Result.Plain result) :
    Update connection.roll (leave connection id ticket result next).roll := by
  have hroll : (leave connection id ticket result next).roll
      = ((continueWith connection id (next result)).note (.returned ticket result)).roll := rfl
  rw [hroll, roll_note, continueWith, roll_modifyCall hcall _ rfl]
  exact .leave hcall hprogress hresult

/-- A request is refused with an error that no device gave. -/
lemma plain_of_refusal? {request : Bytes} {error : Error}
    (hrefusal : refusal? connection call request = some error) : error.exceptionCode? = none := by
  simp only [refusal?] at hrefusal
  split_ifs at hrefusal
  · exact Option.some.inj hrefusal ▸ rfl
  · exact Option.some.inj hrefusal ▸ rfl
  · obtain ⟨reason, -, rfl⟩ := Option.map_eq_some_iff.mp hrefusal
    cases reason <;> rfl

lemma update_of_invoke {request : Bytes} {complete : Bytes → Bool}
    {next : Result Bytes → Operation α} (hcall : connection.calls[id]? = some call)
    (hprogress : call.progress = .running (.invoke request complete next)) :
    Update connection.roll (invoke connection id call request complete next).roll := by
  rw [invoke]
  split
  · rename_i error hrefusal
    rw [continueWith, roll_modifyCall hcall _ rfl]
    exact .refuse hcall hprogress (plain_of_refusal? hrefusal) (Nat.le_refl _)
  · cases hclosed : connection.queue.closed with
    | true =>
        simp only [Queue.push, hclosed, if_true]
        rw [continueWith, roll_modifyCall hcall]
        · exact .refuse hcall hprogress rfl (Nat.le_succ _)
        · rfl
    | false =>
        simp only [Queue.push, hclosed, Bool.false_eq_true, if_false]
        rw [roll_note, roll_modifyCall hcall]
        · exact .accept hcall hprogress
        · rfl

/-- **A move of a call** is an update of the roll. -/
lemma update_of_step {c' : Connection σ α} (hstep : step? connection id = some c') :
    Update connection.roll c'.roll := by
  rw [step?] at hstep
  split at hstep
  · simp at hstep
  · rename_i call hcall
    split at hstep
    · rename_i outcome hprogress
      rw [← Option.some.inj hstep, roll_modifyCall hcall _ rfl]
      exact .finish hcall hprogress
    · rename_i unit pdu next hprogress
      rw [← Option.some.inj hstep, continueWith, roll_modifyCall hcall]
      · exact .frame hcall hprogress
      · rfl
    · rename_i request complete next hprogress
      exact Option.some.inj hstep ▸ update_of_invoke hcall hprogress
    · rename_i ticket result next hprogress
      exact Option.some.inj hstep ▸ update_of_leave hcall hprogress (.inl rfl)
    · rename_i ticket next hprogress
      split_ifs at hstep
      · exact Option.some.inj hstep ▸
          update_of_leave hcall hprogress (.inr (Result.plain_error rfl))
      · exact Option.some.inj hstep ▸
          update_of_leave hcall hprogress (.inr (Result.plain_error rfl))
    · simp at hstep
    · simp at hstep

lemma update_of_cancel (connection : Connection σ α) (id : Nat) :
    Update connection.roll (cancel connection id).roll := by
  cases hcall : connection.calls[id]? with
  | none =>
      have hsame : (cancel connection id).roll = connection.roll := by
        simp only [cancel, modifyCall, roll, List.modify_eq_set_getElem?, hcall]
        rfl
      rw [hsame]
      exact .rest
  | some call =>
      rw [cancel, roll_modifyCall hcall _ rfl]
      exact .cancel hcall

lemma update_of_drop (connection : Connection σ α) (id : Nat) :
    Update connection.roll (drop connection id).roll := by
  rw [drop]
  split
  · exact .rest
  · rename_i call hcall
    have hdropped := roll_modifyCall hcall (fun call => { call with progress := .dropped }) rfl
    simp only
    split
    · rw [hdropped]
      exact .drop hcall (.inl rfl)
    · rename_i ticket reply next hprogress
      have hroll : (({ connection.modifyCall id fun call => { call with progress := .dropped } with
          queue := connection.queue.remove ticket } : Connection σ α).note
            (.abandoned ticket)).roll
          = ((connection.modifyCall id fun call => { call with progress := .dropped }).note
              (.abandoned ticket)).roll := rfl
      rw [hroll, roll_note, hdropped]
      exact .drop hcall (.inr ⟨ticket, rfl⟩)
    · exact .rest
    · exact .rest

end Caller

/-! ## Every happening -/

/-- **What the worker has for a call** came from the link, or from a mark on the request. -/
lemma Docket.Earned.plain {d : Docket α} {item : Queued} {result : Result Bytes}
    (h : d.Earned item result) : Result.Plain result := by
  cases h with
  | complete _ => exact Result.plain_ok _
  | interrupted hinterrupted => cases hinterrupted <;> exact Result.plain_error rfl
  | failed _ _ hlink => exact Result.plain_error hlink

lemma update_of_action [Peer σ] (haccounts : connection.docket.Accounts) (action : Action α) :
    Update connection.roll (connection.step action).roll := by
  have hdone {later : Option (Connection σ α)}
      (hlater : ∀ after, later = some after → Update connection.roll after.roll) :
      Update connection.roll (later.getD connection).roll := by
    cases later with
    | none => exact .rest
    | some after => exact hlater after rfl
  have hother {later : Connection σ α} (hlater : Update connection.roll later.roll) :
      Update connection.roll
        (if connection.worker.isRunning then connection else later).roll := by
    split_ifs
    · exact .rest
    · exact hlater
  cases action with
  | worker =>
      refine hdone fun after hafter => ?_
      rcases Worker.roll_of_step hafter with hsame | ⟨item, result, hworker, hdelivered⟩
      · rw [hsame]
        exact .rest
      · have hearned : connection.docket.Earned item result :=
          haccounts.reasoned.earned item result (by simp [docket, hworker, phase, Phase.item?])
            (by simp [docket, hworker, phase, Phase.result?])
        rw [hdelivered]
        exact .deliver hearned.plain
  | timer wakeup =>
      refine hother (hdone fun after hafter => ?_)
      rw [IdleTimer.roll_of_step hafter]
      exact .rest
  | caller id => exact hother (hdone fun after hafter => Caller.update_of_step hafter)
  | disposing => exact hother (hdone fun after hafter => Disposing.update_of_step hafter)
  | start operation cancelled => exact hother (.start operation cancelled)
  | cancel id => exact hother (Caller.update_of_cancel connection id)
  | drop id => exact hother (Caller.update_of_drop connection id)
  | dispose =>
      refine hother ?_
      rw [Disposing.begin]
      split <;> exact .rest
  | push chunk => exact hother .rest
  | refuse count => exact hother .rest
  | slow delay => exact hother .rest
  | advance now =>
      refine hother ?_
      rw [advance]
      split_ifs <;> exact .rest

lemma roll_of_whim (connection : Connection σ α) (whim : Whim) :
    (connection.indulge whim).roll = connection.roll := by
  have hindulged := connection.indulged whim
  generalize connection.indulge whim = after at hindulged ⊢
  cases hindulged with
  | unopened fault hworker hclear => exact Worker.roll_of_failed _ _ _ _
  | _ => rfl

/-- **One happening is one update of the roll**, over any link. -/
theorem update_of_happening [Peer σ] (haccounts : connection.docket.Accounts)
    (happening : Happening α) : Update connection.roll (connection.happen happening).roll := by
  cases happening with
  | act action => exact update_of_action haccounts action
  | whim whim =>
      rw [happen, roll_of_whim]
      exact .rest

end Modbus.Connection
