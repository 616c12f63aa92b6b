import Modbus.Proofs.Connection.Custody
import Modbus.Proofs.Connection.WorkerMoves

/-!
# The shifts of a connection

Every happening is one shift of the custody (`shift_of_happening`), unless the link goes down by
itself.  The worker's shifts come first, stage by stage (`Worker.shift_of_step`), then those of the
idle timer, of a disposal and of the calls, which only add to the history, and last the whims of the
link.
-/

namespace Modbus.Connection

variable {σ α : Type} {connection : Connection σ α}

/-! ## Custodies of changed connections -/

lemma custody_foldl_note (events : List Wire.Event) (connection : Connection σ α) :
    (events.foldl (fun connection event => connection.note (.wire event)) connection).custody
      = connection.custody.notes events := by
  induction events generalizing connection with
  | nil => rfl
  | cons event events ih =>
      rw [List.foldl_cons, ih]
      simp [Custody.notes, custody, note]

/-- What an operation on the link does to the custody. -/
lemma custody_perform {β : Type} (connection : Connection σ α)
    (performed : Wire.Performed σ β) :
    (connection.perform performed).custody
      = { connection.custody.notes performed.events with
          connected := performed.wire.connected } := by
  rw [perform, custody_foldl_note]
  rfl

/-- An operation that neither opens the link nor closes it. -/
lemma custody_perform_kept {β : Type} (connection : Connection σ α)
    (performed : Wire.Performed σ β)
    (hkept : performed.wire.connected = connection.wire.connected) :
    (connection.perform performed).custody = connection.custody.notes performed.events := by
  rw [custody_perform, hkept]
  rfl

lemma custody_moveTo (connection : Connection σ α) (stage : Stage) :
    (Worker.moveTo connection stage).custody = { connection.custody with stage } := rfl

lemma custody_close (connection : Connection σ α) :
    (connection.perform connection.wire.close).custody = connection.custody.reset := by
  rw [custody_perform, Wire.close]
  split_ifs with hopen
  · simp [Custody.reset, custody, hopen]
  · simp [Custody.reset, custody, hopen]

lemma custody_closeLink (connection : Connection σ α) :
    connection.closeLink.custody = connection.custody.close :=
  congrArg (fun c : Custody => { c with state := .disconnected }) (custody_close connection)

/-! ## The worker -/

namespace Worker

variable {item : Queued}

/-- An attempt that failed, whether the link was asked or the time was over. -/
lemma attempted_of_failed {c : Custody} {events : List Wire.Event}
    (hevents : events = [] ∨ events = [.refused]) (hcustody : connection.custody = c.notes events)
    (attempts : Attempts) (fault : TransportFault) :
    Attempted item c (attemptFailed connection item attempts fault).custody := by
  rw [attemptFailed]
  split
  · rw [custody_moveTo, hcustody]
    exact .failed hevents
  · have hgaveUp : (moveTo { connection with state := .disconnected }
        (.concluding item (.error (.transport fault)))).custody
          = { connection.custody with
              state := .disconnected, stage := .concluding item (.error (.transport fault)) } := rfl
    rw [hgaveUp, hcustody]
    exact .gaveUp hevents

/-- A refused attempt leaves the link as it was. -/
lemma connected_of_refused {wire : Wire σ} (hevents : wire.open.events = [.refused]) :
    wire.open.wire.connected = wire.connected := by
  rw [Wire.open] at hevents ⊢
  split_ifs at hevents ⊢
  · simp at hevents
  · rfl

lemma attempted_of_ended (connection : Connection σ α) (item : Queued) (attempts : Attempts) :
    Attempted item connection.custody (attemptEnded connection item attempts).custody := by
  rcases attemptEnded_cases connection item attempts with ⟨hevents, hconnected, hopened⟩ |
    ⟨fault, hevents, hfailed⟩
  · have hcustody : (attemptEnded connection item attempts).custody
        = { (connection.perform connection.wire.open).custody with
            state := .connected, stage := .sending item } := by
      rw [hopened]
      rfl
    rw [hcustody, custody_perform, hevents, hconnected]
    exact .opened
  · rw [hfailed]
    refine attempted_of_failed (.inr rfl) ?_ attempts fault
    rw [custody_perform_kept _ _ (connected_of_refused hevents), hevents]

/-- An attempt begins with a link that is closed. -/
lemma attempted_of_begun (connection : Connection σ α) (item : Queued) (attempts : Attempts) :
    Attempted item (connection.custody.reset.note .attempted)
      (beginAttempt connection item attempts).custody := by
  have hnoted : ((connection.perform connection.wire.close).note .attempted).custody
      = connection.custody.reset.note .attempted :=
    congrArg (fun c : Custody => c.note .attempted) (custody_close connection)
  simp only [beginAttempt]
  rw [← hnoted]
  split_ifs
  · exact attempted_of_ended _ _ _
  · exact .opening

/-- **A wait with the link held**: an interruption ends the exchange. -/
lemma shift_of_resume {continue_ : Option (Connection σ α)} {c' : Connection σ α}
    (hexchanging : connection.worker.exchanging? = some item)
    (hpending : ∀ result, connection.worker ≠ .concluding item result)
    (hcontinue : ∀ after, continue_ = some after → Shift connection.custody after.custody)
    (hstep : resumeExchange connection item continue_ = some c') :
    Shift connection.custody c'.custody := by
  rw [resumeExchange] at hstep
  split at hstep
  · rename_i error hfired
    rw [Option.some.injEq] at hstep
    rw [← hstep, custody_moveTo]
    exact .fail hexchanging hpending (closes_of_interruption hfired) (.inl rfl)
  · exact hcontinue c' hstep

lemma shift_of_fetch {c' : Connection σ α} (hworker : connection.worker = .fetching)
    (hstep : fetch? connection = some c') : Shift connection.custody c'.custody := by
  have hbefore : connection.custody.stage.isAway = true := by simp [custody, hworker, Stage.isAway]
  rw [fetch?] at hstep
  split_ifs at hstep with hshutdown hwaiting
  · exact Option.some.inj hstep ▸ .away hbefore (.inl rfl) fun _ => .inr hshutdown
  · split at hstep
    · rw [← Option.some.inj hstep]
      exact .away hbefore (.inl rfl) (by simp)
    · exact Option.some.inj hstep ▸ .rest

/-- **A request is sent, or refused** by a link that is not open. -/
lemma custody_send [Peer σ] (connection : Connection σ α) (item : Queued) :
    (connection.wire.connected = true ∧ (send connection item).custody
        = { connection.custody.notes [.sent item.request] with stage := .receiving item [] }) ∨
      (connection.wire.connected = false ∧ (send connection item).custody
        = { connection.custody with
            stage := .concluding item (.error (.transport .notConnected)) }) := by
  have hcustody := custody_perform_kept connection (connection.wire.send item.request)
  cases hopen : connection.wire.connected with
  | true =>
      simp only [Wire.send, hopen, if_true, forall_const] at hcustody
      refine .inl ⟨rfl, ?_⟩
      simp only [send, Wire.send, hopen, if_true, custody_moveTo, hcustody]
  | false =>
      simp only [Wire.send, hopen, Bool.false_eq_true, if_false, forall_const] at hcustody
      refine .inr ⟨rfl, ?_⟩
      simp only [send, Wire.send, hopen, Bool.false_eq_true, if_false, custody_moveTo, hcustody]
      rfl

lemma shift_of_send [Peer σ] (hworker : connection.worker = .sending item) :
    Shift connection.custody (send connection item).custody := by
  rcases custody_send connection item with ⟨hopen, hsent⟩ | ⟨-, hrefused⟩
  · rw [hsent]
    exact .send hworker hopen
  · rw [hrefused]
    exact .fail (by simp [custody, hworker, Stage.exchanging?]) (by simp [custody, hworker]) rfl
      (.inl rfl)

lemma connected_receive (wire : Wire σ) (size : Nat) :
    (wire.receive size).wire.connected = wire.connected := by
  rw [Wire.receive]
  split_ifs
  · split <;> rfl
  · rfl

/-- What a read comes to: an error only over a closed link, and what was read is noted. -/
lemma receive_cases (wire : Wire σ) (size : Nat) :
    (∃ fault, (wire.receive size).result = .error fault ∧ (wire.receive size).events = []) ∨
      ((wire.receive size).result = .ok none ∧ (wire.receive size).events = []) ∨
      ∃ chunk, (wire.receive size).result = .ok (some chunk) ∧
        (wire.receive size).events = [.received chunk] ∧ wire.connected = true := by
  rw [Wire.receive]
  split_ifs with hopen
  · split
    · exact .inr (.inl ⟨rfl, rfl⟩)
    · exact .inr (.inr ⟨_, rfl, rfl, hopen⟩)
  · exact .inl ⟨_, rfl, rfl⟩

lemma shift_of_receive {received : Bytes} (hworker : connection.worker = .receiving item received) :
    Shift connection.custody (receive connection item received).custody := by
  have hstage : connection.custody.stage = .receiving item received := hworker
  have hexchanging : connection.custody.stage.exchanging? = some item := by
    simp [hstage, Stage.exchanging?]
  have hpending (result : Result Bytes) : connection.custody.stage ≠ .concluding item result := by
    simp [hstage]
  have hcustody := custody_perform_kept connection (connection.wire.receive Limit.readBuffer)
    (connected_receive _ _)
  simp only [receive]
  rcases receive_cases connection.wire Limit.readBuffer with ⟨fault, hresult, hevents⟩ |
    ⟨hresult, hevents⟩ | ⟨chunk, hresult, hevents, hopen⟩
  · rw [hevents] at hcustody
    simp only [hresult, custody_moveTo, hcustody]
    exact .fail hexchanging hpending rfl (.inl rfl)
  · rw [hevents] at hcustody
    simp only [hresult, custody_moveTo, hcustody]
    exact .read (.inl hstage) (.inr ⟨_, _, rfl⟩) (.inl rfl)
  · rw [hevents] at hcustody
    cases chunk with
    | nil =>
        simp only [hresult, custody_moveTo, hcustody]
        exact .fail hexchanging hpending rfl (.inr ⟨_, rfl⟩)
    | cons byte bytes =>
        simp only [hresult]
        split_ifs
        · rw [custody_moveTo, hcustody]
          exact .complete hstage hopen
        · rw [custody_moveTo, hcustody]
          exact .read (.inl hstage) (.inl ⟨_, rfl⟩) (.inr ⟨_, rfl⟩)

lemma shift_of_conclude {result : Result Bytes}
    (hworker : connection.worker = .concluding item result) :
    Shift connection.custody (conclude connection item result).custody := by
  cases result with
  | ok reply => exact .keep hworker
  | error error =>
      simp only [conclude]
      split_ifs with hcloses
      · have hcustody : (moveTo connection.closeLink.releaseLink
            (.delivering item (.error error))).custody
              = { connection.closeLink.custody with
                  link := connection.closeLink.custody.link.release
                  stage := .delivering item (.error error) } := rfl
        rw [hcustody, custody_closeLink]
        exact .drop hworker hcloses
      · exact .spare hworker (by simpa [Error.closesLink] using hcloses)

/-- **A move of the worker** is a shift of the custody. -/
lemma shift_of_step [Peer σ] {c' : Connection σ α} (hstep : step? connection = some c') :
    Shift connection.custody c'.custody := by
  cases hworker : connection.worker with
  | fetching =>
      simp only [step?, hworker] at hstep
      exact shift_of_fetch hworker hstep
  | fetched item =>
      simp only [step?, hworker] at hstep
      split at hstep
      · rw [← Option.some.inj hstep, custody_moveTo]
        exact .away (by simp [custody, hworker, Stage.isAway]) (.inr ⟨_, _, rfl⟩) (by simp)
      · exact Option.some.inj hstep ▸ .request hworker
  | awaitingLink item =>
      simp only [step?, hworker] at hstep
      split at hstep
      · exact Option.some.inj hstep ▸ .withdraw hworker
      · split_ifs at hstep with hheld
        exact Option.some.inj hstep ▸ .granted hworker hheld
  | linked item =>
      simp only [step?, hworker] at hstep
      split_ifs at hstep with hopen
      · exact Option.some.inj hstep ▸ .use hworker hopen
      · exact Option.some.inj hstep ▸ .reconnect hworker (by simpa [custody] using hopen)
  | attempting item attempts =>
      simp only [step?, hworker, Option.some.injEq] at hstep
      exact hstep ▸ .attempt hworker (attempted_of_begun _ _ _)
  | opening item attempts opensAt expiresAt =>
      simp only [step?, hworker] at hstep
      refine shift_of_resume (by rw [hworker, Stage.exchanging?]) (by simp [hworker])
        (fun after hafter => ?_) hstep
      split_ifs at hafter
      · exact Option.some.inj hafter ▸ .opening hworker (attempted_of_ended _ _ _)
      · exact Option.some.inj hafter ▸
          .opening hworker (attempted_of_failed (.inl rfl) rfl _ _)
  | backingOff item attempts until_ =>
      simp only [step?, hworker] at hstep
      refine shift_of_resume (by rw [hworker, Stage.exchanging?]) (by simp [hworker])
        (fun after hafter => ?_) hstep
      split_ifs at hafter
      exact Option.some.inj hafter ▸ .again hworker
  | sending item =>
      simp only [step?, hworker, Option.some.injEq] at hstep
      exact hstep ▸ shift_of_send hworker
  | receiving item received =>
      simp only [step?, hworker, Option.some.injEq] at hstep
      exact hstep ▸ shift_of_receive hworker
  | stalled item received expiresAt =>
      simp only [step?, hworker] at hstep
      refine shift_of_resume (by rw [hworker, Stage.exchanging?]) (by simp [hworker])
        (fun after hafter => ?_) hstep
      split_ifs at hafter
      rw [← Option.some.inj hafter, custody_moveTo]
      exact .fail (by simp [custody, hworker, Stage.exchanging?]) (by simp [custody, hworker]) rfl
        (.inl rfl)
  | concluding item result =>
      simp only [step?, hworker, Option.some.injEq] at hstep
      exact hstep ▸ shift_of_conclude hworker
  | delivering item result =>
      simp only [step?, hworker, Option.some.injEq] at hstep
      have hlater : afterDelivery connection = .fetching ∨
          ∃ until_, afterDelivery connection = .guarding until_ := by
        rw [afterDelivery]
        split_ifs
        · exact .inl rfl
        · exact .inr ⟨_, rfl⟩
      exact hstep ▸ .deliver hworker hlater
  | guarding until_ =>
      have hbefore : connection.custody.stage.isAway = true := by
        simp [custody, hworker, Stage.isAway]
      simp only [step?, hworker] at hstep
      split_ifs at hstep with hshutdown
      · exact Option.some.inj hstep ▸ .away hbefore (.inl rfl) fun _ => .inr hshutdown
      · rw [← Option.some.inj hstep, custody_moveTo]
        exact .away hbefore (.inl rfl) (by simp)
  | stopped => simp [step?, hworker] at hstep

end Worker

/-! ## The idle timer and a disposal -/

lemma IdleTimer.custody_expire (connection : Connection σ α) (deadline : Nat) :
    (IdleTimer.expire connection deadline).custody = connection.custody.spend deadline := by
  unfold IdleTimer.expire Custody.spend
  simp only [show connection.custody.deadline = connection.idleDeadline from rfl,
    show connection.custody.connected = connection.wire.connected from rfl]
  split_ifs
  · rw [custody_closeLink]
    rfl
  · rfl
  · rfl

lemma IdleTimer.shift_of_step {wakeup : IdleTimer.Wakeup} {c' : Connection σ α}
    (hwaits : connection.worker.isRunning = false)
    (hstep : IdleTimer.step? connection wakeup = some c') :
    Shift connection.custody c'.custody := by
  cases htimer : connection.timer with
  | looking =>
      simp only [IdleTimer.step?, htimer] at hstep
      exact Option.some.inj hstep ▸ .look hwaits htimer
  | watching deadline =>
      simp only [IdleTimer.step?, htimer] at hstep
      cases wakeup with
      | shutdown =>
          simp only [IdleTimer.wake?] at hstep
          split_ifs at hstep with hshutdown
          exact Option.some.inj hstep ▸ .relieve hwaits htimer hshutdown
      | rearmed =>
          simp only [IdleTimer.wake?] at hstep
          split_ifs at hstep with hwoken
          exact Option.some.inj hstep ▸ .wake hwaits htimer hwoken
      | deadline =>
          cases deadline with
          | none => simp [IdleTimer.wake?] at hstep
          | some deadline =>
              simp only [IdleTimer.wake?] at hstep
              split_ifs at hstep with hdue
              exact Option.some.inj hstep ▸ .expire hwaits htimer hdue
  | awaitingLink deadline =>
      simp only [IdleTimer.step?, htimer] at hstep
      split_ifs at hstep with hheld
      obtain ⟨_, _, _, _, hspent⟩ := connection.custody.exists_spend_eq deadline
      have hlink : (connection.custody.spend deadline).link = connection.link := by
        rw [hspent]
        rfl
      have hcustody : c'.custody
          = { (IdleTimer.expire connection deadline).custody with
              timer := .looking
              link := (IdleTimer.expire connection deadline).custody.link.release } := by
        rw [← Option.some.inj hstep]
        rfl
      rw [hcustody, IdleTimer.custody_expire, hlink]
      exact .spend hwaits htimer hheld
  | stopped => simp [IdleTimer.step?, htimer] at hstep

namespace Disposing

lemma custody_foldl_deliver (result : Result Bytes) :
    ∀ (items : List Queued) (connection : Connection σ α),
      (items.foldl (fun connection item => connection.deliver item result) connection).custody
        = connection.custody
  | [], _ => rfl
  | item :: items, connection => custody_foldl_deliver result items (connection.deliver item result)

lemma shift_of_begin (hwaits : connection.worker.isRunning = false) :
    Shift connection.custody (begin connection).custody := by
  rw [begin]
  split
  · rename_i hdisposal
    exact .dispose hwaits hdisposal
  · exact .rest

lemma shift_of_step {c' : Connection σ α} (hwaits : connection.worker.isRunning = false)
    (hstep : step? connection = some c') : Shift connection.custody c'.custody := by
  cases hdisposal : connection.disposal with
  | joiningWorker =>
      simp only [step?, hdisposal] at hstep
      split at hstep
      · rename_i hstage
        exact Option.some.inj hstep ▸ .joinWorker hdisposal hstage
      · simp at hstep
  | joiningTimer =>
      simp only [step?, hdisposal] at hstep
      split at hstep
      · rename_i htimer
        have hcustody : c'.custody
            = { (refuseQueued connection).custody with
                disposal := .awaitingLink
                deadline := none
                link := connection.link.request .disposal } := by
          rw [← Option.some.inj hstep]
          rfl
        have hrefused : (refuseQueued connection).custody = connection.custody :=
          custody_foldl_deliver _ _ _
        rw [hcustody, hrefused]
        exact .joinTimer hwaits hdisposal htimer
      · simp at hstep
  | awaitingLink =>
      simp only [step?, hdisposal] at hstep
      split_ifs at hstep with hheld
      have hcustody : c'.custody
          = { connection.closeLink.custody with
              disposal := .finished, link := connection.closeLink.custody.link.release } := by
        rw [← Option.some.inj hstep]
        rfl
      rw [hcustody, custody_closeLink]
      exact .unlink hwaits hdisposal hheld
  | untouched => simp [step?, hdisposal] at hstep
  | finished => simp [step?, hdisposal] at hstep

end Disposing

/-! ## Calls -/

namespace Caller

lemma shift_of_leave {id ticket : Nat} {result : Result Bytes}
    {next : Result Bytes → Operation α} (hwaits : connection.worker.isRunning = false) :
    Shift connection.custody (leave connection id ticket result next).custody :=
  .aside hwaits rfl

lemma shift_of_invoke {id : Nat} {call : Call α} {request : Bytes} {complete : Bytes → Bool}
    {next : Result Bytes → Operation α} (hwaits : connection.worker.isRunning = false) :
    Shift connection.custody (invoke connection id call request complete next).custody := by
  rw [invoke]
  split
  · exact .rest
  · split
    · exact .rest
    · exact .aside hwaits rfl

/-- **A move of a call** only adds to the history. -/
lemma shift_of_step {id : Nat} {c' : Connection σ α} (hwaits : connection.worker.isRunning = false)
    (hstep : step? connection id = some c') : Shift connection.custody c'.custody := by
  rw [step?] at hstep
  split at hstep
  · simp at hstep
  · split at hstep
    · exact Option.some.inj hstep ▸ .rest
    · exact Option.some.inj hstep ▸ .rest
    · exact Option.some.inj hstep ▸ shift_of_invoke hwaits
    · exact Option.some.inj hstep ▸ shift_of_leave hwaits
    · split_ifs at hstep
      · exact Option.some.inj hstep ▸ shift_of_leave hwaits
      · exact Option.some.inj hstep ▸ shift_of_leave hwaits
    · simp at hstep
    · simp at hstep

lemma shift_of_drop (hwaits : connection.worker.isRunning = false) (id : Nat) :
    Shift connection.custody (drop connection id).custody := by
  rw [drop]
  split
  · exact .rest
  · simp only
    split
    · exact .rest
    · exact .aside hwaits rfl
    · exact .rest
    · exact .rest

end Caller

/-! ## Every happening -/

lemma shift_of_action [Peer σ] (connection : Connection σ α) (action : Action α) :
    Shift connection.custody (connection.step action).custody := by
  have hdone {later : Option (Connection σ α)}
      (hlater : ∀ after, later = some after → Shift connection.custody after.custody) :
      Shift connection.custody (later.getD connection).custody := by
    cases later with
    | none => exact .rest
    | some after => exact hlater after rfl
  -- Whoever is not the worker acts only while the worker waits.
  have hother {later : Connection σ α}
      (hlater : connection.worker.isRunning = false → Shift connection.custody later.custody) :
      Shift connection.custody
        (if connection.worker.isRunning then connection else later).custody := by
    split_ifs with hrunning
    · exact .rest
    · exact hlater (by simpa using hrunning)
  cases action with
  | worker => exact hdone fun after hafter => Worker.shift_of_step hafter
  | timer wakeup =>
      exact hother fun hwaits => hdone fun after hafter => IdleTimer.shift_of_step hwaits hafter
  | caller id =>
      exact hother fun hwaits => hdone fun after hafter => Caller.shift_of_step hwaits hafter
  | disposing =>
      exact hother fun hwaits => hdone fun after hafter => Disposing.shift_of_step hwaits hafter
  | start operation cancelled => exact hother fun _ => .rest
  | cancel id => exact hother fun _ => .rest
  | drop id => exact hother fun hwaits => Caller.shift_of_drop hwaits id
  | dispose => exact hother fun hwaits => Disposing.shift_of_begin hwaits
  | push chunk => exact hother fun _ => .rest
  | refuse count => exact hother fun _ => .rest
  | slow delay => exact hother fun _ => .rest
  | advance now =>
      refine hother fun hwaits => ?_
      rw [advance]
      split_ifs with hpasses
      · simp only [Bool.and_eq_true, decide_eq_true_eq] at hpasses
        exact .tick hwaits hpasses.1.2
      · exact .rest

lemma shift_of_whim (connection : Connection σ α) {whim : Whim} (hsteady : whim ≠ .lose) :
    Shift connection.custody (connection.indulge whim).custody := by
  have hindulged := connection.indulged whim
  generalize connection.indulge whim = after at hindulged ⊢
  cases hindulged with
  | unheeded => exact .rest
  | stalled until_ hworker => exact .read (.inl hworker) (.inr ⟨_, _, rfl⟩) (.inl rfl)
  | resumed hworker hclear => exact .read (.inr ⟨_, hworker⟩) (.inl ⟨_, rfl⟩) (.inl rfl)
  | unopened fault hworker hclear =>
      exact .opening hworker (Worker.attempted_of_failed (.inl rfl) rfl _ _)
  | failed fault hworker hclear =>
      exact .fail (by simp [custody, hworker, Stage.exchanging?]) (by simp [custody, hworker]) rfl
        (.inl rfl)
  | lost => exact absurd rfl hsteady

/-- **One happening is one shift**, unless the link goes down by itself. -/
theorem shift_of_happening [Peer σ] (connection : Connection σ α) {happening : Happening α}
    (hsteady : happening ≠ .whim .lose) :
    Shift connection.custody (connection.happen happening).custody := by
  cases happening with
  | act action => exact shift_of_action connection action
  | whim whim => exact shift_of_whim connection fun h => hsteady (h ▸ rfl)

/-- The link down by itself: nothing else changes. -/
lemma custody_lose [Peer σ] (connection : Connection σ α) :
    (connection.happen (.whim .lose)).custody = { connection.custody with connected := false } :=
  rfl

/-- **The worker stops only when it is told to.** -/
lemma Shift.stops {c c' : Custody} (h : Shift c c') (hafter : c'.stage = .stopped) :
    c.stage = .stopped ∨ c.shutdown = true := by
  cases h with
  | away hbefore hlater hstopped => exact hstopped hafter
  | request hstage =>
      simp only at hafter
      split_ifs at hafter
  | attempt hstage hattempted => cases hattempted <;> cases hafter
  | opening hstage hattempted => cases hattempted <;> cases hafter
  | read hstage hlater hevents =>
      obtain rfl := hafter
      rcases hlater with ⟨received, hlater⟩ | ⟨received, expiresAt, hlater⟩ <;> cases hlater
  | deliver hstage hlater =>
      obtain rfl := hafter
      rcases hlater with hlater | ⟨until_, hlater⟩ <;> cases hlater
  | @spend deadline hwaits htimer hheld =>
      obtain ⟨_, _, _, _, hspent⟩ := c.exists_spend_eq deadline
      rw [hspent] at hafter
      exact .inl hafter
  | _ => first | exact .inl hafter | cases hafter

lemma stops_of_happening [Peer σ] (connection : Connection σ α) (happening : Happening α)
    (hafter : (connection.happen happening).worker = .stopped) :
    connection.worker = .stopped ∨ connection.shutdown = true := by
  by_cases hsteady : happening = .whim .lose
  · subst hsteady
    exact .inl hafter
  · exact (shift_of_happening connection hsteady).stops hafter

/-! ## Runs -/

/-- **What every shift keeps, every run keeps**, and so does one over a link that goes down, if that
is kept too. -/
theorem custody_induction [Peer σ] {motive : Custody → Prop}
    (hshift : ∀ c c', motive c → Shift c c' → motive c') :
    ∀ (happenings : List (Happening α)) (connection : Connection σ α),
      (.whim .lose ∈ happenings → ∀ c, motive c → motive { c with connected := false }) →
        motive connection.custody → motive (connection.runOver happenings).custody
  | [], _, _, h => h
  | happening :: happenings, connection, hlose, h => by
      refine custody_induction hshift happenings (connection.happen happening)
        (fun hlater => hlose (List.mem_cons_of_mem _ hlater)) ?_
      by_cases hsteady : happening = .whim .lose
      · subst hsteady
        rw [custody_lose]
        exact hlose (List.mem_cons_self ..) _ h
      · exact hshift _ _ h (shift_of_happening connection hsteady)

end Modbus.Connection
