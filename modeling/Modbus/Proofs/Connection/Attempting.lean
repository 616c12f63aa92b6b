import Modbus.Proofs.Connection.Custody

/-!
# How attempts to open the link follow each other

While the worker reconnects it is at one of three places: about to try, waiting for an attempt to
come to its end, or pausing.  `Trial` is everything that one happening can do there, with the fault
of the attempt if one failed (`failing?`); of the connection it keeps only where the worker is, and
what the clock shows.  Every happening is a trial (`trial_of_happening`).

Nobody else moves the worker (`worker_of_step`), and the clock is moved by nobody but time itself,
which stands still as long as a task can move (`clock_of_step`).
-/

namespace Modbus

/-- **The attempts that the worker is at**, and for which request. -/
def Stage.attempts? : Stage → Option (Queued × Attempts)
  | .attempting item attempts => some (item, attempts)
  | .opening item attempts _ _ => some (item, attempts)
  | .backingOff item attempts _ => some (item, attempts)
  | _ => none

/-- **The worker is at one of these attempts**, and not between two of them. -/
def Stage.Trying (stage : Stage) (item : Queued) (attempts : Attempts) : Prop :=
  stage = .attempting item attempts ∨
    ∃ opensAt expiresAt, stage = .opening item attempts opensAt expiresAt

lemma Stage.Trying.attempts?_eq {stage : Stage} {item : Queued} {attempts : Attempts}
    (h : stage.Trying item attempts) : stage.attempts? = some (item, attempts) := by
  rcases h with rfl | ⟨opensAt, expiresAt, rfl⟩
  · rfl
  · rfl

/-- The fault of an attempt to open a link that fails. -/
def Wire.refusal? {σ : Type} (wire : Wire σ) : Option TransportFault :=
  match wire.open.result with
  | .ok () => none
  | .error fault => some fault

namespace Connection

variable {σ α : Type}

/-- **The fault of an attempt that ends with a happening**, if it fails: the link refuses, it does
not answer in time, or it fails by itself. -/
def failing? (connection : Connection σ α) : Happening α → Option TransportFault
  | .act .worker =>
    match connection.worker with
    | .attempting _ _ =>
      if connection.wire.openDelay = 0 then connection.wire.refusal? else none
    | .opening item _ opensAt expiresAt =>
      if (connection.interruption? item).isSome then none
      else if opensAt ≤ connection.now then connection.wire.refusal?
      else if expiresAt ≤ connection.now then some (Worker.connectTimeoutFault connection)
      else none
    | _ => none
  | .whim (.fail fault) =>
    match connection.worker with
    | .opening item _ _ _ => if (connection.interruption? item).isSome then none else some fault
    | _ => none
  | _ => none

/-! ## The clock -/

/-- What the clock shows, and the policy. -/
def clock (connection : Connection σ α) : Nat × Timing :=
  (connection.now, connection.timing)

lemma clock_foldl_note : ∀ (events : List Wire.Event) (connection : Connection σ α),
    (events.foldl (fun connection event => connection.note (.wire event)) connection).clock
      = connection.clock
  | [], _ => rfl
  | event :: events, connection => clock_foldl_note events (connection.note (.wire event))

@[simp] lemma clock_perform {β : Type} (connection : Connection σ α)
    (performed : Wire.Performed σ β) :
    (connection.perform performed).clock = connection.clock :=
  clock_foldl_note _ { connection with wire := performed.wire }

@[simp] lemma clock_closeLink (connection : Connection σ α) :
    connection.closeLink.clock = connection.clock :=
  clock_perform connection connection.wire.close

lemma clock_foldl_deliver (result : Result Bytes) :
    ∀ (items : List Queued) (connection : Connection σ α),
      (items.foldl (fun connection item => connection.deliver item result) connection).clock
        = connection.clock
  | [], _ => rfl
  | item :: items, connection => clock_foldl_deliver result items (connection.deliver item result)

lemma IdleTimer.clock_of_step {connection c' : Connection σ α} {wakeup : IdleTimer.Wakeup}
    (hstep : IdleTimer.step? connection wakeup = some c') : c'.clock = connection.clock := by
  unfold IdleTimer.step? at hstep
  split at hstep
  · exact Option.some.inj hstep ▸ rfl
  · unfold IdleTimer.wake? at hstep
    split at hstep
    · split_ifs at hstep
      exact Option.some.inj hstep ▸ rfl
    · split_ifs at hstep
      exact Option.some.inj hstep ▸ rfl
    · split at hstep
      · simp at hstep
      · split_ifs at hstep
        exact Option.some.inj hstep ▸ rfl
  · rename_i deadline _
    split_ifs at hstep
    have hexpired : c'.clock = (IdleTimer.expire connection deadline).clock :=
      Option.some.inj hstep ▸ rfl
    rw [hexpired, IdleTimer.expire]
    split_ifs
    · exact clock_closeLink _
    · rfl
    · rfl
  · simp at hstep

lemma Caller.clock_of_step {connection c' : Connection σ α} {id : Nat}
    (hstep : Caller.step? connection id = some c') : c'.clock = connection.clock := by
  unfold Caller.step? at hstep
  split at hstep
  · simp at hstep
  · split at hstep
    · exact Option.some.inj hstep ▸ rfl
    · exact Option.some.inj hstep ▸ rfl
    · rw [← Option.some.inj hstep]
      unfold Caller.invoke
      split
      · rfl
      · split <;> rfl
    · exact Option.some.inj hstep ▸ rfl
    · split_ifs at hstep
      · exact Option.some.inj hstep ▸ rfl
      · exact Option.some.inj hstep ▸ rfl
    · simp at hstep
    · simp at hstep

lemma Disposing.clock_of_step {connection c' : Connection σ α}
    (hstep : Disposing.step? connection = some c') : c'.clock = connection.clock := by
  unfold Disposing.step? at hstep
  split at hstep
  · split at hstep
    · exact Option.some.inj hstep ▸ rfl
    · simp at hstep
  · split at hstep
    · have hrefused : c'.clock = (Disposing.refuseQueued connection).clock :=
        Option.some.inj hstep ▸ rfl
      rw [hrefused]
      exact clock_foldl_deliver _ _ { connection with queue := connection.queue.close.2 }
    · simp at hstep
  · split_ifs at hstep
    have hclosed : c'.clock = connection.closeLink.clock := Option.some.inj hstep ▸ rfl
    rw [hclosed, clock_closeLink]
  · simp at hstep
  · simp at hstep

/-- **Nobody but time moves the clock.** -/
lemma clock_of_step [Peer σ] (connection : Connection σ α) {action : Action α}
    (hworker : action ≠ .worker) (htime : ∀ now, action ≠ .advance now) :
    (connection.step action).clock = connection.clock := by
  have hdone {later : Option (Connection σ α)}
      (hlater : ∀ after, later = some after → after.clock = connection.clock) :
      (later.getD connection).clock = connection.clock := by
    cases later with
    | none => rfl
    | some after => exact hlater after rfl
  have hother {later : Connection σ α} (hlater : later.clock = connection.clock) :
      (if connection.worker.isRunning then connection else later).clock = connection.clock := by
    split_ifs
    · rfl
    · exact hlater
  cases action with
  | worker => exact absurd rfl hworker
  | advance now => exact absurd rfl (htime now)
  | timer wakeup => exact hother (hdone fun after hafter => IdleTimer.clock_of_step hafter)
  | caller id => exact hother (hdone fun after hafter => Caller.clock_of_step hafter)
  | disposing => exact hother (hdone fun after hafter => Disposing.clock_of_step hafter)
  | drop id =>
      refine hother ?_
      unfold Caller.drop
      split
      · rfl
      · simp only
        split <;> rfl
  | dispose =>
      refine hother ?_
      unfold Disposing.begin
      split <;> rfl
  | _ => exact hother rfl

/-! ## Trials -/

/-- **Everything that one happening can do to the attempts of the worker**, with the fault of the
attempt that fails by it. -/
inductive Trial (c c' : Connection σ α) : Option TransportFault → Prop where
  | rest (hclock : c'.clock = c.clock) (hworker : c'.worker = c.worker) : Trial c c' none
  /-- The worker goes about its other business. -/
  | elsewhere (hclock : c'.clock = c.clock) (hbefore : c.worker.attempts? = none)
      (hafter : c'.worker.attempts? = none) : Trial c c' none
  /-- The link is found closed. -/
  | start {item : Queued} (hclock : c'.clock = c.clock) (hbefore : c.worker = .linked item)
      (hafter : c'.worker = .attempting item ⟨c.now, c.timing.minBackoff⟩) : Trial c c' none
  /-- An attempt begins that takes its time. -/
  | wait {item : Queued} {attempts : Attempts} {opensAt : Nat} (hclock : c'.clock = c.clock)
      (hbefore : c.worker = .attempting item attempts)
      (hafter : c'.worker
        = .opening item attempts opensAt (c.now + c.timing.readTimeout.ticks)) : Trial c c' none
  | opened {item : Queued} {attempts : Attempts} (hclock : c'.clock = c.clock)
      (hbefore : c.worker.attempts? = some (item, attempts))
      (hafter : c'.worker = .sending item) : Trial c c' none
  | failed {item : Queued} {attempts : Attempts} {fault : TransportFault}
      (hclock : c'.clock = c.clock)
      (hbefore : c.worker.Trying item attempts)
      (hafter : c'.worker = (Worker.attemptFailed c item attempts fault).worker) :
      Trial c c' (some fault)
  | interrupted {item : Queued} {attempts : Attempts} {error : Error} (hclock : c'.clock = c.clock)
      (hbefore : c.worker.attempts? = some (item, attempts))
      (hcause : c.interruption? item = some error)
      (hafter : c'.worker = .concluding item (.error error)) : Trial c c' none
  /-- A pause is over. -/
  | again {item : Queued} {attempts : Attempts} {until_ : Nat} (hclock : c'.clock = c.clock)
      (hbefore : c.worker = .backingOff item attempts until_) (hdue : until_ ≤ c.now)
      (hafter : c'.worker = .attempting item (Worker.nextAttempts c attempts)) : Trial c c' none
  /-- Time passes while the worker waits, and no further than it waits. -/
  | pass (hwaits : c.worker.isRunning = false) (htiming : c'.timing = c.timing)
      (hworker : c'.worker = c.worker)
      (hdeadline : ∀ deadline, Worker.deadline? c = some deadline → c'.now ≤ deadline)
      (hlater : c.now ≤ c'.now) : Trial c c' none

namespace Trial

variable {c c' : Connection σ α} {fault : Option TransportFault}

lemma timing (h : Trial c c' fault) : c'.timing = c.timing := by
  cases h with
  | pass _ htiming _ _ _ => exact htiming
  | _ hclock => exact congrArg Prod.snd hclock

/-- The clock does not go back. -/
lemma now_le (h : Trial c c' fault) : c.now ≤ c'.now := by
  cases h with
  | pass _ _ _ _ hlater => exact hlater
  | _ hclock => exact Nat.le_of_eq (congrArg Prod.fst hclock).symm

end Trial

namespace Worker

variable {connection c' : Connection σ α} {item : Queued} {attempts : Attempts}

lemma clock_attemptFailed (connection : Connection σ α) (item : Queued) (attempts : Attempts)
    (fault : TransportFault) :
    (attemptFailed connection item attempts fault).clock = connection.clock := by
  rw [attemptFailed]
  split <;> rfl

/-- Where a failed attempt leads depends on the clock alone. -/
lemma worker_attemptFailed {connection other : Connection σ α} (h : other.clock = connection.clock)
    (item : Queued) (attempts : Attempts) (fault : TransportFault) :
    (attemptFailed other item attempts fault).worker
      = (attemptFailed connection item attempts fault).worker := by
  obtain ⟨hnow, htiming⟩ := Prod.mk.inj h
  simp only [attemptFailed, pause?, hnow, htiming]
  split <;> rfl

/-- **The end of an attempt**, as a trial. -/
lemma trial_of_attemptEnded {connection other : Connection σ α}
    (hclock : other.clock = connection.clock)
    (hwire : other.wire.refusal? = connection.wire.refusal?)
    (hbefore : connection.worker.Trying item attempts) :
    Trial connection (attemptEnded other item attempts) connection.wire.refusal? := by
  have hperformed : (other.perform other.wire.open).clock = connection.clock :=
    (clock_perform _ _).trans hclock
  rw [← hwire, Wire.refusal?]
  cases hresult : other.wire.open.result with
  | ok _ =>
      simp only [attemptEnded, hresult]
      exact .opened hperformed hbefore.attempts?_eq rfl
  | error fault =>
      simp only [attemptEnded, hresult]
      exact .failed ((clock_attemptFailed _ _ _ _).trans hperformed) hbefore
        (worker_attemptFailed hperformed _ _ _)

/-- An attempt begins with a link that is closed, and closing it does not change whether it can be
opened. -/
lemma refusal?_of_close (connection : Connection σ α) :
    ((connection.perform connection.wire.close).note .attempted).wire.refusal?
      = connection.wire.refusal? ∧
    ((connection.perform connection.wire.close).note .attempted).wire.openDelay
      = connection.wire.openDelay := by
  have hwire : ((connection.perform connection.wire.close).note .attempted).wire
      = connection.wire.close.wire := wire_foldl_note _ _
  rw [hwire, Wire.close]
  split_ifs
  · rw [Wire.refusal?, Wire.refusal?, Wire.open, Wire.open]
    split_ifs <;> exact ⟨rfl, rfl⟩
  · exact ⟨rfl, rfl⟩

lemma trial_of_beginAttempt (hworker : connection.worker = .attempting item attempts) :
    Trial connection (beginAttempt connection item attempts)
      (if connection.wire.openDelay = 0 then connection.wire.refusal? else none) := by
  have hbegun : ((connection.perform connection.wire.close).note .attempted).clock
      = connection.clock := clock_perform _ _
  obtain ⟨hrefusal, hdelay⟩ := refusal?_of_close connection
  simp only [beginAttempt, hdelay]
  split_ifs
  · exact trial_of_attemptEnded hbegun hrefusal (.inl hworker)
  · obtain ⟨hnow, htiming⟩ := Prod.mk.inj hbegun
    rw [hnow, htiming]
    exact .wait hbegun hworker rfl

/-- An exchange that is waited for is interrupted, or goes on. -/
lemma trial_of_resume {fault : Option TransportFault} {continue_ : Option (Connection σ α)}
    (hattempts : connection.worker.attempts? = some (item, attempts))
    (hcontinue : connection.interruption? item = none →
      ∀ after, continue_ = some after → Trial connection after fault)
    (hstep : resumeExchange connection item continue_ = some c') :
    Trial connection c' (if (connection.interruption? item).isSome then none else fault) := by
  rw [resumeExchange] at hstep
  cases hcause : connection.interruption? item with
  | some error =>
      rw [hcause] at hstep
      obtain rfl := Option.some.inj hstep
      exact .interrupted rfl hattempts hcause rfl
  | none =>
      rw [hcause] at hstep
      exact hcontinue hcause c' hstep

/-- **The worker's other business.** -/
lemma trial_of_elsewhere [Peer σ] (hstep : step? connection = some c')
    (hbefore : connection.worker.attempts? = none)
    (hlinked : ∀ item, connection.worker ≠ .linked item) : Trial connection c' none := by
  cases hworker : connection.worker with
  | attempting item attempts => rw [hworker] at hbefore; cases hbefore
  | opening item attempts opensAt expiresAt => rw [hworker] at hbefore; cases hbefore
  | backingOff item attempts until_ => rw [hworker] at hbefore; cases hbefore
  | linked item => exact absurd hworker (hlinked item)
  | fetching =>
      simp only [step?, hworker, fetch?] at hstep
      split_ifs at hstep
      · exact Option.some.inj hstep ▸ .elsewhere rfl hbefore rfl
      · split at hstep
        · exact Option.some.inj hstep ▸ .elsewhere rfl hbefore rfl
        · exact Option.some.inj hstep ▸ .elsewhere rfl hbefore rfl
  | fetched item =>
      simp only [step?, hworker] at hstep
      split at hstep
      · exact Option.some.inj hstep ▸ .elsewhere rfl hbefore rfl
      · refine Option.some.inj hstep ▸ .elsewhere rfl hbefore ?_
        simp only
        split_ifs <;> rfl
  | awaitingLink item =>
      simp only [step?, hworker] at hstep
      split at hstep
      · exact Option.some.inj hstep ▸ .elsewhere rfl hbefore rfl
      · split_ifs at hstep
        exact Option.some.inj hstep ▸ .elsewhere rfl hbefore rfl
  | sending item =>
      simp only [step?, hworker, Option.some.injEq] at hstep
      rw [← hstep, send]
      split <;> exact .elsewhere (clock_perform _ _) hbefore rfl
  | receiving item received =>
      simp only [step?, hworker, Option.some.injEq] at hstep
      rw [← hstep, receive]
      simp only
      split
      · exact .elsewhere (clock_perform _ _) hbefore rfl
      · exact .elsewhere (clock_perform _ _) hbefore rfl
      · exact .elsewhere (clock_perform _ _) hbefore rfl
      · split_ifs <;> exact .elsewhere (clock_perform _ _) hbefore rfl
  | stalled item received expiresAt =>
      simp only [step?, hworker, resumeExchange] at hstep
      split at hstep
      · exact Option.some.inj hstep ▸ .elsewhere rfl hbefore rfl
      · split_ifs at hstep
        exact Option.some.inj hstep ▸ .elsewhere rfl hbefore rfl
  | concluding item result =>
      simp only [step?, hworker, Option.some.injEq] at hstep
      rw [← hstep]
      cases result with
      | ok _ => exact .elsewhere rfl hbefore rfl
      | error error =>
          simp only [conclude]
          split_ifs
          · exact .elsewhere (clock_closeLink connection) hbefore rfl
          · exact .elsewhere rfl hbefore rfl
  | delivering item result =>
      simp only [step?, hworker, Option.some.injEq] at hstep
      rw [← hstep]
      refine .elsewhere rfl hbefore ?_
      rw [moveTo, afterDelivery]
      split_ifs <;> rfl
  | guarding until_ =>
      simp only [step?, hworker] at hstep
      split_ifs at hstep
      · exact Option.some.inj hstep ▸ .elsewhere rfl hbefore rfl
      · exact Option.some.inj hstep ▸ .elsewhere rfl hbefore rfl
  | stopped => simp [step?, hworker] at hstep

lemma failing?_of_elsewhere (hbefore : connection.worker.attempts? = none) :
    failing? connection (.act .worker) = none := by
  cases hworker : connection.worker with
  | attempting item attempts => rw [hworker] at hbefore; cases hbefore
  | opening item attempts opensAt expiresAt => rw [hworker] at hbefore; cases hbefore
  | _ => simp only [failing?, hworker]

/-- **A move of the worker** is a trial. -/
lemma trial_of_step [Peer σ] (hstep : step? connection = some c') :
    Trial connection c' (failing? connection (.act .worker)) := by
  cases hworker : connection.worker with
  | attempting item attempts =>
      simp only [step?, hworker, Option.some.injEq] at hstep
      subst hstep
      simp only [failing?, hworker]
      exact trial_of_beginAttempt hworker
  | opening item attempts opensAt expiresAt =>
      simp only [step?, hworker] at hstep
      have hopening : connection.worker.Trying item attempts :=
        .inr ⟨opensAt, expiresAt, hworker⟩
      simp only [failing?, hworker]
      refine trial_of_resume (by rw [hworker]; rfl) (fun _ after hafter => ?_) hstep
      split_ifs at hafter ⊢
      · exact Option.some.inj hafter ▸ trial_of_attemptEnded rfl rfl hopening
      · exact Option.some.inj hafter ▸ .failed (clock_attemptFailed _ _ _ _) hopening rfl
  | backingOff item attempts until_ =>
      simp only [step?, hworker] at hstep
      have htrial : Trial connection c'
          (if (connection.interruption? item).isSome then none else none) := by
        refine trial_of_resume (by rw [hworker]; rfl) (fun _ after hafter => ?_) hstep
        split_ifs at hafter with hdue
        exact Option.some.inj hafter ▸ .again rfl hworker hdue rfl
      simp only [failing?, hworker]
      rwa [ite_self] at htrial
  | linked item =>
      simp only [step?, hworker] at hstep
      simp only [failing?, hworker]
      split_ifs at hstep
      · exact Option.some.inj hstep ▸ .elsewhere rfl (by rw [hworker]; rfl) rfl
      · exact Option.some.inj hstep ▸ .start rfl hworker rfl
  | _ =>
      have hbefore : connection.worker.attempts? = none := by rw [hworker]; rfl
      rw [failing?_of_elsewhere hbefore]
      exact trial_of_elsewhere hstep hbefore (by simp [hworker])

/-- No attempt fails while the worker waits. -/
lemma failing?_of_waiting [Peer σ] (hstep : step? connection = none) :
    failing? connection (.act .worker) = none := by
  cases hworker : connection.worker with
  | attempting item attempts => simp [step?, hworker] at hstep
  | opening item attempts opensAt expiresAt =>
      simp only [step?, hworker, resumeExchange] at hstep
      simp only [failing?, hworker]
      split at hstep
      · simp at hstep
      · split_ifs at hstep with hopens hexpires
        rw [if_neg hopens, if_neg hexpires, ite_self]
  | _ => simp only [failing?, hworker]

end Worker

lemma failing?_of_other (connection : Connection σ α) {action : Action α}
    (haction : action ≠ .worker) : failing? connection (.act action) = none := by
  cases action with
  | worker => exact absurd rfl haction
  | _ => rfl

/-- While it waits the worker stops the clock at its next deadline. -/
lemma trial_of_advance [Peer σ] (connection : Connection σ α) (now : Nat)
    (hwaits : connection.worker.isRunning = false) :
    Trial connection (connection.advance now) none := by
  rw [advance]
  split_ifs with hpasses
  · simp only [Bool.and_eq_true, decide_eq_true_eq, List.all_eq_true] at hpasses
    obtain ⟨⟨-, hlater⟩, hdeadlines⟩ := hpasses
    refine .pass hwaits rfl rfl (fun deadline hdeadline => hdeadlines deadline ?_) hlater
    rw [deadlines, hdeadline]
    exact List.mem_append_left _ (List.mem_singleton_self deadline)
  · exact .rest rfl rfl

lemma trial_of_action [Peer σ] (connection : Connection σ α) (action : Action α) :
    Trial connection (connection.step action) (failing? connection (.act action)) := by
  by_cases hworker : action = .worker
  · subst hworker
    cases hstep : Worker.step? connection with
    | none =>
        have hrest : connection.step .worker = connection := by rw [step, hstep, Option.getD_none]
        rw [hrest, Worker.failing?_of_waiting hstep]
        exact .rest rfl rfl
    | some after =>
        have hmoved : connection.step .worker = after := by rw [step, hstep, Option.getD_some]
        rw [hmoved]
        exact Worker.trial_of_step hstep
  · rw [failing?_of_other connection hworker]
    by_cases htime : ∃ now, action = .advance now
    · obtain ⟨now, rfl⟩ := htime
      cases hwaits : connection.worker.isRunning with
      | true =>
          simp only [step, hwaits, if_true]
          exact .rest rfl rfl
      | false =>
          simp only [step, hwaits, Bool.false_eq_true, if_false]
          exact trial_of_advance connection now hwaits
    · exact .rest (clock_of_step connection hworker fun now h => htime ⟨now, h⟩)
        (worker_of_step connection hworker)

/-- What the link has for an exchange that was waited for is heeded, or nothing fails by it. -/
lemma trial_of_heed {connection answered : Connection σ α} {item : Queued}
    {fault : Option TransportFault} (hanswered : Trial connection answered fault) :
    Trial connection (connection.heed item answered)
      (if (connection.interruption? item).isSome then none else fault) := by
  rw [heed]
  split
  · rename_i error hcause
    rw [hcause]
    exact .rest rfl rfl
  · rename_i hclear
    rw [hclear]
    exact hanswered

lemma trial_of_whim (connection : Connection σ α) (whim : Whim) :
    Trial connection (connection.indulge whim) (failing? connection (.whim whim)) := by
  have helsewhere {item : Queued} {stage : Stage} (hbefore : connection.worker.attempts? = none)
      (hafter : stage.attempts? = none) :
      Trial connection (connection.heed item (Worker.moveTo connection stage)) none := by
    have htrial : Trial connection (Worker.moveTo connection stage) none :=
      .elsewhere rfl hbefore hafter
    have hheeded : Trial connection (connection.heed item (Worker.moveTo connection stage))
        (if (connection.interruption? item).isSome then none else none) := trial_of_heed htrial
    rwa [ite_self] at hheeded
  cases whim with
  | lose => exact .rest rfl rfl
  | stall until_ =>
      cases hworker : connection.worker with
      | receiving item received =>
          simp only [indulge, hworker]
          exact .elsewhere rfl (by rw [hworker]; rfl) rfl
      | _ =>
          simp only [indulge, hworker]
          exact .rest rfl rfl
  | resume =>
      cases hworker : connection.worker with
      | stalled item received expiresAt =>
          simp only [indulge, hworker]
          exact helsewhere (by rw [hworker]; rfl) rfl
      | _ =>
          simp only [indulge, hworker]
          exact .rest rfl rfl
  | fail fault =>
      cases hworker : connection.worker with
      | opening item attempts opensAt expiresAt =>
          simp only [indulge, failing?, hworker]
          have htrying : connection.worker.Trying item attempts :=
            .inr ⟨opensAt, expiresAt, hworker⟩
          exact trial_of_heed (.failed (Worker.clock_attemptFailed _ _ _ _) htrying rfl)
      | stalled item received expiresAt =>
          simp only [indulge, failing?, hworker]
          exact helsewhere (by rw [hworker]; rfl) rfl
      | _ =>
          simp only [indulge, failing?, hworker]
          exact .rest rfl rfl

/-- **Every happening is a trial.** -/
theorem trial_of_happening [Peer σ] (connection : Connection σ α) (happening : Happening α) :
    Trial connection (connection.happen happening) (failing? connection happening) := by
  cases happening with
  | act action => exact trial_of_action connection action
  | whim whim => exact trial_of_whim connection whim

lemma now_le_of_run [Peer σ] : ∀ (happenings : List (Happening α)) (connection : Connection σ α),
    connection.now ≤ (connection.runOver happenings).now
  | [], _ => Nat.le_refl _
  | happening :: happenings, connection =>
      Nat.le_trans (trial_of_happening connection happening).now_le
        (now_le_of_run happenings (connection.happen happening))

end Connection

end Modbus
