import Modbus.Proofs.Backoff
import Modbus.Proofs.Connection.Attempting

/-!
# The worker keeps to the schedule

A `Watched` connection is one of which somebody writes down when the worker began to reconnect,
when its latest attempt began, and which attempts have failed since.  `Paced` ties these notes to
what the worker has in hand: where it is about to try, the clock shows the moment that `Backoff.due`
says; where it waits for an attempt, that moment is when the attempt began; where it pauses, it does
so until then.  What the worker keeps from one attempt to the next is the length of the next pause
(`Watched.Kept`), which it doubles when a pause is over (`Worker.nextAttempts`).

Each trial keeps the pace (`Watched.paced_of_happen`).  The one with an argument in it is a failure:
the worker stops exactly if no time is left, and otherwise its pause is the one of the schedule
(`Worker.pause?_cases`).  Everything else about the schedule is said in `Backoff`, without a worker.
-/

namespace Modbus.Connection

variable {σ α : Type}

/-- **A connection and what was written down about it** while it reconnected. -/
structure Watched (σ α : Type) where
  connection : Connection σ α
  /-- When the attempts that belong together began. -/
  started : Nat := 0
  /-- When the latest of them began. -/
  began : Nat := 0
  /-- Those of them that failed, newest first. -/
  failures : List Failure := []

namespace Watched

/-- When the attempt that is going on began, or begins. -/
def latest (w : Watched σ α) : Nat :=
  match w.connection.worker with
  | .attempting _ _ => w.connection.now
  | _ => w.began

/-- The attempt that fails with a happening, if one does. -/
def failure? (w : Watched σ α) (happening : Happening α) : Option Failure :=
  (w.connection.failing? happening).map (⟨w.latest, w.connection.now, ·⟩)

/-- **A happening that is written down.**  Once the worker has the link in hand new notes begin. -/
def happen [Peer σ] (w : Watched σ α) (happening : Happening α) : Watched σ α :=
  let connection := w.connection.happen happening
  match w.connection.worker with
  | .linked _ => { connection, started := w.connection.now }
  | _ =>
    { connection
      started := w.started
      began := w.latest
      failures := (w.failure? happening).toList ++ w.failures }

/-- **A run that is written down.** -/
def run [Peer σ] (w : Watched σ α) (happenings : List (Happening α)) : Watched σ α :=
  happenings.foldl happen w

/-- Writing down changes nothing. -/
@[simp] lemma connection_happen [Peer σ] (w : Watched σ α) (happening : Happening α) :
    (w.happen happening).connection = w.connection.happen happening := by
  rw [happen]
  split <;> rfl

lemma connection_run [Peer σ] : ∀ (happenings : List (Happening α)) (w : Watched σ α),
    (w.run happenings).connection = w.connection.runOver happenings
  | [], _ => rfl
  | happening :: happenings, w => by
      have hlater := connection_run happenings (w.happen happening)
      rw [connection_happen] at hlater
      exact hlater

/-! ## The pace -/

/-- **What the worker keeps between attempts**, with the pause after the failure of a number, and
that there is time for another one. -/
structure Kept (policy : Backoff) (started : Nat) (failures : List Failure) (number : Nat)
    (attempts : Attempts) : Prop where
  since : attempts.started = started
  backoff : attempts.backoff = .ofMillis (policy.full number)
  time : policy.HasTime started failures

/-- **The worker is where the schedule says.** -/
structure Paced (policy : Backoff) (w : Watched σ α) : Prop where
  timing : policy.timing w.connection.timing = w.connection.timing
  course : policy.Course w.started w.failures
  attempting : ∀ item attempts, w.connection.worker = .attempting item attempts →
    Kept policy w.started w.failures (w.failures.length + 1) attempts ∧
      w.connection.now = policy.due w.started w.failures
  opening : ∀ item attempts opensAt expiresAt,
    w.connection.worker = .opening item attempts opensAt expiresAt →
      Kept policy w.started w.failures (w.failures.length + 1) attempts ∧
        w.began = policy.due w.started w.failures ∧ expiresAt = w.began + policy.read ∧
          w.began ≤ w.connection.now ∧ w.connection.now ≤ expiresAt
  backingOff : ∀ item attempts until_, w.connection.worker = .backingOff item attempts until_ →
    Kept policy w.started w.failures w.failures.length attempts ∧
      until_ = policy.due w.started w.failures ∧ w.connection.now ≤ until_ ∧ w.failures ≠ []

variable {policy : Backoff} {w : Watched σ α} {item : Queued} {attempts : Attempts}

/-- Away from its attempts the worker keeps the pace by itself. -/
lemma Paced.of_elsewhere (htiming : policy.timing w.connection.timing = w.connection.timing)
    (hcourse : policy.Course w.started w.failures)
    (haway : w.connection.worker.attempts? = none) : Paced policy w where
  timing := htiming
  course := hcourse
  attempting item attempts hworker := by
    rw [hworker] at haway
    cases haway
  opening item attempts opensAt expiresAt hworker := by
    rw [hworker] at haway
    cases haway
  backingOff item attempts until_ hworker := by
    rw [hworker] at haway
    cases haway

lemma Paced.of_attempting (htiming : policy.timing w.connection.timing = w.connection.timing)
    (hcourse : policy.Course w.started w.failures)
    (hworker : w.connection.worker = .attempting item attempts)
    (hkept : Kept policy w.started w.failures (w.failures.length + 1) attempts)
    (hdue : w.connection.now = policy.due w.started w.failures) : Paced policy w where
  timing := htiming
  course := hcourse
  attempting other attempts' hstage := by
    obtain ⟨rfl, rfl⟩ := Stage.attempting.inj (hworker.symm.trans hstage)
    exact ⟨hkept, hdue⟩
  opening other attempts' opensAt expiresAt hstage := by cases hworker.symm.trans hstage
  backingOff other attempts' until_ hstage := by cases hworker.symm.trans hstage

lemma Paced.of_opening {opensAt : Nat}
    (htiming : policy.timing w.connection.timing = w.connection.timing)
    (hcourse : policy.Course w.started w.failures)
    (hworker : w.connection.worker = .opening item attempts opensAt (w.began + policy.read))
    (hkept : Kept policy w.started w.failures (w.failures.length + 1) attempts)
    (hdue : w.began = policy.due w.started w.failures)
    (hlater : w.began ≤ w.connection.now) (hread : w.connection.now ≤ w.began + policy.read) :
    Paced policy w where
  timing := htiming
  course := hcourse
  attempting other attempts' hstage := by cases hworker.symm.trans hstage
  opening other attempts' opensAt' expiresAt hstage := by
    obtain ⟨rfl, rfl, rfl, rfl⟩ := Stage.opening.inj (hworker.symm.trans hstage)
    exact ⟨hkept, hdue, rfl, hlater, hread⟩
  backingOff other attempts' until_ hstage := by cases hworker.symm.trans hstage

lemma Paced.of_backingOff (htiming : policy.timing w.connection.timing = w.connection.timing)
    (hcourse : policy.Course w.started w.failures)
    (hworker : w.connection.worker
      = .backingOff item attempts (policy.due w.started w.failures))
    (hkept : Kept policy w.started w.failures w.failures.length attempts)
    (hpauses : w.connection.now ≤ policy.due w.started w.failures) (hfailed : w.failures ≠ []) :
    Paced policy w where
  timing := htiming
  course := hcourse
  attempting other attempts' hstage := by cases hworker.symm.trans hstage
  opening other attempts' opensAt expiresAt hstage := by cases hworker.symm.trans hstage
  backingOff other attempts' until_ hstage := by
    obtain ⟨rfl, rfl, rfl⟩ := Stage.backingOff.inj (hworker.symm.trans hstage)
    exact ⟨hkept, rfl, hpauses, hfailed⟩

end Watched

/-! ## Pauses -/

namespace Worker

variable {connection : Connection σ α} {policy : Backoff} {attempts : Attempts} {number : Nat}

/-- **After a failure the worker pauses for as long as the schedule says**, or, if no time is left,
gives up. -/
lemma pause?_cases (htiming : policy.timing connection.timing = connection.timing)
    (hbackoff : attempts.backoff = .ofMillis (policy.full number)) :
    (pause? connection attempts
          = some (.ofMillis (policy.pause number (connection.now - attempts.started))) ∧
        ∀ limit, policy.limit? = some limit → connection.now - attempts.started < limit) ∨
      (pause? connection attempts = none ∧
        ∃ limit, policy.limit? = some limit ∧ limit ≤ connection.now - attempts.started) := by
  have hconnect : connection.timing.connectTimeout = policy.limit?.map .ofMillis := by
    rw [← htiming]
    rfl
  cases hlimit : policy.limit? with
  | none =>
      rw [hlimit] at hconnect
      refine .inl ⟨?_, by simp⟩
      simp only [pause?, hconnect, Option.map_none, hbackoff, Backoff.pause_of_none hlimit]
  | some limit =>
      rw [hlimit] at hconnect
      by_cases hover : limit ≤ connection.now - attempts.started
      · refine .inr ⟨?_, limit, rfl, hover⟩
        have hmicros : (Duration.ofMillis limit).micros
            ≤ (connection.now - attempts.started) * 1000 := Nat.mul_le_mul_right 1000 hover
        simp only [pause?, hconnect, Option.map_some, if_pos hmicros]
      · refine .inl ⟨?_, fun other hother => Option.some.inj hother ▸ Nat.lt_of_not_le hover⟩
        have hmicros : ¬ (Duration.ofMillis limit).micros
            ≤ (connection.now - attempts.started) * 1000 := by
          simp only [Duration.ofMillis]
          omega
        have hshorter : (Duration.ofMillis (policy.full number)).shorter
              ((Duration.ofMillis limit).minusTicks (connection.now - attempts.started))
            = .ofMillis
                (min (policy.full number) (limit - (connection.now - attempts.started))) := by
          simp only [Duration.shorter, Duration.minusTicks, Duration.ofMillis, Duration.mk.injEq]
          omega
        simp only [pause?, hconnect, Option.map_some, if_neg hmicros, hbackoff, hshorter,
          Backoff.pause_of_limit hlimit]

lemma backoff_nextAttempts (htiming : policy.timing connection.timing = connection.timing)
    (hbackoff : attempts.backoff = .ofMillis (policy.full (number + 1))) :
    (nextAttempts connection attempts).backoff = .ofMillis (policy.full (number + 2)) := by
  have hmost : connection.timing.maxBackoff = .ofMillis policy.most := by
    rw [← htiming]
    rfl
  rw [nextAttempts, hmost, hbackoff, ← Backoff.full_succ]
  simp only [Duration.doubled, Duration.shorter, Duration.ofMillis, Duration.mk.injEq]
  omega

end Worker

namespace Watched

variable {policy : Backoff} {w : Watched σ α} {item : Queued} {attempts : Attempts}

/-! ## Each trial keeps the pace -/

/-- What the worker keeps when a pause is over. -/
lemma Kept.next {started : Nat} {failures : List Failure} {connection : Connection σ α}
    (h : Kept policy started failures failures.length attempts)
    (htiming : policy.timing connection.timing = connection.timing) (hfailed : failures ≠ []) :
    Kept policy started failures (failures.length + 1)
      (Worker.nextAttempts connection attempts) where
  since := h.since
  backoff := by
    obtain ⟨failure, earlier, rfl⟩ := List.exists_cons_of_ne_nil hfailed
    exact Worker.backoff_nextAttempts htiming h.backoff
  time := h.time

/-- What is written down when the worker has the link in hand. -/
lemma happen_of_linked [Peer σ] (hworker : w.connection.worker = .linked item)
    (happening : Happening α) :
    w.happen happening
      = { connection := w.connection.happen happening, started := w.connection.now } := by
  simp only [happen, hworker]

/-- What is written down otherwise. -/
lemma happen_of_other [Peer σ] (hworker : ∀ item, w.connection.worker ≠ .linked item)
    (happening : Happening α) :
    w.happen happening
      = { connection := w.connection.happen happening
          started := w.started
          began := w.latest
          failures := (w.failure? happening).toList ++ w.failures } := by
  rw [happen]
  split
  · rename_i item hlinked
    exact absurd hlinked (hworker item)
  · rfl

/-- What is written down when no attempt fails. -/
lemma happen_of_none [Peer σ] {happening : Happening α}
    (hworker : ∀ item, w.connection.worker ≠ .linked item)
    (hfault : w.connection.failing? happening = none) :
    w.happen happening
      = { connection := w.connection.happen happening
          started := w.started
          began := w.latest
          failures := w.failures } := by
  rw [happen_of_other hworker, failure?, hfault]
  rfl

/-- While the worker waits for an attempt, or for the next one, it keeps the pace. -/
lemma paced_of_waiting (h : Paced policy w) {c' : Connection σ α}
    (htiming : policy.timing c'.timing = c'.timing) (hworker : c'.worker = w.connection.worker)
    (hnow : w.connection.now ≤ c'.now)
    (hstill : w.connection.worker.isRunning = true → c'.now = w.connection.now)
    (hdeadline : ∀ deadline, Worker.deadline? w.connection = some deadline →
      c'.now ≤ max deadline w.connection.now) :
    Paced policy ⟨c', w.started, w.latest, w.failures⟩ where
  timing := htiming
  course := h.course
  attempting item attempts hstage := by
    replace hstage : w.connection.worker = .attempting item attempts := hworker.symm.trans hstage
    obtain ⟨hkept, hdue⟩ := h.attempting item attempts hstage
    have hsame : c'.now = w.connection.now := hstill (by rw [hstage]; rfl)
    exact ⟨hkept, hsame.trans hdue⟩
  opening item attempts opensAt expiresAt hstage := by
    replace hstage : w.connection.worker = .opening item attempts opensAt expiresAt :=
      hworker.symm.trans hstage
    obtain ⟨hkept, hbegan, hexpires, hlater, hearlier⟩ := h.opening item attempts _ _ hstage
    have hlatest : w.latest = w.began := by simp only [latest, hstage]
    have hmax := hdeadline (min opensAt expiresAt) (by simp only [Worker.deadline?, hstage])
    refine ⟨hkept, hlatest.trans hbegan, hlatest.symm ▸ hexpires, ?_, ?_⟩
    · exact hlatest.symm ▸ Nat.le_trans hlater hnow
    · exact Nat.le_trans hmax (by omega)
  backingOff item attempts until_ hstage := by
    replace hstage : w.connection.worker = .backingOff item attempts until_ :=
      hworker.symm.trans hstage
    obtain ⟨hkept, hdue, hearlier, hfailed⟩ := h.backingOff item attempts until_ hstage
    have hmax := hdeadline until_ (by simp only [Worker.deadline?, hstage])
    exact ⟨hkept, hdue, Nat.le_trans hmax (by omega), hfailed⟩

/-- **An attempt that goes on** began when it was due, and has not taken too long. -/
lemma Paced.latest_eq_due (h : Paced policy w)
    (hworker : w.connection.worker.Trying item attempts) :
    Kept policy w.started w.failures (w.failures.length + 1) attempts ∧
      w.latest = policy.due w.started w.failures ∧ w.latest ≤ w.connection.now ∧
        w.connection.now ≤ w.latest + policy.read := by
  rcases hworker with hstage | ⟨opensAt, expiresAt, hstage⟩
  · obtain ⟨hkept, hdue⟩ := h.attempting item attempts hstage
    have hlatest : w.latest = w.connection.now := by simp only [latest, hstage]
    rw [hlatest]
    exact ⟨hkept, hdue, Nat.le_refl _, Nat.le_add_right _ _⟩
  · obtain ⟨hkept, hbegan, hexpires, hlater, hearlier⟩ := h.opening item attempts _ _ hstage
    have hlatest : w.latest = w.began := by simp only [latest, hstage]
    rw [hlatest]
    exact ⟨hkept, hbegan, hlater, hexpires ▸ hearlier⟩

/-- **A failed attempt keeps the pace**: the worker pauses until the next one is due, or stops. -/
lemma paced_of_failed (h : Paced policy w) {c' : Connection σ α} {fault : TransportFault}
    (htiming : policy.timing c'.timing = c'.timing) (hnow : c'.now = w.connection.now)
    (hbefore : w.connection.worker.Trying item attempts)
    (hafter : c'.worker = (Worker.attemptFailed w.connection item attempts fault).worker) :
    Paced policy
      ⟨c', w.started, w.latest, ⟨w.latest, w.connection.now, fault⟩ :: w.failures⟩ := by
  obtain ⟨hkept, hdue, hlater, hread⟩ := h.latest_eq_due hbefore
  have hstarted := h.course.started_le
  have hcourse : policy.Course w.started (⟨w.latest, w.connection.now, fault⟩ :: w.failures) :=
    .fail h.course hkept.time hdue hlater hread
  rcases Worker.pause?_cases h.timing hkept.backoff with ⟨hpause, hleft⟩ | ⟨hpause, -⟩
  · simp only [Worker.attemptFailed, hpause, Worker.moveTo, Duration.ticks_ofMillis,
      hkept.since] at hafter
    have htime : policy.HasTime w.started
        (⟨w.latest, w.connection.now, fault⟩ :: w.failures) := by
      intro limit hlimit failure hfailure
      rcases List.mem_cons.mp hfailure with rfl | hearlier
      · have hbelow := hleft limit hlimit
        rw [hkept.since] at hbelow
        show w.connection.now < w.started + limit
        omega
      · exact hkept.time limit hlimit failure hearlier
    exact .of_backingOff htiming hcourse hafter
      ⟨hkept.since, hkept.backoff, htime⟩
      (hnow ▸ Nat.le_add_right _ _) (List.cons_ne_nil _ _)
  · simp only [Worker.attemptFailed, hpause, Worker.moveTo] at hafter
    exact .of_elsewhere htiming hcourse (by rw [hafter]; rfl)

/-- **With the link in hand** the worker begins to reconnect, or does not have to. -/
lemma paced_of_linked (h : Paced policy w) {c' : Connection σ α} {fault : Option TransportFault}
    (hworker : w.connection.worker = .linked item) (htrial : Trial w.connection c' fault) :
    Paced policy ⟨c', w.connection.now, 0, []⟩ := by
  have htiming : policy.timing c'.timing = c'.timing := by
    rw [htrial.timing]
    exact h.timing
  have hleast : w.connection.timing.minBackoff = .ofMillis policy.least := by
    rw [← h.timing]
    rfl
  have haway : w.connection.worker.attempts? = none := by rw [hworker]; rfl
  cases htrial with
  | start hclock hbefore hafter =>
      have hkept : Kept policy w.connection.now [] 1
          ⟨w.connection.now, w.connection.timing.minBackoff⟩ :=
        { since := rfl
          backoff := by rw [hleast, ← Backoff.full_one]
          time := fun limit _ failure hfailure => absurd hfailure List.not_mem_nil }
      exact .of_attempting htiming .none hafter hkept (congrArg Prod.fst hclock)
  | rest _ hsame => exact .of_elsewhere htiming .none (hsame ▸ haway)
  | elsewhere _ _ hafter => exact .of_elsewhere htiming .none hafter
  | pass _ _ hsame _ _ => exact .of_elsewhere htiming .none (hsame ▸ haway)
  | opened _ _ hafter => exact .of_elsewhere htiming .none (by rw [hafter]; rfl)
  | interrupted _ _ _ hafter => exact .of_elsewhere htiming .none (by rw [hafter]; rfl)
  | wait _ hbefore _ => cases hworker.symm.trans hbefore
  | again _ hbefore _ _ => cases hworker.symm.trans hbefore
  | failed _ hbefore _ => cases haway.symm.trans hbefore.attempts?_eq

/-- A trial without a failure keeps the pace. -/
lemma paced_of_trial (h : Paced policy w) {c' : Connection σ α}
    (hlinked : ∀ item, w.connection.worker ≠ .linked item)
    (htrial : Trial w.connection c' none) :
    Paced policy ⟨c', w.started, w.latest, w.failures⟩ := by
  have htiming : policy.timing c'.timing = c'.timing := by
    rw [htrial.timing]
    exact h.timing
  have hread : w.connection.timing.readTimeout.ticks = policy.read := by
    rw [← h.timing]
    exact Duration.ticks_ofMillis policy.read
  cases htrial with
  | rest hclock hsame =>
      have hnow : c'.now = w.connection.now := congrArg Prod.fst hclock
      exact paced_of_waiting h htiming hsame (Nat.le_of_eq hnow.symm) (fun _ => hnow)
        fun deadline _ => by omega
  | pass hwaits _ hsame hdeadline hlater =>
      refine paced_of_waiting h htiming hsame hlater (fun hruns => ?_)
        fun deadline hwaited => Nat.le_trans (hdeadline deadline hwaited) (Nat.le_max_left _ _)
      rw [hwaits] at hruns
      cases hruns
  | start _ hbefore _ => exact absurd hbefore (hlinked _)
  | elsewhere _ _ hafter => exact .of_elsewhere htiming h.course hafter
  | opened _ _ hafter => exact .of_elsewhere htiming h.course (by rw [hafter]; rfl)
  | interrupted _ _ _ hafter => exact .of_elsewhere htiming h.course (by rw [hafter]; rfl)
  | wait hclock hbefore hafter =>
      obtain ⟨hkept, hdue⟩ := h.attempting _ _ hbefore
      have hnow : c'.now = w.connection.now := congrArg Prod.fst hclock
      have hlatest : w.latest = w.connection.now := by simp only [latest, hbefore]
      rw [hread, ← hlatest] at hafter
      refine .of_opening htiming h.course hafter hkept (hlatest.trans hdue) ?_ ?_
      · show w.latest ≤ c'.now
        omega
      · show c'.now ≤ w.latest + policy.read
        omega
  | again hclock hbefore hdue hafter =>
      obtain ⟨hkept, huntil, hearlier, hfailed⟩ := h.backingOff _ _ _ hbefore
      have hnow : c'.now = w.connection.now := congrArg Prod.fst hclock
      have hmoment : c'.now = policy.due w.started w.failures := by omega
      exact .of_attempting htiming h.course hafter (hkept.next h.timing hfailed) hmoment

/-- **Every happening keeps the pace.** -/
lemma paced_of_happen [Peer σ] (h : Paced policy w) (happening : Happening α) :
    Paced policy (w.happen happening) := by
  have htrial := trial_of_happening w.connection happening
  by_cases hlinked : ∃ item, w.connection.worker = .linked item
  · obtain ⟨item, hworker⟩ := hlinked
    rw [happen_of_linked hworker]
    exact paced_of_linked h hworker htrial
  · replace hlinked : ∀ item, w.connection.worker ≠ .linked item := fun item hworker =>
      hlinked ⟨item, hworker⟩
    cases hfault : w.connection.failing? happening with
    | none =>
        rw [hfault] at htrial
        rw [happen_of_none hlinked hfault]
        exact paced_of_trial h hlinked htrial
    | some fault =>
        rw [hfault] at htrial
        rw [happen_of_other hlinked, failure?, hfault]
        have htiming : policy.timing (w.connection.happen happening).timing
            = (w.connection.happen happening).timing := by
          rw [htrial.timing]
          exact h.timing
        cases htrial with
        | failed hclock hbefore hafter =>
            exact paced_of_failed h htiming (congrArg Prod.fst hclock) hbefore hafter

/-- **Every run keeps the pace.** -/
lemma paced_of_run [Peer σ] : ∀ (happenings : List (Happening α)) (w : Watched σ α),
    Paced policy w → Paced policy (w.run happenings)
  | [], _, h => h
  | happening :: happenings, w, h =>
      paced_of_run happenings (w.happen happening) (paced_of_happen h happening)

/-! ## The schedule of a run -/

/-- **How the worker is done with its attempts** for a request. -/
inductive Leaves (policy : Backoff) (w w' : Watched σ α) (item : Queued) : Prop where
  /-- The link is open. -/
  | opened (hworker : w'.connection.worker = .sending item) : Leaves policy w w' item
  /-- The request is not wanted any more, or the connection is to stop. -/
  | interrupted {error : Error} (hcause : w.connection.interruption? item = some error)
      (hworker : w'.connection.worker = .concluding item (.error error)) : Leaves policy w w' item
  /-- The time allowed is over when an attempt fails, and its fault is the result. -/
  | gaveUp {limit : Nat} {failure : Failure} (hlimit : policy.limit? = some limit)
      (hlast : w'.failures = failure :: w.failures)
      (hworker : w'.connection.worker = .concluding item (.error (.transport failure.fault)))
      (hover : w.started + limit ≤ failure.ended)
      (hread : failure.ended ≤ w.started + limit + policy.read) : Leaves policy w w' item

/-- **What a schedule promises** while the worker reconnects. -/
structure Scheduled [Peer σ] (policy : Backoff) (w : Watched σ α) : Prop where
  /-- Each attempt that failed had begun when it was due, and was over in time. -/
  course : policy.Course w.started w.failures
  /-- An attempt begins when it is due. -/
  begins : ∀ item attempts, w.connection.worker = .attempting item attempts →
    w.connection.now = policy.due w.started w.failures
  /-- An attempt that is going on began when it was due, and is not cut off too late. -/
  goesOn : ∀ item attempts opensAt expiresAt,
    w.connection.worker = .opening item attempts opensAt expiresAt →
      w.began = policy.due w.started w.failures ∧ w.began ≤ w.connection.now ∧
        w.connection.now ≤ expiresAt ∧ expiresAt = w.began + policy.read
  /-- A pause follows a failure, and ends when the next attempt is due. -/
  pauses : ∀ item attempts until_, w.connection.worker = .backingOff item attempts until_ →
    w.failures ≠ [] ∧ until_ = policy.due w.started w.failures ∧ w.connection.now ≤ until_
  /-- With a limit no attempt begins after it, there are only so many of them, and all of it is over
  one attempt later. -/
  limited : ∀ limit, policy.limit? = some limit →
    (∀ failure ∈ w.failures, failure.began ≤ w.started + limit) ∧
      (w.failures.length - 2) * policy.least < limit ∧
        (w.connection.worker.attempts?.isSome = true →
          policy.due w.started w.failures ≤ w.started + limit ∧
            w.connection.now ≤ w.started + limit + policy.read)
  /-- The worker never waits without a timer that is still going to fire. -/
  awake : w.connection.worker.attempts?.isSome = true → w.connection.isSettled = true →
    ∃ deadline, Worker.deadline? w.connection = some deadline ∧ w.connection.now < deadline
  /-- The worker is done with its attempts in one of three ways, without a limit in one of two. -/
  leaves : ∀ happening item attempts, w.connection.worker.attempts? = some (item, attempts) →
    (w.happen happening).connection.worker.attempts? = none →
      Leaves policy w (w.happen happening) item

/-- While the worker is at its attempts there is time for another one. -/
lemma Paced.hasTime (h : Paced policy w)
    (hworker : w.connection.worker.attempts? = some (item, attempts)) :
    policy.HasTime w.started w.failures ∧ ∀ limit, policy.limit? = some limit →
      w.connection.now ≤ w.started + limit + policy.read := by
  cases hstage : w.connection.worker with
  | attempting item' attempts' =>
      rw [hstage] at hworker
      obtain ⟨rfl, rfl⟩ := Prod.mk.inj (Option.some.inj hworker)
      obtain ⟨hkept, hdue⟩ := h.attempting _ _ hstage
      refine ⟨hkept.time, fun limit hlimit => ?_⟩
      have hbound := Backoff.due_le h.course hkept.time hlimit
      omega
  | opening item' attempts' opensAt expiresAt =>
      rw [hstage] at hworker
      obtain ⟨rfl, rfl⟩ := Prod.mk.inj (Option.some.inj hworker)
      obtain ⟨hkept, hbegan, hexpires, -, hearlier⟩ := h.opening _ _ _ _ hstage
      refine ⟨hkept.time, fun limit hlimit => ?_⟩
      have hbound := Backoff.due_le h.course hkept.time hlimit
      omega
  | backingOff item' attempts' until_ =>
      rw [hstage] at hworker
      obtain ⟨rfl, rfl⟩ := Prod.mk.inj (Option.some.inj hworker)
      obtain ⟨hkept, hdue, hearlier, -⟩ := h.backingOff _ _ _ hstage
      refine ⟨hkept.time, fun limit hlimit => ?_⟩
      have hbound := Backoff.due_le h.course hkept.time hlimit
      omega
  | _ =>
      rw [hstage] at hworker
      cases hworker

/-- **While it reconnects the worker is never stuck.** -/
lemma exists_deadline_of_settled [Peer σ] {connection : Connection σ α}
    (hworker : connection.worker.attempts?.isSome = true)
    (hsettled : connection.isSettled = true) :
    ∃ deadline, Worker.deadline? connection = some deadline ∧ connection.now < deadline := by
  have hwaits : Worker.step? connection = none := by
    rw [isSettled, Option.isNone_iff_eq_none, taskStep?, Option.orElse_eq_none] at hsettled
    exact hsettled.1
  cases hstage : connection.worker with
  | attempting item attempts => simp [Worker.step?, hstage] at hwaits
  | opening item attempts opensAt expiresAt =>
      simp only [Worker.step?, hstage, Worker.resumeExchange] at hwaits
      split at hwaits
      · simp at hwaits
      · split_ifs at hwaits
        exact ⟨min opensAt expiresAt, by simp only [Worker.deadline?, hstage], by omega⟩
  | backingOff item attempts until_ =>
      simp only [Worker.step?, hstage, Worker.resumeExchange] at hwaits
      split at hwaits
      · simp at hwaits
      · split_ifs at hwaits
        exact ⟨until_, by simp only [Worker.deadline?, hstage], by omega⟩
  | _ =>
      rw [hstage] at hworker
      cases hworker

/-- A failed attempt after which the worker is at no other one was the last there was time for. -/
lemma leaves_of_failed [Peer σ] (h : Paced policy w) {happening : Happening α}
    {fault : TransportFault} (hfault : w.connection.failing? happening = some fault)
    (hstage : w.connection.worker.Trying item attempts)
    (hworker : (w.connection.happen happening).worker
      = (Worker.attemptFailed w.connection item attempts fault).worker)
    (hafter : (w.connection.happen happening).worker.attempts? = none) :
    Leaves policy w (w.happen happening) item := by
  obtain ⟨hkept, hdue, hlater, hread⟩ := h.latest_eq_due hstage
  have hlinked (other : Queued) : w.connection.worker ≠ .linked other := fun hworker => by
    have hattempts := hstage.attempts?_eq
    rw [hworker] at hattempts
    cases hattempts
  rcases Worker.pause?_cases h.timing hkept.backoff with
    ⟨hpause, -⟩ | ⟨hpause, limit, hlimit, hover⟩
  · simp only [Worker.attemptFailed, hpause, Worker.moveTo] at hworker
    rw [hworker] at hafter
    cases hafter
  · simp only [Worker.attemptFailed, hpause, Worker.moveTo] at hworker
    rw [hkept.since] at hover
    have hstarted := h.course.started_le
    have hbound := Backoff.due_le h.course hkept.time hlimit
    have hlast : (w.happen happening).failures
        = ⟨w.latest, w.connection.now, fault⟩ :: w.failures := by
      rw [happen_of_other hlinked, failure?, hfault]
      rfl
    refine .gaveUp hlimit hlast (by rw [connection_happen, hworker]) ?_ ?_
    · show w.started + limit ≤ w.connection.now
      omega
    · show w.connection.now ≤ w.started + limit + policy.read
      omega

/-- **The ways out.** -/
lemma leaves_of_paced [Peer σ] (h : Paced policy w) (happening : Happening α)
    (hbefore : w.connection.worker.attempts? = some (item, attempts))
    (hafter : (w.happen happening).connection.worker.attempts? = none) :
    Leaves policy w (w.happen happening) item := by
  rw [connection_happen] at hafter
  have htrial := trial_of_happening w.connection happening
  generalize hfault : w.connection.failing? happening = fault at htrial
  cases htrial with
  | rest _ hsame =>
      rw [hsame, hbefore] at hafter
      cases hafter
  | pass _ _ hsame _ _ =>
      rw [hsame, hbefore] at hafter
      cases hafter
  | elsewhere _ haway _ => cases hbefore.symm.trans haway
  | start _ hlinked _ =>
      rw [hlinked] at hbefore
      cases hbefore
  | wait _ _ hworker =>
      rw [hworker] at hafter
      cases hafter
  | again _ _ _ hworker =>
      rw [hworker] at hafter
      cases hafter
  | opened _ hattempts hworker =>
      obtain ⟨rfl, -⟩ := Prod.mk.inj (Option.some.inj (hbefore.symm.trans hattempts))
      exact .opened (by rw [connection_happen, hworker])
  | interrupted _ hattempts hcause hworker =>
      obtain ⟨rfl, -⟩ := Prod.mk.inj (Option.some.inj (hbefore.symm.trans hattempts))
      exact .interrupted hcause (by rw [connection_happen, hworker])
  | failed _ hstage hworker =>
      obtain ⟨rfl, rfl⟩ := Prod.mk.inj (Option.some.inj (hbefore.symm.trans hstage.attempts?_eq))
      exact leaves_of_failed h hfault hstage hworker hafter

/-- A worker that keeps the pace keeps to the schedule. -/
lemma Paced.scheduled [Peer σ] (h : Paced policy w) : Scheduled policy w where
  course := h.course
  begins item attempts hworker := (h.attempting item attempts hworker).2
  goesOn item attempts opensAt expiresAt hworker := by
    obtain ⟨-, hbegan, hexpires, hlater, hearlier⟩ := h.opening item attempts _ _ hworker
    exact ⟨hbegan, hlater, hearlier, hexpires⟩
  pauses item attempts until_ hworker := by
    obtain ⟨-, huntil, hearlier, hfailed⟩ := h.backingOff item attempts until_ hworker
    exact ⟨hfailed, huntil, hearlier⟩
  limited limit hlimit := by
    refine ⟨fun failure hfailure => (h.course.within hlimit failure hfailure).1,
      h.course.length_lt hlimit, fun hworker => ?_⟩
    obtain ⟨⟨item, attempts⟩, hattempts⟩ := Option.isSome_iff_exists.mp hworker
    obtain ⟨htime, hnow⟩ := h.hasTime hattempts
    exact ⟨Backoff.due_le h.course htime hlimit, hnow limit hlimit⟩
  awake := exists_deadline_of_settled
  leaves happening item attempts := leaves_of_paced h happening

/-- **Reconnecting keeps to its schedule**, whatever happens to a connection whose policy is one.
Between two attempts the link can become slower or refuse more often (`Action.slow`,
`Action.refuse`), so each attempt may end in its own way. -/
theorem backoff_of_run [Peer σ] (policy : Backoff) (rest : Timing) (name : String)
    (framing : Framing) (wire : Wire σ) (happenings : List (Happening α)) :
    let initial : Connection σ α := create name (policy.timing rest) framing wire
    let w := run ⟨initial, 0, 0, []⟩ happenings
    w.connection = initial.runOver happenings ∧ Scheduled policy w := by
  intro initial w
  have hinitial : Paced policy (⟨initial, 0, 0, []⟩ : Watched σ α) :=
    .of_elsewhere rfl .none rfl
  exact ⟨connection_run happenings _, (paced_of_run happenings _ hinitial).scheduled⟩

/-- The second attempt is cut off, the third pause is as long as pauses get, and the last one is cut
short by the limit. -/
example :
    let policy : Backoff := {
      least := 100, most := 200, read := 50, limit? := some 600
      least_pos := by decide, least_le_most := by decide, read_pos := by decide
      limit_pos := by simp }
    let ask : Operation Bytes := .invoke [0x0A] (fun _ => true) .done
    let initial : Connection Responder Bytes :=
      create "link" (policy.timing .network) .rtu { peer := .silent, refusals := 9 }
    let moves (count : Nat) : List (Action Bytes) := List.replicate count .worker
    let w := Watched.run ⟨initial, 0, 0, []⟩ (List.map Happening.act (
      [.start ask false, .caller 0] ++ moves 5 ++ [.timer .rearmed, .slow 80, .advance 100]
        ++ moves 2 ++ [.advance 150] ++ moves 1 ++ [.slow 0, .advance 350] ++ moves 2
        ++ [.advance 550] ++ moves 2 ++ [.advance 600] ++ moves 2))
    w.failures.map (fun failure => (failure.began, failure.ended))
        = [(600, 600), (550, 550), (350, 350), (100, 150), (0, 0)] ∧
      w.connection.worker.attempts? = none := by
  cbv

end Watched

end Modbus.Connection
