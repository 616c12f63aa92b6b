import Mathlib.Tactic.Common
import Modbus.Connection.Session

/-!
# Coming to rest

Between two requests a connection comes to rest: the worker parks, and the idle timer waits for a
deadline that is still to come.  On the way the idle timer may close a link that was not used for
too long; everything else stays as it was (`Connection.rests`).

`Connection.settle` makes moves until none is possible, at most so many.  `Proceeds` is a number of
moves one after the other, each the first that is possible, and `Proceeds.settle_eq` replaces
settling by the state that the moves lead to.  Which task moves is known from where the tasks are:
the worker first, then the idle timer, and the last caller when both wait (`taskStep?_worker`,
`taskStep?_timer`, `taskStep?_caller`).
-/

namespace Modbus

namespace Queue

variable (queue : Queue)

lemma poll_nil (hwaiter : queue.signal.waiter ≠ .waiting) (hitems : queue.items = []) :
    queue.poll = (none, { queue with signal := ⟨false, .waiting⟩ }) := by
  simp only [poll, hitems]

lemma poll_cons {item : Queued} {rest : List Queued} (hwaiter : queue.signal.waiter ≠ .waiting)
    (hitems : queue.items = item :: rest) :
    queue.poll = (some item, { queue with items := rest, signal := queue.signal.resume }) := by
  simp only [poll, hitems]

end Queue

namespace Clocked

variable {τ : Type} [Clocked τ]

/-- Waiting without a limit: settle, and if that is not enough go on to the next timer. -/
lemma passWithin_none (stop : τ → Bool) (timers : Nat) (system : τ) :
    passWithin stop none (timers + 1) system =
      if stop (settle system) then settle system
      else (nextDeadline? (settle system)).elim (settle system) fun deadline =>
        passWithin stop none timers (advance (settle system) deadline) := by
  cases h : nextDeadline? (settle system) <;> simp [passWithin, h]

/-- Waiting for a while, whatever happens: settle, and go on to the next timer if it is in time. -/
lemma passWithin_some (target timers : Nat) (system : τ) :
    passWithin (fun _ => false) (some target) (timers + 1) system =
      (nextDeadline? (settle system)).elim (settle (advance (settle system) target))
        fun deadline =>
          if target < deadline then settle (advance (settle system) target)
          else passWithin (fun _ => false) (some target) timers
            (advance (settle system) deadline) := by
  cases h : nextDeadline? (settle system) <;> simp [passWithin, h]

end Clocked

namespace Connection

variable {σ α : Type}

/-! ## Moves one after the other -/

/-- **So many moves of the tasks**, each the first one that is possible. -/
inductive Proceeds [Peer σ] : Nat → Connection σ α → Connection σ α → Prop where
  | refl (connection : Connection σ α) : Proceeds 0 connection connection
  | step {count : Nat} {connection moved last : Connection σ α}
      (hstep : connection.taskStep? = some moved) (hlater : Proceeds count moved last) :
      Proceeds (count + 1) connection last

namespace Proceeds

variable [Peer σ] {first middle last : Connection σ α} {count more : Nat}

lemma one (h : first.taskStep? = some last) : Proceeds 1 first last :=
  .step h (.refl last)

lemma trans (h : Proceeds count first middle) (h' : Proceeds more middle last) :
    Proceeds (count + more) first last := by
  induction h with
  | refl _ => rwa [Nat.zero_add]
  | step hstep _ ih =>
      rw [Nat.add_right_comm]
      exact .step hstep (ih h')

lemma settleWithin_eq (h : Proceeds count first last) (more : Nat) :
    settleWithin (count + more) first = settleWithin more last := by
  induction h with
  | refl _ => rw [Nat.zero_add]
  | step hstep _ ih =>
      rw [Nat.add_right_comm, settleWithin, hstep]
      exact ih

/-- **Where the moves end is where a connection settles**, if there are not too many of them. -/
lemma settle_eq (h : Proceeds count first last) (hrest : last.taskStep? = none)
    (hcount : count ≤ Clocked.patience) : settle first = last := by
  obtain ⟨more, hmore⟩ := Nat.exists_eq_add_of_le hcount
  rw [settle, hmore, h.settleWithin_eq]
  cases more with
  | zero => rfl
  | succ more => rw [settleWithin, hrest]

end Proceeds

/-! ## Connections at rest -/

/-- **A worker that waits**: for a request, or for the end of its guard time. -/
inductive Parked : Stage → Queue → Nat → Prop where
  | waiting {queue : Queue} {now : Nat} (hwaiter : queue.signal.waiter = .waiting) :
      Parked .fetching queue now
  | guarding {until_ : Nat} {queue : Queue} {now : Nat} (hearly : now < until_) :
      Parked (.guarding until_) queue now

/-- **An idle timer that waits** for the deadline that is set, or is about to. -/
inductive Watchable : Watch → Signal → Option Nat → Prop where
  | looking {idle : Option Nat} : Watchable .looking {} idle
  | woken {deadline idle : Option Nat} : Watchable (.watching deadline) ⟨false, .woken⟩ idle
  | watching {idle : Option Nat} : Watchable (.watching idle) ⟨false, .waiting⟩ idle

/-- An idle timer that watches a deadline still to come. -/
structure Calm (connection : Connection σ α) : Prop where
  timer : connection.timer = .watching connection.idleDeadline
  rearmed : connection.rearmed = ⟨false, .waiting⟩
  early : ∀ deadline, connection.idleDeadline = some deadline → connection.now < deadline

/-- **A connection in working order**: nobody disposes of it, nobody has the link, nothing stands in
the way of opening it, and nothing is on its way. -/
structure Sound (connection : Connection σ α) : Prop where
  running : connection.shutdown = false
  undisposed : connection.disposal = .untouched
  accepting : connection.queue.closed = false
  free : connection.link = {}
  willing : connection.wire.refusals = 0
  prompt : connection.wire.openDelay = 0
  empty : connection.wire.arriving = []

/-- **What the idle timer may change**: its own position, the deadline, and whether the link is
open. -/
def Tended (before after : Connection σ α) : Prop :=
  ∃ timer rearmed idleDeadline connected state history,
    after = { before with
      timer, rearmed, idleDeadline, state, history
      wire := { before.wire with connected } }

lemma Tended.refl (connection : Connection σ α) : Tended connection connection :=
  ⟨connection.timer, connection.rearmed, connection.idleDeadline, connection.wire.connected,
    connection.state, connection.history, rfl⟩

lemma Tended.trans {first middle last : Connection σ α} (h : Tended first middle)
    (h' : Tended middle last) : Tended first last := by
  obtain ⟨_, _, _, _, _, _, rfl⟩ := h
  obtain ⟨_, _, _, _, _, _, rfl⟩ := h'
  exact ⟨_, _, _, _, _, _, rfl⟩

lemma Tended.now_eq {before after : Connection σ α} (h : Tended before after) :
    after.now = before.now := by
  obtain ⟨_, _, _, _, _, _, rfl⟩ := h
  rfl

lemma Sound.of_tended {before after : Connection σ α} (h : Sound before)
    (htended : Tended before after) : Sound after := by
  obtain ⟨_, _, _, _, _, _, rfl⟩ := htended
  exact { h with }

/-- **A connection at rest**: nothing is queued, and its tasks wait. -/
structure Resting (connection : Connection σ α) : Prop where
  sound : Sound connection
  items : connection.queue.items = []
  parked : Parked connection.worker connection.queue connection.now
  calm : Calm connection

lemma Parked.idle {worker : Stage} {queue : Queue} {now : Nat} (h : Parked worker queue now) :
    worker = .fetching ∨ ∃ until_, worker = .guarding until_ := by
  cases h with
  | waiting _ => exact .inl rfl
  | guarding _ => exact .inr ⟨_, rfl⟩

/-- The moves of callers do not disturb a connection at rest. -/
lemma Resting.with_calls {connection : Connection σ α} (h : Resting connection) (codec : Codec)
    (calls : List (Call α)) (history : List Entry) :
    Resting { connection with codec, calls, history } :=
  ⟨{ h.sound with }, h.items, h.parked, ⟨h.calm.timer, h.calm.rearmed, h.calm.early⟩⟩

/-- **A connection with nothing to do**, at rest or about to be. -/
structure Quiet (connection : Connection σ α) : Prop extends Sound connection where
  items : connection.queue.items = []
  idle : connection.worker = .fetching ∨ ∃ until_, connection.worker = .guarding until_
  watch : Watchable connection.timer connection.rearmed connection.idleDeadline
  ended : ∀ call ∈ connection.calls, call.isOver = true

/-- A new connection has nothing to do. -/
lemma quiet_create (name : String) (timing : Timing) (framing : Framing) (peer : σ) :
    Quiet (create name timing framing { peer } : Connection σ α) where
  running := rfl
  undisposed := rfl
  accepting := rfl
  free := rfl
  willing := rfl
  prompt := rfl
  empty := rfl
  items := rfl
  idle := .inl rfl
  watch := .looking
  ended := by simp [create]

lemma Resting.quiet {connection : Connection σ α} (h : Resting connection)
    (hover : ∀ call ∈ connection.calls, call.isOver = true) : Quiet connection where
  toSound := h.sound
  items := h.items
  idle := h.parked.idle
  watch := by
    rw [h.calm.timer, h.calm.rearmed]
    exact .watching
  ended := hover

/-- **A connection left to itself**: it still has nothing to do, and neither its transaction numbers
nor the far end have changed. -/
structure Undisturbed (before after : Connection σ α) : Prop where
  quiet : Quiet after
  codec : after.codec = before.codec
  peer : after.wire.peer = before.wire.peer

lemma Undisturbed.trans {first middle last : Connection σ α} (h : Undisturbed first middle)
    (h' : Undisturbed middle last) : Undisturbed first last :=
  ⟨h'.quiet, h'.codec.trans h.codec, h'.peer.trans h.peer⟩

/-! ## Which task moves -/

section Tasks

variable {connection : Connection σ α}

lemma timer_calm (h : Calm connection) (hrunning : connection.shutdown = false) :
    IdleTimer.wakeups.findSome? (IdleTimer.step? connection) = none := by
  have hdeadline : IdleTimer.wake? connection connection.idleDeadline .deadline = none := by
    cases hidle : connection.idleDeadline with
    | none => rfl
    | some deadline => simp [IdleTimer.wake?, Nat.not_le.mpr (h.early deadline hidle)]
  simp only [IdleTimer.wakeups, IdleTimer.step?, h.timer, List.findSome?_cons, hdeadline,
    List.findSome?_nil]
  simp [IdleTimer.wake?, hrunning, h.rearmed]

/-- A call that is over does not move. -/
lemma caller_over {id : Nat}
    (hover : ∀ call, connection.calls[id]? = some call → call.isOver = true) :
    Caller.step? connection id = none := by
  cases hcall : connection.calls[id]? with
  | none => simp only [Caller.step?, hcall]
  | some call =>
      have hover' := hover call hcall
      obtain ⟨cancelled, progress⟩ := call
      cases progress with
      | running _ => simp [Call.isOver] at hover'
      | waiting _ _ _ => simp [Call.isOver] at hover'
      | finished _ => simp only [Caller.step?, hcall]
      | dropped => simp only [Caller.step?, hcall]

/-- Of the calls only the last can move, if the others are over. -/
lemma caller_last {earlier : List (Call α)} {call : Call α}
    (hcalls : connection.calls = earlier ++ [call]) (hover : ∀ call ∈ earlier, call.isOver = true) :
    (List.range connection.calls.length).findSome? (Caller.step? connection)
      = Caller.step? connection earlier.length := by
  have hearlier : (List.range earlier.length).findSome? (Caller.step? connection) = none := by
    rw [List.findSome?_eq_none_iff]
    intro id hid
    refine caller_over fun call hcall => ?_
    rw [hcalls, List.getElem?_append_left (List.mem_range.mp hid)] at hcall
    exact hover call (List.mem_of_getElem? hcall)
  rw [hcalls, List.length_append, List.length_singleton, List.range_succ, List.findSome?_append,
    hearlier, Option.none_or]
  simp

lemma worker_parked [Peer σ] (h : Parked connection.worker connection.queue connection.now)
    (hrunning : connection.shutdown = false) : Worker.step? connection = none := by
  generalize hworker : connection.worker = worker at h
  cases h with
  | waiting hwaiter => simp [Worker.step?, hworker, Worker.fetch?, hrunning, hwaiter]
  | guarding hearly => simp [Worker.step?, hworker, hrunning, Nat.not_le.mpr hearly]

variable [Peer σ] {moved : Connection σ α}

lemma taskStep?_worker (h : Worker.step? connection = some moved) :
    connection.taskStep? = some moved := by
  rw [taskStep?, h]
  rfl

lemma taskStep?_timer (hparked : Parked connection.worker connection.queue connection.now)
    (hrunning : connection.shutdown = false)
    (h : IdleTimer.wakeups.findSome? (IdleTimer.step? connection) = some moved) :
    connection.taskStep? = some moved := by
  rw [taskStep?, worker_parked hparked hrunning, h]
  rfl

/-- **With the worker parked and the idle timer calm**, the move is up to the caller. -/
lemma taskStep?_caller (hsound : Sound connection)
    (hparked : Parked connection.worker connection.queue connection.now) (hcalm : Calm connection)
    {earlier : List (Call α)} {call : Call α} (hcalls : connection.calls = earlier ++ [call])
    (hover : ∀ call ∈ earlier, call.isOver = true) :
    connection.taskStep? = Caller.step? connection earlier.length := by
  rw [taskStep?, worker_parked hparked hsound.running, timer_calm hcalm hsound.running,
    caller_last hcalls hover]
  simp [Disposing.step?, hsound.undisposed]

/-- **With every call over**, nothing moves at all. -/
lemma Resting.taskStep?_over (h : Resting connection)
    (hover : ∀ call ∈ connection.calls, call.isOver = true) : connection.taskStep? = none := by
  have hcallers : (List.range connection.calls.length).findSome? (Caller.step? connection)
      = none := by
    rw [List.findSome?_eq_none_iff]
    intro id _
    exact caller_over fun call hcall => hover call (List.mem_of_getElem? hcall)
  rw [taskStep?, worker_parked h.parked h.sound.running, timer_calm h.calm h.sound.running,
    hcallers]
  simp [Disposing.step?, h.sound.undisposed]

end Tasks

variable [Peer σ] {connection : Connection σ α}

/-! ## Between requests -/

/-- The idle timer begins to watch the deadline that is set. -/
lemma looks (hparked : Parked connection.worker connection.queue connection.now)
    (hrunning : connection.shutdown = false) (htimer : connection.timer = .looking)
    (hrearmed : connection.rearmed = {}) :
    connection.taskStep? = some { connection with
      timer := .watching connection.idleDeadline
      rearmed := ⟨false, .waiting⟩ } := by
  refine taskStep?_timer hparked hrunning ?_
  simp [IdleTimer.wakeups, IdleTimer.step?, htimer, Signal.await, hrearmed]

/-- A link whose deadline has passed is closed in two moves. -/
lemma expires (hsound : Sound connection)
    (hparked : Parked connection.worker connection.queue connection.now) {deadline : Nat}
    (htimer : connection.timer = .watching (some deadline))
    (hrearmed : connection.rearmed = ⟨false, .waiting⟩)
    (hidle : connection.idleDeadline = some deadline) (hdue : deadline ≤ connection.now) :
    ∃ connected state history, Proceeds 2 connection { connection with
      timer := .looking
      rearmed := {}
      idleDeadline := none
      wire := { connection.wire with connected }
      state, history } := by
  have hasked : connection.taskStep? = some { connection with
      timer := .awaitingLink deadline
      rearmed := {}
      link := ⟨some .idleTimer, []⟩ } := by
    refine taskStep?_timer hparked hsound.running ?_
    simp [IdleTimer.wakeups, IdleTimer.step?, IdleTimer.wake?, htimer, hsound.running, hrearmed,
      hdue, hsound.free, Signal.withdraw, LinkLock.request]
  refine ⟨false, if connection.wire.connected then .disconnected else connection.state,
    if connection.wire.connected then ⟨connection.now, .wire .closed⟩ ::
      ⟨connection.now, .expired⟩ :: connection.history else connection.history,
    .step hasked (.one (taskStep?_timer hparked hsound.running ?_))⟩
  cases hopen : connection.wire.connected <;>
    simp [IdleTimer.wakeups, IdleTimer.step?, LinkLock.isHeldBy, IdleTimer.expire, hidle, hopen,
      note, closeLink, perform, Wire.close, releaseLink, LinkLock.release, hsound.empty,
      hsound.free]
  rw [← hopen, ← hsound.empty]

/-- **The idle timer comes to wait** within so many moves, for the deadline that was set or, once it
has closed the link, for none. -/
def Calms (connection : Connection σ α) (limit : Nat) : Prop :=
  ∃ count last, count ≤ limit ∧ Proceeds count connection last ∧ Tended connection last ∧
    Calm last ∧ (last.idleDeadline = none ∨ last.idleDeadline = connection.idleDeadline)

lemma Calms.mono {limit larger : Nat} (h : Calms connection limit) (hle : limit ≤ larger) :
    Calms connection larger := by
  obtain ⟨count, last, hcount, h⟩ := h
  exact ⟨count, last, by omega, h⟩

lemma Calms.of_step {moved : Connection σ α} {limit : Nat}
    (hstep : connection.taskStep? = some moved) (htended : Tended connection moved)
    (hidle : moved.idleDeadline = connection.idleDeadline) (h : Calms moved limit) :
    Calms connection (limit + 1) := by
  obtain ⟨count, last, hcount, hlater, htended', hcalm, hidle'⟩ := h
  exact ⟨count + 1, last, by omega, .step hstep hlater, htended.trans htended', hcalm,
    hidle ▸ hidle'⟩

lemma calms_of_watching (hsound : Sound connection)
    (hparked : Parked connection.worker connection.queue connection.now)
    (htimer : connection.timer = .watching connection.idleDeadline)
    (hrearmed : connection.rearmed = ⟨false, .waiting⟩) : Calms connection 3 := by
  by_cases hdue : ∃ deadline, connection.idleDeadline = some deadline ∧ deadline ≤ connection.now
  · obtain ⟨deadline, hidle, hdue⟩ := hdue
    obtain ⟨connected, state, history, hclosed⟩ :=
      expires hsound hparked (hidle ▸ htimer) hrearmed hidle hdue
    exact ⟨3, _, Nat.le_refl 3, hclosed.trans (.one (looks hparked hsound.running rfl rfl)),
      ⟨_, _, _, _, _, _, rfl⟩, ⟨rfl, rfl, by simp⟩, .inl rfl⟩
  · simp only [not_exists, not_and, Nat.not_le] at hdue
    exact ⟨0, connection, Nat.zero_le 3, .refl _, .refl _, ⟨htimer, hrearmed, hdue⟩, .inr rfl⟩

lemma calms_of_looking (hsound : Sound connection)
    (hparked : Parked connection.worker connection.queue connection.now)
    (htimer : connection.timer = .looking) (hrearmed : connection.rearmed = {}) :
    Calms connection 4 := by
  have htended : Tended connection { connection with
      timer := .watching connection.idleDeadline
      rearmed := ⟨false, .waiting⟩ } := ⟨_, _, _, _, _, _, rfl⟩
  exact .of_step (looks hparked hsound.running htimer hrearmed) htended rfl
    (calms_of_watching (hsound.of_tended htended) hparked rfl rfl)

/-- **With the worker parked the idle timer comes to wait.** -/
lemma calms (hsound : Sound connection)
    (hparked : Parked connection.worker connection.queue connection.now)
    (hwatch : Watchable connection.timer connection.rearmed connection.idleDeadline) :
    Calms connection 5 := by
  generalize htimer : connection.timer = timer at hwatch
  generalize hrearmed : connection.rearmed = rearmed at hwatch
  generalize hidle : connection.idleDeadline = idle at hwatch
  cases hwatch with
  | looking => exact (calms_of_looking hsound hparked htimer hrearmed).mono (by omega)
  | woken =>
      have htended : Tended connection { connection with timer := .looking, rearmed := {} } :=
        ⟨_, _, _, _, _, _, rfl⟩
      refine .of_step (taskStep?_timer hparked hsound.running ?_) htended rfl
        (calms_of_looking (hsound.of_tended htended) hparked rfl rfl)
      simp [IdleTimer.wakeups, IdleTimer.step?, IdleTimer.wake?, htimer, hsound.running, hrearmed,
        Signal.resume]
  | watching =>
      exact (calms_of_watching hsound hparked (hidle ▸ htimer) hrearmed).mono (by omega)

/-- **The worker comes to wait**, with nothing queued, and leaves everything else alone. -/
def Parks (connection : Connection σ α) (limit : Nat) : Prop :=
  ∃ count worker signal, count ≤ limit ∧
    Parked worker { connection.queue with signal } connection.now ∧
    Proceeds count connection { connection with
      worker
      queue := { connection.queue with signal } }

lemma parks_of_fetching (hsound : Sound connection) (hitems : connection.queue.items = [])
    (hworker : connection.worker = .fetching) : Parks connection 1 := by
  by_cases hwaiter : connection.queue.signal.waiter = .waiting
  · refine ⟨0, .fetching, connection.queue.signal, Nat.zero_le 1, .waiting hwaiter, ?_⟩
    rw [← hworker]
    exact .refl connection
  · refine ⟨1, .fetching, ⟨false, .waiting⟩, Nat.le_refl 1, .waiting rfl,
      .one (taskStep?_worker ?_)⟩
    simp only [Worker.step?, hworker, Worker.fetch?, hsound.running, hwaiter, if_false,
      Bool.false_eq_true, connection.queue.poll_nil hwaiter hitems]

lemma parks (hsound : Sound connection) (hitems : connection.queue.items = [])
    (hworker : connection.worker = .fetching ∨ ∃ until_, connection.worker = .guarding until_) :
    Parks connection 2 := by
  rcases hworker with hworker | ⟨until_, hworker⟩
  · obtain ⟨count, worker, signal, hcount, h⟩ := parks_of_fetching hsound hitems hworker
    exact ⟨count, worker, signal, by omega, h⟩
  · by_cases hearly : connection.now < until_
    · refine ⟨0, .guarding until_, connection.queue.signal, Nat.zero_le 2, .guarding hearly, ?_⟩
      rw [← hworker]
      exact .refl connection
    · have hstep : connection.taskStep? = some { connection with worker := .fetching } := by
        refine taskStep?_worker ?_
        simp [Worker.step?, hworker, hsound.running, Nat.not_lt.mp hearly, Worker.moveTo]
      have hsound' : Sound { connection with worker := .fetching } :=
        { hsound with }
      obtain ⟨count, worker, signal, hcount, hparked, hlater⟩ :=
        parks_of_fetching hsound' hitems rfl
      exact ⟨count + 1, worker, signal, by omega, hparked, .step hstep hlater⟩

/-- **With nothing queued a connection comes to rest**: first the worker, then the idle timer. -/
lemma rests (hsound : Sound connection) (hitems : connection.queue.items = [])
    (hworker : connection.worker = .fetching ∨ ∃ until_, connection.worker = .guarding until_)
    (hwatch : Watchable connection.timer connection.rearmed connection.idleDeadline) :
    ∃ count last, count ≤ 7 ∧ Proceeds count connection last ∧ Resting last ∧
      last.calls = connection.calls ∧ last.codec = connection.codec ∧
      last.wire.peer = connection.wire.peer := by
  obtain ⟨count, worker, signal, hcount, hparked, hmoves⟩ := parks hsound hitems hworker
  have hsound' : Sound { connection with
      worker
      queue := { connection.queue with signal } } :=
    { hsound with }
  obtain ⟨more, last, hmore, hlater, htended, hcalm, -⟩ := calms hsound' hparked hwatch
  have hsound'' := hsound'.of_tended htended
  obtain ⟨_, _, _, _, _, _, rfl⟩ := htended
  exact ⟨count + more, _, by omega, hmoves.trans hlater, ⟨hsound'', hitems, hparked, hcalm⟩,
    rfl, rfl, rfl⟩

/-! ## Time passing at rest -/

namespace Quiet

lemma settle (h : Quiet connection) : Undisturbed connection connection.settle := by
  obtain ⟨count, last, hcount, hmoves, hresting, hcalls, hcodec, hpeer⟩ :=
    rests h.toSound h.items h.idle h.watch
  have hover : ∀ call ∈ last.calls, call.isOver = true := hcalls ▸ h.ended
  have hpatience : (7 : Nat) ≤ Clocked.patience := by simp [Clocked.patience]
  rw [hmoves.settle_eq (hresting.taskStep?_over hover) (by omega)]
  exact ⟨hresting.quiet hover, hcodec, hpeer⟩

lemma advance (h : Quiet connection) (now : Nat) :
    Undisturbed connection (connection.advance now) := by
  rw [Connection.advance]
  split_ifs
  · exact ⟨{ h with }, rfl, rfl⟩
  · exact ⟨h, rfl, rfl⟩

/-- **A connection that sleeps** comes to no harm. -/
lemma sleep (h : Quiet connection) (millis : Nat) :
    Undisturbed connection (Clocked.sleep connection millis) := by
  suffices hpass : ∀ (timers target : Nat) (connection : Connection σ α), Quiet connection →
      Undisturbed connection
        (Clocked.passWithin (fun _ => false) (some target) timers connection) from
    hpass Clocked.patience _ connection h
  intro timers target
  induction timers with
  | zero => exact fun connection h => ⟨h, rfl, rfl⟩
  | succ timers ih =>
      intro connection h
      have hsettled := h.settle
      have hover (now : Nat) : Undisturbed connection ((connection.settle.advance now).settle) :=
        have hadvanced := hsettled.trans (hsettled.quiet.advance now)
        hadvanced.trans hadvanced.quiet.settle
      have hon (now : Nat) : Undisturbed connection (Clocked.passWithin (fun _ => false)
          (some target) timers (connection.settle.advance now)) :=
        have hadvanced := hsettled.trans (hsettled.quiet.advance now)
        hadvanced.trans (ih _ hadvanced.quiet)
      rw [Clocked.passWithin_some]
      cases Clocked.nextDeadline? (Clocked.settle connection) with
      | none => exact hover target
      | some deadline =>
          rw [Option.elim_some]
          split_ifs
          · exact hover target
          · exact hon deadline

end Quiet

end Connection

end Modbus
