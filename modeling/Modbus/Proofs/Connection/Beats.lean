import Modbus.Proofs.Connection.Attempting
import Modbus.Proofs.Connection.Docket
import Modbus.Proofs.Connection.Exclusive
import Modbus.Proofs.Connection.Shifts

/-!
# The beat of the worker

The worker takes a request, has it in its hands until its result is delivered, pauses, and takes the
next one.  A `Beat` is everything that one happening can do to this round, with the clock and with
what is added to the history: nothing that the worker does on the link (`isUse`) is added but for a
request in its hands, and only a delivery takes that out of them.

Every happening is a beat (`beat_of_happening`).  Most of them do no more than to add something to
the history while time stands still (`Notes`); of the worker's moves that is shown function by
function, with the request that stays in its hands (`Works`).
-/

namespace Modbus.Connection

variable {σ α : Type}

/-! ## What is added to the history -/

/-- **What the worker does on the link**, and nobody else: it tries to open it, sends and reads. -/
def isUse : Occurrence → Bool
  | .attempted => true
  | .wire .opened => true
  | .wire .refused => true
  | .wire (.sent _) => true
  | .wire (.received _) => true
  | _ => false

/-- What is not the worker's doing: the link is not used, and no result delivered. -/
def IsForeign (occurrence : Occurrence) : Prop :=
  isUse occurrence = false ∧ isDelivered occurrence = false

/-- What happens before a result is delivered. -/
def IsInterim (occurrence : Occurrence) : Prop :=
  isDelivered occurrence = false

/-- **Time stands still, and nothing is added to the history but what may happen.** -/
def Notes (may : Occurrence → Prop) (c c' : Connection σ α) : Prop :=
  c'.clock = c.clock ∧ ∃ news, c'.history = news ++ c.history ∧
    ∀ entry ∈ news, entry.time = c.now ∧ may entry.occurrence

namespace Notes

variable {may : Occurrence → Prop} {c middle c' : Connection σ α}

lemma same (hclock : c'.clock = c.clock) (hhistory : c'.history = c.history) : Notes may c c' :=
  ⟨hclock, [], hhistory, nofun⟩

lemma trans (h : Notes may c middle) (h' : Notes may middle c') : Notes may c c' := by
  obtain ⟨hclock, news, hhistory, hnews⟩ := h
  obtain ⟨hclock', later, hhistory', hlater⟩ := h'
  have hnow : middle.now = c.now := congrArg Prod.fst hclock
  refine ⟨hclock'.trans hclock, later ++ news, ?_, fun entry hentry => ?_⟩
  · rw [hhistory', hhistory, List.append_assoc]
  · rcases List.mem_append.mp hentry with hlate | hearly
    · exact hnow ▸ hlater entry hlate
    · exact hnews entry hearly

lemma note (c : Connection σ α) {occurrence : Occurrence} (hmay : may occurrence) :
    Notes may c (c.note occurrence) := by
  refine ⟨rfl, [⟨c.now, occurrence⟩], rfl, ?_⟩
  rintro entry hentry
  rw [List.mem_singleton.mp hentry]
  exact ⟨rfl, hmay⟩

/-- What is added by an operation on the link. -/
lemma perform {β : Type} (c : Connection σ α) (performed : Wire.Performed σ β)
    (hmay : ∀ event ∈ performed.events, may (.wire event)) :
    Notes may c (c.perform performed) := by
  refine ⟨clock_perform c performed, _, congrArg Custody.history (custody_perform c performed), ?_⟩
  intro entry hentry
  obtain ⟨event, hevent, rfl⟩ := List.mem_map.mp (List.mem_reverse.mp hentry)
  exact ⟨rfl, hmay event hevent⟩

lemma closeLink (c : Connection σ α) (hmay : may (.wire .closed)) : Notes may c c.closeLink := by
  have hclosed : Notes may c (c.perform c.wire.close) := by
    refine perform c _ fun event hevent => ?_
    rw [Wire.close] at hevent
    split_ifs at hevent
    · rw [List.mem_singleton.mp hevent]
      exact hmay
    · simp at hevent
  exact hclosed.trans (same rfl rfl)

end Notes

/-! ## Beats -/

/-- **The worker goes on with the request in its hands**, and does not deliver its result yet. -/
structure Works (item : Queued) (c c' : Connection σ α) : Prop where
  item : (phase c'.worker).item? = some item
  notes : Notes IsInterim c c'

/-- **Everything that one happening can do** to the worker, the clock and the history. -/
inductive Beat [Peer σ] (c c' : Connection σ α) : Prop where
  /-- Somebody else does something, or nobody does. -/
  | aside (hworker : c'.worker = c.worker) (hnotes : Notes IsForeign c c')
  /-- A request is taken. -/
  | take {item : Queued} (hbefore : c.worker = .fetching) (hafter : c'.worker = .fetched item)
      (hclock : c'.clock = c.clock) (hhistory : c'.history = c.history)
  | work {item : Queued} (hbefore : (phase c.worker).item? = some item) (hworks : Works item c c')
  | deliver {item : Queued} {result : Result Bytes} (hbefore : c.worker = .delivering item result)
      (hafter : c'.worker = Worker.afterDelivery c) (hclock : c'.clock = c.clock)
      (hhistory : c'.history = ⟨c.now, .delivered item.ticket result⟩ :: c.history)
  /-- The pause is over. -/
  | release {until_ : Nat} (hbefore : c.worker = .guarding until_) (hdue : until_ ≤ c.now)
      (hafter : c'.worker = .fetching) (hclock : c'.clock = c.clock)
      (hhistory : c'.history = c.history)
  | stop (hbefore : c.worker = .fetching ∨ ∃ until_, c.worker = .guarding until_)
      (hshutdown : c.shutdown = true) (hafter : c'.worker = .stopped) (hclock : c'.clock = c.clock)
      (hhistory : c'.history = c.history)
  /-- Time passes, since nobody has anything to do. -/
  | tick {now : Nat} (hsettled : c.isSettled = true) (hlater : c.now ≤ now)
      (hafter : c' = { c with now })

namespace Beat

variable [Peer σ] {c c' : Connection σ α}

/-- **Nothing is forgotten, what is added happens now, and the link is used only for a request in the
worker's hands.** -/
lemma history (hbeat : Beat c c') :
    ∃ news, c'.history = news ++ c.history ∧ ∀ entry ∈ news, entry.time = c.now ∧
      (isUse entry.occurrence = true →
        ∃ item, (phase c.worker).item? = some item ∧ (phase c'.worker).item? = some item) := by
  cases hbeat with
  | aside hworker hnotes =>
      obtain ⟨-, news, hhistory, hnews⟩ := hnotes
      refine ⟨news, hhistory, fun entry hentry => ⟨(hnews entry hentry).1, fun huse => ?_⟩⟩
      rw [(hnews entry hentry).2.1] at huse
      exact absurd huse Bool.false_ne_true
  | work hbefore hworks =>
      obtain ⟨hafter, -, news, hhistory, hnews⟩ := hworks
      exact ⟨news, hhistory, fun entry hentry =>
        ⟨(hnews entry hentry).1, fun _ => ⟨_, hbefore, hafter⟩⟩⟩
  | deliver hbefore hafter hclock hhistory => exact ⟨[_], hhistory, by simp [isUse]⟩
  | take hbefore hafter hclock hhistory => exact ⟨[], hhistory, nofun⟩
  | release hbefore hdue hafter hclock hhistory => exact ⟨[], hhistory, nofun⟩
  | stop hbefore hshutdown hafter hclock hhistory => exact ⟨[], hhistory, nofun⟩
  | tick hsettled hlater hafter => exact ⟨[], by rw [hafter]; rfl, nofun⟩

/-- **A request stays in the worker's hands** until its result is delivered. -/
lemma held (hbeat : Beat c c') {item : Queued} (hitem : (phase c.worker).item? = some item) :
    (phase c'.worker).item? = some item ∨
      ∃ result, c'.history = ⟨c.now, .delivered item.ticket result⟩ :: c.history := by
  have hidle {stage : Stage} (hstage : c.worker = stage) (hnone : (phase stage).item? = none) :
      False := by
    rw [hstage, hnone] at hitem
    exact nomatch hitem
  cases hbeat with
  | aside hworker hnotes => exact .inl (hworker ▸ hitem)
  | work hbefore hworks => exact .inl (hworks.item.trans (hbefore.symm.trans hitem))
  | deliver hbefore hafter hclock hhistory =>
      rw [hbefore] at hitem
      rw [← Option.some.inj hitem]
      exact .inr ⟨_, hhistory⟩
  | take hbefore hafter hclock hhistory => exact (hidle hbefore rfl).elim
  | release hbefore hdue hafter hclock hhistory => exact (hidle hbefore rfl).elim
  | stop hbefore hshutdown hafter hclock hhistory =>
      rcases hbefore with hbefore | ⟨until_, hbefore⟩
      · exact (hidle hbefore rfl).elim
      · exact (hidle hbefore rfl).elim
  | tick hsettled hlater hafter => exact .inl (by rw [hafter]; exact hitem)

/-- **Time passes only at rest.** -/
lemma clock (hbeat : Beat c c') :
    c'.clock = c.clock ∨ ∃ now, c.isSettled = true ∧ c' = { c with now } := by
  cases hbeat with
  | aside hworker hnotes => exact .inl hnotes.1
  | work hbefore hworks => exact .inl hworks.notes.1
  | tick hsettled hlater hafter => exact .inr ⟨_, hsettled, hafter⟩
  | take hbefore hafter hclock hhistory => exact .inl hclock
  | deliver hbefore hafter hclock hhistory => exact .inl hclock
  | release hbefore hdue hafter hclock hhistory => exact .inl hclock
  | stop hbefore hshutdown hafter hclock hhistory => exact .inl hclock

end Beat

/-! ## The worker -/

namespace Works

variable {item : Queued} {c middle c' : Connection σ α}

/-- What was done before. -/
lemma after (hnotes : Notes IsInterim c middle) (h : Works item middle c') : Works item c c' :=
  ⟨h.item, hnotes.trans h.notes⟩

lemma moveTo (c : Connection σ α) {stage : Stage} (hstage : (phase stage).item? = some item) :
    Works item c (Worker.moveTo c stage) :=
  ⟨hstage, .same rfl rfl⟩

/-- No operation on the link delivers a result. -/
lemma performed {β : Type} (c : Connection σ α) (performed : Wire.Performed σ β) :
    Notes IsInterim c (c.perform performed) :=
  .perform c performed fun _ _ => rfl

lemma attemptFailed (c : Connection σ α) (item : Queued) (attempts : Attempts)
    (fault : TransportFault) : Works item c (Worker.attemptFailed c item attempts fault) := by
  rw [Worker.attemptFailed]
  split
  · exact .moveTo c rfl
  · exact ⟨rfl, .same rfl rfl⟩

lemma attemptEnded (c : Connection σ α) (item : Queued) (attempts : Attempts) :
    Works item c (Worker.attemptEnded c item attempts) := by
  rcases Worker.attemptEnded_cases c item attempts with ⟨-, -, hopened⟩ | ⟨fault, -, hfailed⟩
  · rw [hopened]
    exact ⟨rfl, (performed c c.wire.open).trans (.same rfl rfl)⟩
  · rw [hfailed]
    exact .after (performed c c.wire.open) (attemptFailed _ item attempts fault)

lemma beginAttempt (c : Connection σ α) (item : Queued) (attempts : Attempts) :
    Works item c (Worker.beginAttempt c item attempts) := by
  have hattempted : IsInterim .attempted := rfl
  refine after ((performed c c.wire.close).trans (.note _ hattempted)) ?_
  simp only [Worker.beginAttempt]
  split_ifs
  · exact attemptEnded _ item attempts
  · exact .moveTo _ rfl

lemma send [Peer σ] (c : Connection σ α) (item : Queued) : Works item c (Worker.send c item) := by
  refine after (performed c (c.wire.send item.request)) ?_
  simp only [Worker.send]
  split <;> exact .moveTo _ rfl

lemma receive (c : Connection σ α) (item : Queued) (received : Bytes) :
    Works item c (Worker.receive c item received) := by
  refine after (performed c (c.wire.receive Limit.readBuffer)) ?_
  simp only [Worker.receive]
  split
  · exact .moveTo _ rfl
  · exact .moveTo _ rfl
  · exact .moveTo _ rfl
  · split_ifs <;> exact .moveTo _ rfl

lemma conclude (c : Connection σ α) (item : Queued) (result : Result Bytes) :
    Works item c (Worker.conclude c item result) := by
  cases result with
  | ok reply => exact ⟨rfl, .same rfl rfl⟩
  | error error =>
      simp only [Worker.conclude]
      split_ifs
      · have hclosed : Notes IsInterim c c.closeLink := .closeLink c rfl
        exact ⟨rfl, hclosed.trans (.same rfl rfl)⟩
      · exact ⟨rfl, .same rfl rfl⟩

/-- A wait with the link held: the request is interrupted, or the worker goes on with it. -/
lemma resume {continue_ : Option (Connection σ α)}
    (hcontinue : ∀ after, continue_ = some after → Works item c after)
    (hstep : Worker.resumeExchange c item continue_ = some c') : Works item c c' := by
  rw [Worker.resumeExchange] at hstep
  split at hstep
  · exact Option.some.inj hstep ▸ .moveTo c rfl
  · exact hcontinue c' hstep

end Works

namespace Worker

variable {c c' : Connection σ α}

lemma beat_of_fetch [Peer σ] (hworker : c.worker = .fetching) (hstep : fetch? c = some c') :
    Beat c c' := by
  rw [fetch?] at hstep
  split_ifs at hstep with hshutdown
  · exact Option.some.inj hstep ▸ .stop (.inl hworker) hshutdown rfl rfl rfl
  · split at hstep
    · exact Option.some.inj hstep ▸ .take hworker rfl rfl rfl
    · exact Option.some.inj hstep ▸ .aside rfl (.same rfl rfl)

/-- **A move of the worker** is a beat. -/
lemma beat_of_step [Peer σ] (hstep : step? c = some c') : Beat c c' := by
  cases hworker : c.worker with
  | fetching =>
      simp only [step?, hworker] at hstep
      exact beat_of_fetch hworker hstep
  | fetched item =>
      refine .work (by rw [hworker]; rfl) (?_ : Works item c c')
      simp only [step?, hworker] at hstep
      split at hstep
      · exact Option.some.inj hstep ▸ .moveTo c rfl
      · rw [← Option.some.inj hstep]
        refine ⟨?_, .same rfl rfl⟩
        simp only
        split_ifs <;> rfl
  | awaitingLink item =>
      refine .work (by rw [hworker]; rfl) (?_ : Works item c c')
      simp only [step?, hworker] at hstep
      split at hstep
      · exact Option.some.inj hstep ▸ ⟨rfl, .same rfl rfl⟩
      · split_ifs at hstep
        exact Option.some.inj hstep ▸ .moveTo c rfl
  | linked item =>
      refine .work (by rw [hworker]; rfl) (?_ : Works item c c')
      simp only [step?, hworker] at hstep
      split_ifs at hstep
      · exact Option.some.inj hstep ▸ .moveTo c rfl
      · exact Option.some.inj hstep ▸ ⟨rfl, .same rfl rfl⟩
  | attempting item attempts =>
      simp only [step?, hworker, Option.some.injEq] at hstep
      exact hstep ▸ .work (by rw [hworker]; rfl) (.beginAttempt c item attempts)
  | opening item attempts opensAt expiresAt =>
      simp only [step?, hworker] at hstep
      refine .work (by rw [hworker]; rfl) (Works.resume (fun after hafter => ?_) hstep)
      split_ifs at hafter
      · exact Option.some.inj hafter ▸ .attemptEnded c item attempts
      · exact Option.some.inj hafter ▸ .attemptFailed c item attempts _
  | backingOff item attempts until_ =>
      simp only [step?, hworker] at hstep
      refine .work (by rw [hworker]; rfl) (Works.resume (fun after hafter => ?_) hstep)
      split_ifs at hafter
      exact Option.some.inj hafter ▸ .moveTo c rfl
  | sending item =>
      simp only [step?, hworker, Option.some.injEq] at hstep
      exact hstep ▸ .work (by rw [hworker]; rfl) (.send c item)
  | receiving item received =>
      simp only [step?, hworker, Option.some.injEq] at hstep
      exact hstep ▸ .work (by rw [hworker]; rfl) (.receive c item received)
  | stalled item received expiresAt =>
      simp only [step?, hworker] at hstep
      refine .work (by rw [hworker]; rfl) (Works.resume (fun after hafter => ?_) hstep)
      split_ifs at hafter
      exact Option.some.inj hafter ▸ .moveTo c rfl
  | concluding item result =>
      simp only [step?, hworker, Option.some.injEq] at hstep
      exact hstep ▸ .work (by rw [hworker]; rfl) (.conclude c item result)
  | delivering item result =>
      simp only [step?, hworker, Option.some.injEq] at hstep
      exact hstep ▸ .deliver hworker rfl rfl rfl
  | guarding until_ =>
      simp only [step?, hworker] at hstep
      split_ifs at hstep with hshutdown hdue
      · exact Option.some.inj hstep ▸ .stop (.inr ⟨until_, hworker⟩) hshutdown rfl rfl rfl
      · exact Option.some.inj hstep ▸ .release hworker hdue rfl rfl rfl
  | stopped => simp [step?, hworker] at hstep

end Worker

/-! ## Everybody else -/

lemma IdleTimer.notes_of_step {wakeup : IdleTimer.Wakeup} {c c' : Connection σ α}
    (hstep : IdleTimer.step? c wakeup = some c') : Notes IsForeign c c' := by
  unfold IdleTimer.step? at hstep
  split at hstep
  · exact Option.some.inj hstep ▸ .same rfl rfl
  · unfold IdleTimer.wake? at hstep
    split at hstep
    · split_ifs at hstep
      exact Option.some.inj hstep ▸ .same rfl rfl
    · split_ifs at hstep
      exact Option.some.inj hstep ▸ .same rfl rfl
    · split at hstep
      · simp at hstep
      · split_ifs at hstep
        exact Option.some.inj hstep ▸ .same rfl rfl
  · rename_i deadline _
    split_ifs at hstep
    have hexpired : Notes IsForeign c (IdleTimer.expire c deadline) := by
      rw [IdleTimer.expire]
      split_ifs
      · have hnoted : Notes IsForeign c ({ c with idleDeadline := none }.note .expired) :=
          Notes.trans (.same rfl rfl) (.note { c with idleDeadline := none } ⟨rfl, rfl⟩)
        exact hnoted.trans (.closeLink _ ⟨rfl, rfl⟩)
      · exact .same rfl rfl
      · exact .same rfl rfl
    exact Option.some.inj hstep ▸ hexpired.trans (.same rfl rfl)
  · simp at hstep

namespace Caller

variable {c c' : Connection σ α} {id : Nat}

lemma notes_of_leave {ticket : Nat} {result : Result Bytes} {next : Result Bytes → Operation α} :
    Notes IsForeign c (leave c id ticket result next) :=
  Notes.trans (.same rfl rfl) (.note _ ⟨rfl, rfl⟩)

lemma notes_of_step (hstep : step? c id = some c') : Notes IsForeign c c' := by
  rw [step?] at hstep
  split at hstep
  · simp at hstep
  · split at hstep
    · exact Option.some.inj hstep ▸ .same rfl rfl
    · exact Option.some.inj hstep ▸ .same rfl rfl
    · rw [← Option.some.inj hstep, invoke]
      split
      · exact .same rfl rfl
      · split
        · exact .same rfl rfl
        · exact Notes.trans (.same rfl rfl) (.note _ ⟨rfl, rfl⟩)
    · exact Option.some.inj hstep ▸ notes_of_leave
    · split_ifs at hstep
      · exact Option.some.inj hstep ▸ notes_of_leave
      · exact Option.some.inj hstep ▸ notes_of_leave
    · simp at hstep
    · simp at hstep

lemma notes_of_drop (c : Connection σ α) (id : Nat) : Notes IsForeign c (drop c id) := by
  rw [drop]
  split
  · exact .same rfl rfl
  · simp only
    split
    · exact .same rfl rfl
    · exact Notes.trans (.same rfl rfl) (.note _ ⟨rfl, rfl⟩)
    · exact .same rfl rfl
    · exact .same rfl rfl

end Caller

lemma Disposing.notes_of_step {c c' : Connection σ α} (hstep : Disposing.step? c = some c') :
    Notes IsForeign c c' := by
  cases hdisposal : c.disposal with
  | joiningWorker =>
      simp only [step?, hdisposal] at hstep
      split at hstep
      · exact Option.some.inj hstep ▸ .same rfl rfl
      · simp at hstep
  | joiningTimer =>
      simp only [step?, hdisposal] at hstep
      split at hstep
      · have hhistory : (refuseQueued c).history = c.history :=
          congrArg Custody.history (custody_foldl_deliver _ _ { c with queue := c.queue.close.2 })
        have hclock : (refuseQueued c).clock = c.clock :=
          clock_foldl_deliver _ _ { c with queue := c.queue.close.2 }
        exact Option.some.inj hstep ▸ .same hclock hhistory
      · simp at hstep
  | awaitingLink =>
      simp only [step?, hdisposal] at hstep
      split_ifs at hstep
      exact Option.some.inj hstep ▸ Notes.trans (.closeLink c ⟨rfl, rfl⟩) (.same rfl rfl)
  | untouched => simp [step?, hdisposal] at hstep
  | finished => simp [step?, hdisposal] at hstep

/-! ## Every happening -/

lemma beat_of_action [Peer σ] (c : Connection σ α) (action : Action α) :
    Beat c (c.step action) := by
  -- Whoever is not the worker leaves it where it is.
  have hother {later : Connection σ α} (hworker : (c.step action).worker = c.worker)
      (hstep : c.step action = if c.worker.isRunning then c else later)
      (hlater : Notes IsForeign c later) : Beat c (c.step action) := by
    refine .aside hworker ?_
    rw [hstep]
    split_ifs
    · exact .same rfl rfl
    · exact hlater
  have hdone {later : Option (Connection σ α)}
      (hlater : ∀ after, later = some after → Notes IsForeign c after) :
      Notes IsForeign c (later.getD c) := by
    cases later with
    | none => exact .same rfl rfl
    | some after => exact hlater after rfl
  cases action with
  | worker =>
      cases hstep : Worker.step? c with
      | none =>
          simp only [step, hstep, Option.getD_none]
          exact .aside rfl (.same rfl rfl)
      | some after =>
          simp only [step, hstep, Option.getD_some]
          exact Worker.beat_of_step hstep
  | timer wakeup =>
      exact hother (worker_of_step c (by simp)) rfl
        (hdone fun after hafter => IdleTimer.notes_of_step hafter)
  | caller id =>
      exact hother (worker_of_step c (by simp)) rfl
        (hdone fun after hafter => Caller.notes_of_step hafter)
  | disposing =>
      exact hother (worker_of_step c (by simp)) rfl
        (hdone fun after hafter => Disposing.notes_of_step hafter)
  | drop id => exact hother (worker_of_step c (by simp)) rfl (Caller.notes_of_drop c id)
  | dispose =>
      have hbegun : Notes IsForeign c (Disposing.begin c) := by
        rw [Disposing.begin]
        split <;> exact .same rfl rfl
      exact hother (worker_of_step c (by simp)) rfl hbegun
  | advance now =>
      simp only [step, advance]
      split_ifs with hrunning hpasses
      · exact .aside rfl (.same rfl rfl)
      · simp only [Bool.and_eq_true, decide_eq_true_eq] at hpasses
        exact .tick hpasses.1.1 hpasses.1.2 rfl
      · exact .aside rfl (.same rfl rfl)
  | _ => exact hother (worker_of_step c (by simp)) rfl (.same rfl rfl)

lemma beat_of_whim [Peer σ] (c : Connection σ α) (whim : Whim) : Beat c (c.indulge whim) := by
  have hindulged := c.indulged whim
  generalize c.indulge whim = after at hindulged ⊢
  cases hindulged with
  | unheeded => exact .aside rfl (.same rfl rfl)
  | stalled until_ hworker => exact .work (by rw [hworker]; rfl) (.moveTo c rfl)
  | resumed hworker hclear => exact .work (by rw [hworker]; rfl) (.moveTo c rfl)
  | unopened fault hworker hclear =>
      exact .work (by rw [hworker]; rfl) (.attemptFailed c _ _ fault)
  | failed fault hworker hclear => exact .work (by rw [hworker]; rfl) (.moveTo c rfl)
  | lost => exact .aside rfl (.same rfl rfl)

/-- **Every happening is a beat.** -/
theorem beat_of_happening [Peer σ] (c : Connection σ α) (happening : Happening α) :
    Beat c (c.happen happening) := by
  cases happening with
  | act action => exact beat_of_action c action
  | whim whim => exact beat_of_whim c whim

end Modbus.Connection
