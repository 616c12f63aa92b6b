import Modbus.Proofs.Connection.Movers

/-!
# Who has the link, and in which state

`Custody` keeps the side of a connection on which its three tasks meet: where the worker, the idle
timer and a disposal are, who holds the link, whether it is open and which state is shown for it,
the idle deadline, the clock and the history.  Of the queue, the calls and the bytes on the link it
keeps nothing.

A simulated link answers at once and fails only to open.  What other links may do besides is a
`Whim`: to make an operation wait, to let it go on, to fail it, and to go down by itself.  A
`Happening` is an action or a whim.  Everything that one of them can do to a custody is a `Shift`,
but for a link that goes down by itself.
-/

namespace Modbus

/-! ## Stages -/

/-- The worker has nothing to do with the link. -/
def Stage.isAway : Stage → Bool
  | .fetching | .fetched _ | .guarding _ | .stopped => true
  | _ => false

/-- **The request that is being exchanged**: the worker has the link for it. -/
def Stage.exchanging? : Stage → Option Queued
  | .linked item => some item
  | .attempting item _ => some item
  | .opening item _ _ _ => some item
  | .backingOff item _ _ => some item
  | .sending item => some item
  | .receiving item _ => some item
  | .stalled item _ _ => some item
  | .concluding item _ => some item
  | _ => none

/-- The errors after which the link is closed. -/
def Error.closesLink (error : Error) : Bool :=
  error.needsReconnect || error == Error.disposed

namespace Connection

variable {σ α : Type}

/-! ## What links may do -/

/-- **What a link may do** that a simulated one does not. -/
inductive Whim where
  /-- An operation has to wait: a read that finds nothing yet, or a write that does not return,
  whose frame counts as sent. -/
  | stall (until_ : Nat)
  /-- What was waited for is there. -/
  | resume
  /-- An operation that had to wait fails. -/
  | fail (fault : TransportFault)
  /-- The link goes down, and nobody closed it. -/
  | lose
deriving DecidableEq

/-- **What a worker makes of an answer of the link** that it waited for with a request: after an
interruption it does not look at it. -/
def heed (connection : Connection σ α) (item : Queued) (answered : Connection σ α) :
    Connection σ α :=
  match connection.interruption? item with
  | some _ => connection
  | none => answered

/-- A connection after a whim of its link. -/
def indulge (connection : Connection σ α) : Whim → Connection σ α
  | .stall until_ =>
    match connection.worker with
    | .receiving item received => Worker.moveTo connection (.stalled item received until_)
    | _ => connection
  | .resume =>
    match connection.worker with
    | .stalled item received _ =>
      heed connection item (Worker.moveTo connection (.receiving item received))
    | _ => connection
  | .fail fault =>
    match connection.worker with
    | .opening item attempts _ _ =>
      heed connection item (Worker.attemptFailed connection item attempts fault)
    | .stalled item _ _ =>
      heed connection item
        (Worker.moveTo connection (.concluding item (.error (.transport fault))))
    | _ => connection
  | .lose => connection.modifyWire fun wire => { wire with connected := false }

/-- **Everything that a whim of the link can do** to a connection. -/
inductive Indulged (connection : Connection σ α) : Whim → Connection σ α → Prop where
  /-- The worker does not wait for it, or does not look at it any more. -/
  | unheeded {whim : Whim} : Indulged connection whim connection
  | stalled {item : Queued} {received : Bytes} (until_ : Nat)
      (hworker : connection.worker = .receiving item received) :
      Indulged connection (.stall until_)
        (Worker.moveTo connection (.stalled item received until_))
  | resumed {item : Queued} {received : Bytes} {expiresAt : Nat}
      (hworker : connection.worker = .stalled item received expiresAt)
      (hclear : connection.interruption? item = none) :
      Indulged connection .resume (Worker.moveTo connection (.receiving item received))
  | unopened {item : Queued} {attempts : Attempts} {opensAt expiresAt : Nat}
      (fault : TransportFault)
      (hworker : connection.worker = .opening item attempts opensAt expiresAt)
      (hclear : connection.interruption? item = none) :
      Indulged connection (.fail fault) (Worker.attemptFailed connection item attempts fault)
  | failed {item : Queued} {received : Bytes} {expiresAt : Nat} (fault : TransportFault)
      (hworker : connection.worker = .stalled item received expiresAt)
      (hclear : connection.interruption? item = none) :
      Indulged connection (.fail fault)
        (Worker.moveTo connection (.concluding item (.error (.transport fault))))
  | lost : Indulged connection .lose
      (connection.modifyWire fun wire => { wire with connected := false })

/-- An answer is heeded, or leaves everything as it was. -/
lemma heed_cases (connection : Connection σ α) (item : Queued) (answered : Connection σ α) :
    connection.heed item answered = connection ∨
      (connection.interruption? item = none ∧ connection.heed item answered = answered) := by
  rw [heed]
  split
  · exact .inl rfl
  · rename_i hclear
    exact .inr ⟨hclear, rfl⟩

lemma indulged (connection : Connection σ α) (whim : Whim) :
    Indulged connection whim (connection.indulge whim) := by
  have hheeded {item : Queued} {answered : Connection σ α}
      (hanswered : connection.interruption? item = none → Indulged connection whim answered) :
      Indulged connection whim (connection.heed item answered) := by
    rcases connection.heed_cases item answered with hsame | ⟨hclear, hafter⟩
    · rw [hsame]
      exact .unheeded
    · rw [hafter]
      exact hanswered hclear
  cases whim with
  | stall until_ =>
      simp only [indulge]
      split
      · rename_i item received hworker
        exact .stalled until_ hworker
      · exact .unheeded
  | resume =>
      simp only [indulge]
      split
      · rename_i item received expiresAt hworker
        exact hheeded fun hclear => .resumed hworker hclear
      · exact .unheeded
  | fail fault =>
      simp only [indulge]
      split
      · rename_i item attempts opensAt expiresAt hworker
        exact hheeded fun hclear => .unopened fault hworker hclear
      · rename_i item received expiresAt hworker
        exact hheeded fun hclear => .failed fault hworker hclear
      · exact .unheeded
  | lose => exact .lost

/-- An action, or a whim of the link. -/
inductive Happening (α : Type) where
  | act (action : Action α)
  | whim (whim : Whim)

def happen [Peer σ] (connection : Connection σ α) : Happening α → Connection σ α
  | .act action => connection.step action
  | .whim whim => connection.indulge whim

/-- **A run over any link.** -/
def runOver [Peer σ] (connection : Connection σ α) (happenings : List (Happening α)) :
    Connection σ α :=
  happenings.foldl happen connection

lemma runOver_concat [Peer σ] (connection : Connection σ α) (happenings : List (Happening α))
    (happening : Happening α) :
    connection.runOver (happenings ++ [happening])
      = (connection.runOver happenings).happen happening := by
  rw [runOver, List.foldl_append]
  rfl

/-! ## Custodies -/

/-- **Who has the link, and in which state.** -/
structure Custody where
  stage : Stage
  timer : Watch
  disposal : Disposal
  link : LinkLock
  connected : Bool
  /-- The state that is shown. -/
  state : LinkState
  now : Nat
  /-- For how long an unused link stays open. -/
  allowance : Nat
  deadline : Option Nat
  rearmed : Signal
  shutdown : Bool
  history : List Entry

/-- The custody of a connection. -/
def custody (connection : Connection σ α) : Custody where
  stage := connection.worker
  timer := connection.timer
  disposal := connection.disposal
  link := connection.link
  connected := connection.wire.connected
  state := connection.state
  now := connection.now
  allowance := connection.timing.idleTimeout.ticks
  deadline := connection.idleDeadline
  rearmed := connection.rearmed
  shutdown := connection.shutdown
  history := connection.history

namespace Custody

def note (c : Custody) (occurrence : Occurrence) : Custody :=
  { c with history := ⟨c.now, occurrence⟩ :: c.history }

def notes (c : Custody) (events : List Wire.Event) : Custody :=
  { c with history := (events.map fun event => ⟨c.now, .wire event⟩).reverse ++ c.history }

/-- The link closed, if it was open. -/
def reset (c : Custody) : Custody :=
  { c.notes (if c.connected then [.closed] else []) with connected := false }

/-- The link closed, and shown as closed. -/
def close (c : Custody) : Custody :=
  { c.reset with state := .disconnected }

/-- A deadline that has passed is spent, and the link closed, unless there is a new deadline. -/
def spend (c : Custody) (deadline : Nat) : Custody :=
  if c.deadline = some deadline then
    if c.connected then ({ c with deadline := none }.note .expired).close
    else { c with deadline := none }
  else c

/-- Spending a deadline changes nothing but the deadline and what becomes of the link. -/
lemma exists_spend_eq (c : Custody) (deadline : Nat) :
    ∃ deadline' connected state history,
      c.spend deadline = { c with deadline := deadline', connected, state, history } := by
  simp only [spend]
  split_ifs
  · exact ⟨none, false, .disconnected, _, rfl⟩
  · exact ⟨none, c.connected, c.state, c.history, rfl⟩
  · exact ⟨c.deadline, c.connected, c.state, c.history, rfl⟩

end Custody

/-! ## Shifts -/

/-- All that happened, oldest first. -/
def occurrences (history : List Entry) : List Occurrence :=
  history.reverse.map Entry.occurrence

lemma occurrences_cons (entry : Entry) (history : List Entry) :
    occurrences (entry :: history) = occurrences history ++ [entry.occurrence] := by
  simp [occurrences]

/-- What happens to calls, and is no business of the link. -/
def isAside : Occurrence → Bool
  | .accepted _ _ | .returned _ _ | .abandoned _ => true
  | _ => false

/-- **How an attempt to open the link ends**, or goes on. -/
inductive Attempted (item : Queued) : Custody → Custody → Prop where
  | opened {c : Custody} : Attempted item c { c.notes [.opened] with
      connected := true, state := .connected, stage := .sending item }
  | opening {c : Custody} {attempts : Attempts} {opensAt expiresAt : Nat} :
      Attempted item c { c with stage := .opening item attempts opensAt expiresAt }
  | failed {c : Custody} {attempts : Attempts} {until_ : Nat} {events : List Wire.Event}
      (hevents : events = [] ∨ events = [.refused]) :
      Attempted item c { c.notes events with stage := .backingOff item attempts until_ }
  | gaveUp {c : Custody} {fault : TransportFault} {events : List Wire.Event}
      (hevents : events = [] ∨ events = [.refused]) :
      Attempted item c { c.notes events with
        state := .disconnected, stage := .concluding item (.error (.transport fault)) }

/-- **Everything that one happening can do to a custody**, as long as the link does not go down by
itself. -/
inductive Shift : Custody → Custody → Prop where
  | rest {c : Custody} : Shift c c
  /-- The worker goes about its other business. -/
  | away {c : Custody} {stage : Stage} (hbefore : c.stage.isAway = true)
      (hafter : stage.isAway = true ∨ ∃ item error, stage = .delivering item (.error error))
      (hstopped : stage = .stopped → c.stage = .stopped ∨ c.shutdown = true) :
      Shift c { c with stage }
  /-- The worker asks for the link. -/
  | request {c : Custody} {item : Queued} (hstage : c.stage = .fetched item) :
      Shift c { c with
        link := c.link.request .worker
        stage := if (c.link.request .worker).isHeldBy .worker then .linked item
          else .awaitingLink item }
  | withdraw {c : Custody} {item : Queued} {error : Error}
      (hstage : c.stage = .awaitingLink item) :
      Shift c { c with
        link := c.link.withdraw .worker, stage := .delivering item (.error error) }
  | granted {c : Custody} {item : Queued} (hstage : c.stage = .awaitingLink item)
      (hheld : c.link.isHeldBy .worker = true) : Shift c { c with stage := .linked item }
  /-- The link is open. -/
  | use {c : Custody} {item : Queued} (hstage : c.stage = .linked item)
      (hopen : c.connected = true) : Shift c { c with stage := .sending item }
  | reconnect {c : Custody} {item : Queued} {attempts : Attempts}
      (hstage : c.stage = .linked item) (hclosed : c.connected = false) :
      Shift c { c with stage := .attempting item attempts, state := .connecting }
  /-- An attempt begins. -/
  | attempt {c c' : Custody} {item : Queued} {attempts : Attempts}
      (hstage : c.stage = .attempting item attempts)
      (hattempted : Attempted item (c.reset.note .attempted) c') : Shift c c'
  /-- An attempt ends for which the worker waited. -/
  | opening {c c' : Custody} {item : Queued} {attempts : Attempts} {opensAt expiresAt : Nat}
      (hstage : c.stage = .opening item attempts opensAt expiresAt)
      (hattempted : Attempted item c c') : Shift c c'
  | again {c : Custody} {item : Queued} {attempts attempts' : Attempts} {until_ : Nat}
      (hstage : c.stage = .backingOff item attempts until_) :
      Shift c { c with stage := .attempting item attempts' }
  /-- An exchange is interrupted, or fails, before its reply is complete. -/
  | fail {c : Custody} {item : Queued} {error : Error} {events : List Wire.Event}
      (hexchanging : c.stage.exchanging? = some item)
      (hpending : ∀ result, c.stage ≠ .concluding item result)
      (herror : error.closesLink = true)
      (hevents : events = [] ∨ ∃ chunk, events = [.received chunk]) :
      Shift c { c.notes events with stage := .concluding item (.error error) }
  | send {c : Custody} {item : Queued} (hstage : c.stage = .sending item)
      (hopen : c.connected = true) :
      Shift c { c.notes [.sent item.request] with stage := .receiving item [] }
  | read {c : Custody} {item : Queued} {received : Bytes} {stage : Stage}
      {events : List Wire.Event}
      (hstage : c.stage = .receiving item received ∨
        ∃ expiresAt, c.stage = .stalled item received expiresAt)
      (hlater : (∃ received, stage = .receiving item received) ∨
        ∃ received expiresAt, stage = .stalled item received expiresAt)
      (hevents : events = [] ∨ ∃ chunk, events = [.received chunk]) :
      Shift c { c.notes events with stage }
  /-- The reply is complete. -/
  | complete {c : Custody} {item : Queued} {received reply chunk : Bytes}
      (hstage : c.stage = .receiving item received) (hopen : c.connected = true) :
      Shift c { c.notes [.received chunk] with stage := .concluding item (.ok reply) }
  /-- After a completed request the link is handed on open, with a new deadline. -/
  | keep {c : Custody} {item : Queued} {reply : Bytes}
      (hstage : c.stage = .concluding item (.ok reply)) :
      Shift c { c with
        deadline := some (c.now + c.allowance)
        rearmed := c.rearmed.notify
        link := c.link.release
        stage := .delivering item (.ok reply) }
  /-- After an error that may have left something on it the link is handed on closed. -/
  | drop {c : Custody} {item : Queued} {error : Error}
      (hstage : c.stage = .concluding item (.error error)) (herror : error.closesLink = true) :
      Shift c { c.close with
        link := c.link.release, stage := .delivering item (.error error) }
  | spare {c : Custody} {item : Queued} {error : Error}
      (hstage : c.stage = .concluding item (.error error)) (herror : error.closesLink = false) :
      Shift c { c with link := c.link.release, stage := .delivering item (.error error) }
  | deliver {c : Custody} {item : Queued} {result : Result Bytes} {stage : Stage}
      (hstage : c.stage = .delivering item result)
      (hlater : stage = .fetching ∨ ∃ until_, stage = .guarding until_) :
      Shift c { c.note (.delivered item.ticket result) with stage }
  /-- The idle timer reads the deadline. -/
  | look {c : Custody} (hwaits : c.stage.isRunning = false) (htimer : c.timer = .looking) :
      Shift c { c with timer := .watching c.deadline, rearmed := c.rearmed.await }
  | relieve {c : Custody} {deadline : Option Nat} (hwaits : c.stage.isRunning = false)
      (htimer : c.timer = .watching deadline) (hshutdown : c.shutdown = true) :
      Shift c { c with timer := .stopped, rearmed := c.rearmed.withdraw }
  | wake {c : Custody} {deadline : Option Nat} (hwaits : c.stage.isRunning = false)
      (htimer : c.timer = .watching deadline) (hwoken : c.rearmed.waiter = .woken) :
      Shift c { c with timer := .looking, rearmed := c.rearmed.resume }
  /-- The deadline passes. -/
  | expire {c : Custody} {deadline : Nat} (hwaits : c.stage.isRunning = false)
      (htimer : c.timer = .watching (some deadline)) (hdue : deadline ≤ c.now) :
      Shift c { c with
        timer := .awaitingLink deadline
        rearmed := c.rearmed.withdraw
        link := c.link.request .idleTimer }
  | spend {c : Custody} {deadline : Nat} (hwaits : c.stage.isRunning = false)
      (htimer : c.timer = .awaitingLink deadline) (hheld : c.link.isHeldBy .idleTimer = true) :
      Shift c { c.spend deadline with timer := .looking, link := c.link.release }
  | dispose {c : Custody} (hwaits : c.stage.isRunning = false)
      (hdisposal : c.disposal = .untouched) :
      Shift c { c with disposal := .joiningWorker, shutdown := true }
  | joinWorker {c : Custody} (hdisposal : c.disposal = .joiningWorker)
      (hstage : c.stage = .stopped) : Shift c { c with disposal := .joiningTimer }
  | joinTimer {c : Custody} (hwaits : c.stage.isRunning = false)
      (hdisposal : c.disposal = .joiningTimer) (htimer : c.timer = .stopped) :
      Shift c { c with
        disposal := .awaitingLink, deadline := none, link := c.link.request .disposal }
  | unlink {c : Custody} (hwaits : c.stage.isRunning = false)
      (hdisposal : c.disposal = .awaitingLink) (hheld : c.link.isHeldBy .disposal = true) :
      Shift c { c.close with disposal := .finished, link := c.link.release }
  | aside {c : Custody} {occurrence : Occurrence} (hwaits : c.stage.isRunning = false)
      (haside : isAside occurrence = true) : Shift c (c.note occurrence)
  | tick {c : Custody} {later : Nat} (hwaits : c.stage.isRunning = false)
      (hlater : c.now ≤ later) : Shift c { c with now := later }

end Connection

end Modbus
