import Mathlib.Tactic.Common
import Modbus.Connection.Step

/-!
# What can happen to a request

A connection has fourteen stages of its worker, a lock, three timers, signals and deadlines.  Most
of it decides *when* something happens.  What can become of a request is much less, and `View` keeps
only that: whether the worker holds a request, reads its reply or hands over its result (`Phase`),
what is on the link, what is queued, how far the calls have come, and the entries of the history
that are about requests (`Occurrence.isDealing`).

`Move` lists everything that one action can do to a view, with the `Label` that tells whether a
request was sent or an operation started.  That one action of a connection is one move of its view
asks for two facts about the view before (`View.Tidy`), and every move keeps them (`Move.tidy`).
-/

namespace Modbus.Connection

/-! ## Views -/

/-- **Where the worker is with a request.** -/
inductive Phase where
  | idle
  /-- A request is taken and not yet sent. -/
  | holding (item : Queued)
  | reading (item : Queued) (received : Bytes)
  /-- The exchange is over, the link still held. -/
  | ended (item : Queued) (result : Result Bytes)
  | delivering (item : Queued) (result : Result Bytes)

/-- The phase of a stage. -/
def phase : Stage → Phase
  | .fetching => .idle
  | .fetched item => .holding item
  | .awaitingLink item => .holding item
  | .linked item => .holding item
  | .attempting item _ => .holding item
  | .opening item _ _ _ => .holding item
  | .backingOff item _ _ => .holding item
  | .sending item => .holding item
  | .receiving item received => .reading item received
  | .stalled item received _ => .reading item received
  | .concluding item result => .ended item result
  | .delivering item result => .delivering item result
  | .guarding _ => .idle
  | .stopped => .idle

/-- Whether an entry of the history is about a request. -/
def isDealing : Occurrence → Bool
  | .accepted _ _ => true
  | .wire (.sent _) => true
  | .delivered _ _ => true
  | .returned _ _ => true
  | _ => false

/-- **What happened to requests**, oldest first. -/
def ledger (history : List Entry) : List Occurrence :=
  (history.reverse.map Entry.occurrence).filter isDealing

/-- **What can become of requests** in a state of a connection. -/
structure View (σ α : Type) where
  framing : Framing
  phase : Phase
  peer : σ
  connected : Bool
  arriving : List Bytes
  queue : List Queued
  nextTicket : Nat
  calls : List (Progress α)
  ledger : List Occurrence

variable {σ α : Type}

/-- The view of a connection. -/
def view (connection : Connection σ α) : View σ α where
  framing := connection.codec.framing
  phase := phase connection.worker
  peer := connection.wire.peer
  connected := connection.wire.connected
  arriving := connection.wire.arriving
  queue := connection.queue.items
  nextTicket := connection.queue.nextTicket
  calls := connection.calls.map Call.progress
  ledger := ledger connection.history

/-- **What every view satisfies**: a closed link has nothing on its way, and an exchange that ended
with an error ended with one that closes the link. -/
structure View.Tidy (view : View σ α) : Prop where
  closed : view.connected = false → view.arriving = []
  failed : ∀ item error, view.phase = .ended item (.error error) →
    (error.needsReconnect || error == Error.disposed) = true

/-! ## Labels -/

/-- **A request sent**: what had not been read when it was, and what the peer answered. -/
structure Sending where
  item : Queued
  left : List Bytes
  own : List Bytes

/-- What an action does that is not in the view. -/
inductive Label (α : Type) where
  | silent
  | sent (sending : Sending)
  | started (operation : Operation α)

namespace Label

/-- The request that was sent. -/
def sent? : Label α → Option Sending
  | sent sending => some sending
  | _ => none

/-- The operation that was started. -/
def started? : Label α → Option (Operation α)
  | started operation => some operation
  | _ => none

end Label

/-- The label of an action. -/
def label [Peer σ] (connection : Connection σ α) : Action α → Label α
  | .worker =>
    match connection.worker with
    | .sending item =>
      if connection.wire.connected then
        .sent ⟨item, connection.wire.arriving,
          (Peer.answer connection.wire.peer item.request).1⟩
      else .silent
    | _ => .silent
  | .start operation _ => if connection.worker.isRunning then .silent else .started operation
  | _ => .silent

/-- The labels of a run. -/
def labels [Peer σ] (connection : Connection σ α) : List (Action α) → List (Label α)
  | [] => []
  | action :: actions => connection.label action :: labels (connection.step action) actions

/-- **The requests that a run sends**, in order. -/
def sendings [Peer σ] (connection : Connection σ α) (actions : List (Action α)) : List Sending :=
  (connection.labels actions).filterMap Label.sent?

/-- **The operations that a run starts**, in the order of their calls. -/
def started [Peer σ] (connection : Connection σ α) (actions : List (Action α)) :
    List (Operation α) :=
  (connection.labels actions).filterMap Label.started?

lemma started_eq_nil [Peer σ] : ∀ (actions : List (Action α)) (connection : Connection σ α),
    (∀ operation cancelled, .start operation cancelled ∉ actions) → connection.started actions = []
  | [], _, _ => rfl
  | action :: actions, connection, h => by
      have hlater := started_eq_nil actions (connection.step action)
        fun operation cancelled hin => h operation cancelled (List.mem_cons_of_mem _ hin)
      have hfirst : (connection.label action).started? = none := by
        cases action with
        | start operation cancelled => exact absurd (List.mem_cons_self ..) (h operation cancelled)
        | worker =>
            simp only [label]
            split
            · split_ifs <;> rfl
            · rfl
        | _ => rfl
      rw [started, labels, List.filterMap_cons, hfirst]
      exact hlater

/-- Operations started while the worker waits, and none afterwards. -/
lemma started_of_starts [Peer σ] {actions : List (Action α)}
    (hactions : ∀ operation cancelled, .start operation cancelled ∉ actions) :
    ∀ (operations : List (Operation α)) (connection : Connection σ α),
      connection.worker.isRunning = false →
        connection.started (operations.map (fun operation => .start operation false) ++ actions)
          = operations
  | [], connection, _ => started_eq_nil actions connection hactions
  | operation :: operations, connection, h => by
      have hlater := started_of_starts hactions operations
        (connection.step (.start operation false)) (by simp [step, h, Caller.start])
      rw [List.map_cons, List.cons_append, started, labels, List.filterMap_cons]
      simp only [label, h, Bool.false_eq_true, if_false, Label.started?]
      exact congrArg (operation :: ·) hlater
/-! ## Moves -/

/-- The result of a request, for the call that still waits for it. -/
def delivered (ticket : Nat) (result : Result Bytes) : Progress α → Progress α
  | .waiting own none next =>
    if own = ticket then .waiting own (some result) next else .waiting own none next
  | progress => progress

/-- **Everything that one action can do to a view.** -/
inductive Move [Peer σ] : View σ α → Label α → View σ α → Prop where
  | rest {v : View σ α} : Move v .silent v
  /-- The worker takes the oldest request. -/
  | take {v : View σ α} {item : Queued} {rest : List Queued} (hphase : v.phase = .idle)
      (hqueue : v.queue = item :: rest) :
      Move v .silent { v with phase := .holding item, queue := rest }
  /-- A request is given up before it has the link. -/
  | withdraw {v : View σ α} {item : Queued} {error : Error} (hphase : v.phase = .holding item) :
      Move v .silent { v with phase := .delivering item (.error error) }
  /-- The link is opened, and what was on it may be lost. -/
  | attempt {v : View σ α} {item : Queued} {connected : Bool} {arriving : List Bytes}
      (hphase : v.phase = .holding item) (harriving : arriving = v.arriving ∨ arriving = [])
      (hclosed : connected = false → arriving = []) :
      Move v .silent { v with connected, arriving }
  /-- An exchange, begun or not, ends with an error. -/
  | fail {v : View σ α} {item : Queued} {error : Error} {connected : Bool} {arriving : List Bytes}
      (hphase : v.phase = .holding item ∨ ∃ received, v.phase = .reading item received)
      (hcloses : (error.needsReconnect || error == Error.disposed) = true)
      (hclosed : connected = false → arriving = []) :
      Move v .silent { v with connected, arriving, phase := .ended item (.error error) }
  | send {v : View σ α} {item : Queued} (hphase : v.phase = .holding item)
      (hopen : v.connected = true) :
      Move v (.sent ⟨item, v.arriving, (Peer.answer v.peer item.request).1⟩)
        { v with
          phase := .reading item []
          peer := (Peer.answer v.peer item.request).2
          arriving := v.arriving ++ (Peer.answer v.peer item.request).1
          ledger := v.ledger ++ [.wire (.sent item.request)] }
  | read {v : View σ α} {item : Queued} {received chunk : Bytes} {later : List Bytes}
      (hphase : v.phase = .reading item received) (hopen : v.connected = true)
      (hchunk : chunk ≠ []) (harriving : chunk ++ later.flatten = v.arriving.flatten)
      (hlater : (∀ other ∈ v.arriving, other ≠ []) → ∀ other ∈ later, other ≠ []) :
      Move v .silent { v with
        phase :=
          if item.complete (received ++ chunk) then .ended item (.ok (received ++ chunk))
          else .reading item (received ++ chunk)
        arriving := later }
  /-- A reply is whole; the link stays as it is. -/
  | conclude {v : View σ α} {item : Queued} {bytes : Bytes}
      (hphase : v.phase = .ended item (.ok bytes)) :
      Move v .silent { v with phase := .delivering item (.ok bytes) }
  /-- An error closes the link. -/
  | abort {v : View σ α} {item : Queued} {error : Error}
      (hphase : v.phase = .ended item (.error error)) :
      Move v .silent { v with
        connected := false, arriving := [], phase := .delivering item (.error error) }
  | deliver {v : View σ α} {item : Queued} {result : Result Bytes}
      (hphase : v.phase = .delivering item result) :
      Move v .silent { v with
        phase := .idle
        calls := v.calls.modify item.call (delivered item.ticket result)
        ledger := v.ledger ++ [.delivered item.ticket result] }
  /-- The idle timer or a disposal closes the link. -/
  | unlink {v : View σ α} : Move v .silent { v with connected := false, arriving := [] }
  /-- A disposal refuses what is queued. -/
  | refuseQueued {v : View σ α} :
      Move v .silent { v with
        queue := []
        calls := v.queue.foldl (fun calls item =>
          calls.modify item.call (delivered item.ticket (.error .disposed))) v.calls }
  | start {v : View σ α} (operation : Operation α) :
      Move v (.started operation) { v with calls := v.calls ++ [.running operation] }
  | finish {v : View σ α} {id : Nat} {outcome : Result α}
      (hcall : v.calls[id]? = some (.running (.done outcome))) :
      Move v .silent { v with calls := v.calls.set id (.finished outcome) }
  | frame {v : View σ α} {id : Nat} {unit : UnitId} {pdu : Bytes} {next : Bytes → Operation α}
      (hcall : v.calls[id]? = some (.running (.frame unit pdu next))) (transaction : UInt16) :
      Move v .silent { v with
        calls := v.calls.set id
          (.running (next (v.framing.wrap ⟨unit, some transaction⟩ pdu))) }
  /-- A request is refused; it may have used up a ticket. -/
  | refuse {v : View σ α} {id : Nat} {request : Bytes} {complete : Bytes → Bool}
      {next : Result Bytes → Operation α} {error : Error} {nextTicket : Nat}
      (hcall : v.calls[id]? = some (.running (.invoke request complete next)))
      (hticket : v.nextTicket ≤ nextTicket) :
      Move v .silent { v with
        nextTicket, calls := v.calls.set id (.running (next (.error error))) }
  | accept {v : View σ α} {id : Nat} {request : Bytes} {complete : Bytes → Bool}
      {next : Result Bytes → Operation α}
      (hcall : v.calls[id]? = some (.running (.invoke request complete next))) :
      Move v .silent { v with
        queue := v.queue ++ [⟨v.nextTicket, id, request, complete⟩]
        nextTicket := v.nextTicket + 1
        calls := v.calls.set id (.waiting v.nextTicket none next)
        ledger := v.ledger ++ [.accepted v.nextTicket id] }
  /-- A call stops waiting: its result is there, or it gives up with an error. -/
  | leave {v : View σ α} {id ticket : Nat} {reply : Option (Result Bytes)}
      {next : Result Bytes → Operation α} {result : Result Bytes} {queue : List Queued}
      (hcall : v.calls[id]? = some (.waiting ticket reply next))
      (hresult : reply = some result ∨ ∃ error, result = .error error)
      (hqueue : queue.Sublist v.queue) :
      Move v .silent { v with
        queue
        calls := v.calls.set id (.running (next result))
        ledger := v.ledger ++ [.returned ticket result] }
  | drop {v : View σ α} {id : Nat} {queue : List Queued} (hqueue : queue.Sublist v.queue) :
      Move v .silent { v with queue, calls := v.calls.set id .dropped }

/-- **Every move keeps a view tidy.** -/
lemma Move.tidy [Peer σ] {v v' : View σ α} {label : Label α} (hmove : Move v label v')
    (h : v.Tidy) : v'.Tidy := by
  obtain ⟨hclosed, hfailed⟩ := h
  cases hmove with
  | attempt hphase _ htidy => exact ⟨htidy, hfailed⟩
  | fail _ hcloses htidy =>
      refine ⟨htidy, fun other cause hended => ?_⟩
      simp only [Phase.ended.injEq, Except.error.injEq] at hended
      exact hended.2 ▸ hcloses
  | read hphase hopen =>
      refine ⟨fun hshut => absurd (hopen.symm.trans hshut) (by simp), fun other cause hended => ?_⟩
      split at hended
      · simp at hended
      · simp at hended
  | send _ hopen =>
      exact ⟨fun hshut => absurd (hopen.symm.trans hshut) (by simp), fun _ _ hended => by simp at hended⟩
  | abort _ => exact ⟨fun _ => rfl, fun _ _ hended => by simp at hended⟩
  | unlink => exact ⟨fun _ => rfl, hfailed⟩
  | take _ _ => exact ⟨hclosed, fun _ _ hended => by simp at hended⟩
  | withdraw _ => exact ⟨hclosed, fun _ _ hended => by simp at hended⟩
  | conclude _ => exact ⟨hclosed, fun _ _ hended => by simp at hended⟩
  | deliver _ => exact ⟨hclosed, fun _ _ hended => by simp at hended⟩
  | rest => exact ⟨hclosed, hfailed⟩
  | refuseQueued => exact ⟨hclosed, hfailed⟩
  | start _ => exact ⟨hclosed, hfailed⟩
  | finish _ => exact ⟨hclosed, hfailed⟩
  | frame _ _ => exact ⟨hclosed, hfailed⟩
  | refuse _ _ => exact ⟨hclosed, hfailed⟩
  | accept _ => exact ⟨hclosed, hfailed⟩
  | leave _ _ _ => exact ⟨hclosed, hfailed⟩
  | drop _ => exact ⟨hclosed, hfailed⟩

/-- Nothing that happened is forgotten. -/
lemma Move.ledger [Peer σ] {v v' : View σ α} {label : Label α} (hmove : Move v label v') :
    v.ledger ⊆ v'.ledger := by
  cases hmove <;> simp

/-- A connection keeps its framing. -/
lemma Move.framing [Peer σ] {v v' : View σ α} {label : Label α} (hmove : Move v label v') :
    v'.framing = v.framing := by
  cases hmove <;> rfl

/-! ## Views of changed connections -/

lemma ledger_cons (entry : Entry) (history : List Entry) :
    ledger (entry :: history) = ledger history ++ [entry.occurrence].filter isDealing := by
  simp [ledger]

lemma view_note (connection : Connection σ α) (occurrence : Occurrence) :
    (connection.note occurrence).view
      = { connection.view with
          ledger := connection.view.ledger ++ [occurrence].filter isDealing } := by
  simp only [note, view, ledger_cons]

lemma view_foldl_note (events : List Wire.Event) (connection : Connection σ α) :
    (events.foldl (fun connection event => connection.note (.wire event)) connection).view
      = { connection.view with
          ledger := connection.view.ledger ++ (events.map Occurrence.wire).filter isDealing } := by
  induction events generalizing connection with
  | nil => simp
  | cons event events ih =>
      rw [List.foldl_cons, ih, view_note]
      cases hdealing : isDealing (.wire event) <;> simp [hdealing]

/-- What an operation on the link does to the view. -/
lemma view_perform {β : Type} (connection : Connection σ α) (performed : Wire.Performed σ β) :
    (connection.perform performed).view
      = { connection.view with
          peer := performed.wire.peer
          connected := performed.wire.connected
          arriving := performed.wire.arriving
          ledger := connection.view.ledger
            ++ (performed.events.map Occurrence.wire).filter isDealing } := by
  rw [perform, view_foldl_note]
  rfl

lemma view_close (connection : Connection σ α) (h : connection.view.Tidy) :
    (connection.perform connection.wire.close).view
      = { connection.view with connected := false, arriving := [] } := by
  rw [view_perform, Wire.close]
  split_ifs with hopen
  · simp [view, isDealing]
  · have hshut : connection.view.connected = false := by simpa [view] using hopen
    have harriving := h.closed hshut
    simp only [view] at hshut harriving ⊢
    simp [hshut, harriving]

lemma view_closeLink (connection : Connection σ α) (h : connection.view.Tidy) :
    connection.closeLink.view = { connection.view with connected := false, arriving := [] } := by
  rw [← view_close connection h]
  rfl

lemma view_moveTo (connection : Connection σ α) (stage : Stage) :
    (Worker.moveTo connection stage).view = { connection.view with phase := phase stage } := rfl

lemma map_modify {β γ : Type} (f : β → β) (g : β → γ) (h : γ → γ) (hfg : ∀ b, g (f b) = h (g b)) :
    ∀ (list : List β) (index : Nat), (list.modify index f).map g = (list.map g).modify index h
  | [], _ => by simp
  | first :: rest, 0 => by simp [hfg]
  | first :: rest, index + 1 => by simp [map_modify f g h hfg rest index]

lemma map_modify_set {β γ : Type} (f : β → β) (g : β → γ) (c : γ) (hfg : ∀ b, g (f b) = c) :
    ∀ (list : List β) (index : Nat), (list.modify index f).map g = (list.map g).set index c
  | [], _ => by simp
  | first :: rest, 0 => by simp [hfg]
  | first :: rest, index + 1 => by simp [map_modify_set f g c hfg rest index]

lemma view_deliver (connection : Connection σ α) (item : Queued) (result : Result Bytes) :
    (connection.deliver item result).view
      = { connection.view with
          calls := connection.view.calls.modify item.call (delivered item.ticket result) } := by
  simp only [deliver, modifyCall, view]
  rw [map_modify _ _ (delivered item.ticket result)]
  intro call
  cases hprogress : call.progress with
  | waiting ticket reply next =>
      cases reply with
      | none => by_cases hticket : ticket = item.ticket <;> simp [delivered, hticket, hprogress]
      | some reply => simp [delivered, hprogress]
  | running operation => simp [delivered, hprogress]
  | finished outcome => simp [delivered, hprogress]
  | dropped => simp [delivered, hprogress]

end Modbus.Connection
