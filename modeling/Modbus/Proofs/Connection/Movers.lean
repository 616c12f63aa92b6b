import Mathlib.Tactic.Common
import Modbus.Connection.Step

/-!
# Who moves the worker

Whatever the other tasks, the callers and the link do, the worker stays where it is: only its own
moves move it (`worker_of_step`).  And while it is between two waits nobody else does anything at all
(`step_of_running`).  Of its own moves the end of an attempt to open the link is the one that every
account of the worker needs, and so it is here (`Worker.attemptEnded_cases`).
-/

namespace Modbus.Connection

variable {σ α : Type}

/-! ## Who moves the worker -/

lemma worker_foldl_note : ∀ (events : List Wire.Event) (connection : Connection σ α),
    (events.foldl (fun connection event => connection.note (.wire event)) connection).worker
      = connection.worker
  | [], _ => rfl
  | event :: events, connection => worker_foldl_note events (connection.note (.wire event))

lemma worker_foldl_deliver (result : Result Bytes) :
    ∀ (items : List Queued) (connection : Connection σ α),
      (items.foldl (fun connection item => connection.deliver item result) connection).worker
        = connection.worker
  | [], _ => rfl
  | item :: items, connection => worker_foldl_deliver result items (connection.deliver item result)

lemma worker_closeLink (connection : Connection σ α) :
    connection.closeLink.worker = connection.worker :=
  worker_foldl_note _ { connection with wire := connection.wire.close.wire }

lemma IdleTimer.worker_of_step {connection c' : Connection σ α} {wakeup : IdleTimer.Wakeup}
    (hstep : IdleTimer.step? connection wakeup = some c') : c'.worker = connection.worker := by
  unfold IdleTimer.step? at hstep
  split at hstep
  · exact Option.some.inj hstep ▸ rfl
  · unfold IdleTimer.wake? at hstep
    split at hstep
    · split_ifs at hstep
      exact Option.some.inj hstep ▸ rfl
    · split_ifs at hstep
      exact Option.some.inj hstep ▸ rfl
    · split at hstep
      · simp at hstep
      · split_ifs at hstep
        exact Option.some.inj hstep ▸ rfl
  · rename_i deadline _
    split_ifs at hstep
    have hexpired : c'.worker = (IdleTimer.expire connection deadline).worker :=
      Option.some.inj hstep ▸ rfl
    rw [hexpired, IdleTimer.expire]
    split_ifs
    · exact worker_closeLink _
    · rfl
    · rfl
  · simp at hstep

lemma Caller.worker_of_step {connection c' : Connection σ α} {id : Nat}
    (hstep : Caller.step? connection id = some c') : c'.worker = connection.worker := by
  unfold Caller.step? at hstep
  split at hstep
  · simp at hstep
  · split at hstep
    · exact Option.some.inj hstep ▸ rfl
    · exact Option.some.inj hstep ▸ rfl
    · rw [← Option.some.inj hstep]
      unfold Caller.invoke
      split
      · rfl
      · split <;> rfl
    · exact Option.some.inj hstep ▸ rfl
    · split_ifs at hstep
      · exact Option.some.inj hstep ▸ rfl
      · exact Option.some.inj hstep ▸ rfl
    · simp at hstep
    · simp at hstep

lemma Disposing.worker_of_step {connection c' : Connection σ α}
    (hstep : Disposing.step? connection = some c') : c'.worker = connection.worker := by
  unfold Disposing.step? at hstep
  split at hstep
  · split at hstep
    · exact Option.some.inj hstep ▸ rfl
    · simp at hstep
  · split at hstep
    · have hrefused : c'.worker = (Disposing.refuseQueued connection).worker :=
        Option.some.inj hstep ▸ rfl
      rw [hrefused]
      exact worker_foldl_deliver _ _ { connection with queue := connection.queue.close.2 }
    · simp at hstep
  · split_ifs at hstep
    have hclosed : c'.worker = connection.closeLink.worker := Option.some.inj hstep ▸ rfl
    rw [hclosed, worker_closeLink]
  · simp at hstep
  · simp at hstep

/-- **Only the worker moves the worker.** -/
lemma worker_of_step [Peer σ] (connection : Connection σ α) {action : Action α}
    (haction : action ≠ .worker) : (connection.step action).worker = connection.worker := by
  have hdone {later : Option (Connection σ α)}
      (hlater : ∀ after, later = some after → after.worker = connection.worker) :
      (later.getD connection).worker = connection.worker := by
    cases later with
    | none => rfl
    | some after => exact hlater after rfl
  have hother {later : Connection σ α} (hlater : later.worker = connection.worker) :
      (if connection.worker.isRunning then connection else later).worker = connection.worker := by
    split_ifs
    · rfl
    · exact hlater
  cases action with
  | worker => exact absurd rfl haction
  | timer wakeup => exact hother (hdone fun after hafter => IdleTimer.worker_of_step hafter)
  | caller id => exact hother (hdone fun after hafter => Caller.worker_of_step hafter)
  | disposing => exact hother (hdone fun after hafter => Disposing.worker_of_step hafter)
  | drop id =>
      refine hother ?_
      unfold Caller.drop
      split
      · rfl
      · simp only
        split <;> rfl
  | dispose =>
      refine hother ?_
      unfold Disposing.begin
      split <;> rfl
  | advance now =>
      refine hother ?_
      unfold advance
      split_ifs <;> rfl
  | _ => exact hother rfl

/-- While the worker is between two waits nobody else acts. -/
lemma step_of_running [Peer σ] {connection : Connection σ α}
    (hrunning : connection.worker.isRunning = true) {action : Action α}
    (haction : action ≠ .worker) : connection.step action = connection := by
  cases action with
  | worker => exact absurd rfl haction
  | _ => simp only [step, hrunning, if_true]

/-! ## How an attempt ends -/

lemma wire_foldl_note : ∀ (events : List Wire.Event) (connection : Connection σ α),
    (events.foldl (fun connection event => connection.note (.wire event)) connection).wire
      = connection.wire
  | [], _ => rfl
  | event :: events, connection => wire_foldl_note events (connection.note (.wire event))

namespace Worker

/-- **How an attempt ends**: with the link open and the worker about to send, or as a failed one. -/
lemma attemptEnded_cases (connection : Connection σ α) (item : Queued) (attempts : Attempts) :
    (connection.wire.open.events = [.opened] ∧ connection.wire.open.wire.connected = true ∧
        attemptEnded connection item attempts
          = moveTo { connection.perform connection.wire.open with state := .connected }
              (.sending item)) ∨
      ∃ fault, connection.wire.open.events = [.refused] ∧
        attemptEnded connection item attempts
          = attemptFailed (connection.perform connection.wire.open) item attempts fault := by
  have hopen : (connection.wire.open.result = .ok () ∧ connection.wire.open.events = [.opened] ∧
        connection.wire.open.wire.connected = true) ∨
      ∃ fault, connection.wire.open.result = .error fault ∧
        connection.wire.open.events = [.refused] := by
    unfold Wire.open
    split_ifs
    · exact .inl ⟨rfl, rfl, rfl⟩
    · exact .inr ⟨_, rfl, rfl⟩
  rcases hopen with ⟨hresult, hevents, hconnected⟩ | ⟨fault, hresult, hevents⟩
  · exact .inl ⟨hevents, hconnected, by simp only [attemptEnded, hresult]⟩
  · exact .inr ⟨fault, hevents, by simp only [attemptEnded, hresult]⟩

end Worker

end Modbus.Connection
