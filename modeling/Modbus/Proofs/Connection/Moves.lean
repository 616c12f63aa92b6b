import Modbus.Proofs.Connection.WorkerMoves

/-!
# The moves of a connection

The idle timer, the callers and a disposal do less to a request than the worker does.  With their
moves every action is accounted for: `move_of_action` says that one action is one move, and
`run_induction` that a statement about views which every move keeps holds after every run.  The one
action that is left out is a chunk that comes in unasked, which no peer that only answers sends.
-/

namespace Modbus.Connection

variable {σ α : Type} {connection : Connection σ α}

/-! ## The idle timer -/

lemma IdleTimer.move_of_step [Peer σ] {wakeup : IdleTimer.Wakeup} {c' : Connection σ α}
    (htidy : connection.view.Tidy) (hstep : IdleTimer.step? connection wakeup = some c') :
    Move connection.view .silent c'.view := by
  have hrest (later : Connection σ α) (hlater : later.view = connection.view) :
      Move connection.view .silent later.view := by
    rw [hlater]
    exact .rest
  cases htimer : connection.timer with
  | looking =>
      simp only [IdleTimer.step?, htimer, Option.some.injEq] at hstep
      exact hrest c' (hstep ▸ rfl)
  | watching deadline =>
      simp only [IdleTimer.step?, htimer] at hstep
      refine hrest c' ?_
      unfold IdleTimer.wake? at hstep
      split at hstep
      · split_ifs at hstep
        exact Option.some.inj hstep ▸ rfl
      · split_ifs at hstep
        exact Option.some.inj hstep ▸ rfl
      · split at hstep
        · simp at hstep
        · split_ifs at hstep
          exact Option.some.inj hstep ▸ rfl
  | awaitingLink deadline =>
      simp only [IdleTimer.step?, htimer] at hstep
      split_ifs at hstep
      rw [Option.some.injEq] at hstep
      have hview : c'.view = (IdleTimer.expire connection deadline).view := hstep ▸ rfl
      rw [hview]
      unfold IdleTimer.expire
      split_ifs with hdeadline hopen
      · have hnote : (({ connection with idleDeadline := none } : Connection σ α).note
            .expired).view = connection.view := by
          rw [view_note]
          simp [isDealing, view]
        simp only
        rw [view_closeLink _ (by rw [hnote]; exact htidy), hnote]
        exact .unlink
      · exact .rest
      · exact .rest
  | stopped => simp [IdleTimer.step?, htimer] at hstep

/-! ## Callers -/

namespace Caller

lemma view_continueWith (connection : Connection σ α) (id : Nat) (operation : Operation α) :
    (continueWith connection id operation).view
      = { connection.view with calls := connection.view.calls.set id (.running operation) } := by
  simp only [continueWith, modifyCall, view]
  rw [map_modify_set _ _ (.running operation) fun call => rfl]

lemma move_of_invoke [Peer σ] {id : Nat} {call : Call α} {request : Bytes} {complete : Bytes → Bool}
    {next : Result Bytes → Operation α}
    (hcall : connection.view.calls[id]? = some (.running (.invoke request complete next))) :
    Move connection.view .silent (invoke connection id call request complete next).view := by
  unfold invoke
  split
  · rw [view_continueWith]
    exact .refuse hcall (Nat.le_refl _)
  · cases hclosed : connection.queue.closed with
    | true =>
        simp only [Queue.push, hclosed, if_true]
        rw [view_continueWith]
        exact .refuse hcall (Nat.le_succ _)
    | false =>
        simp only [Queue.push, hclosed, Bool.false_eq_true, if_false]
        rw [view_note]
        simp only [modifyCall, view]
        rw [map_modify_set _ _ (.waiting connection.queue.nextTicket none next) fun call => rfl]
        exact .accept hcall

/-- **A move of a call** is a move of the view. -/
lemma move_of_step [Peer σ] {id : Nat} {c' : Connection σ α} (hstep : step? connection id = some c') :
    Move connection.view .silent c'.view := by
  cases hfound : connection.calls[id]? with
  | none => simp [step?, hfound] at hstep
  | some call =>
      have hcall (progress : Progress α) (hprogress : call.progress = progress) :
          connection.view.calls[id]? = some progress := by
        simp [view, hfound, hprogress]
      have hleave {ticket : Nat} {reply : Option (Result Bytes)}
          {next : Result Bytes → Operation α} {result : Result Bytes}
          (hprogress : call.progress = .waiting ticket reply next)
          (hresult : reply = some result ∨ ∃ error, result = .error error) :
          Move connection.view .silent (leave connection id ticket result next).view := by
        rw [leave, view_note, view_continueWith]
        exact .leave (hcall _ hprogress) hresult List.filter_sublist
      cases hprogress : call.progress with
      | running operation =>
          cases operation with
          | done outcome =>
              simp only [step?, hfound, hprogress, Option.some.injEq] at hstep
              rw [← hstep]
              simp only [modifyCall, view]
              rw [map_modify_set _ _ (.finished outcome) fun call => rfl]
              exact .finish (hcall _ hprogress)
          | frame unit pdu next =>
              simp only [step?, hfound, hprogress, Option.some.injEq] at hstep
              rw [← hstep, view_continueWith]
              exact .frame (hcall _ hprogress) connection.codec.transaction
          | invoke request complete next =>
              simp only [step?, hfound, hprogress, Option.some.injEq] at hstep
              exact hstep ▸ move_of_invoke (hcall _ hprogress)
      | waiting ticket reply next =>
          cases reply with
          | some result =>
              simp only [step?, hfound, hprogress, Option.some.injEq] at hstep
              exact hstep ▸ hleave hprogress (.inl rfl)
          | none =>
              simp only [step?, hfound, hprogress] at hstep
              split_ifs at hstep
              · exact Option.some.inj hstep ▸ hleave hprogress (.inr ⟨_, rfl⟩)
              · exact Option.some.inj hstep ▸ hleave hprogress (.inr ⟨_, rfl⟩)
      | finished outcome => simp [step?, hfound, hprogress] at hstep
      | dropped => simp [step?, hfound, hprogress] at hstep

lemma move_of_cancel [Peer σ] (id : Nat) :
    Move connection.view .silent (cancel connection id).view := by
  have hcalls : (cancel connection id).view.calls = connection.view.calls :=
    (map_modify (fun call : Call α => { call with cancelled := true }) Call.progress
      (fun progress => progress) (fun _ => rfl) connection.calls id).trans (List.modify_id ..)
  have hview : (cancel connection id).view
      = { connection.view with calls := (cancel connection id).view.calls } := rfl
  rw [hview, hcalls]
  exact .rest

lemma move_of_drop [Peer σ] (id : Nat) :
    Move connection.view .silent (drop connection id).view := by
  have hdropped : (connection.modifyCall id fun call => { call with progress := .dropped }).view
      = { connection.view with calls := connection.view.calls.set id .dropped } := by
    simp only [modifyCall, view]
    rw [map_modify_set _ _ .dropped fun call => rfl]
  unfold drop
  split
  · exact .rest
  · rename_i call hfound
    cases hprogress : call.progress with
    | running operation =>
        simp only
        rw [hdropped]
        exact .drop (List.Sublist.refl _)
    | waiting ticket reply next =>
        have hview : (({ connection.modifyCall id fun call => { call with progress := .dropped } with
            queue := connection.queue.remove ticket } : Connection σ α).note (.abandoned ticket)).view
              = { connection.view with
                  queue := (connection.queue.remove ticket).items
                  calls := connection.view.calls.set id .dropped } := by
          rw [view_note]
          simp only [modifyCall, view]
          rw [map_modify_set _ _ .dropped fun call => rfl]
          simp [isDealing, Queue.remove]
        simp only
        rw [hview]
        exact .drop List.filter_sublist
    | finished outcome => exact .rest
    | dropped => exact .rest

end Caller

/-! ## A disposal -/

namespace Disposing

/-- Requests refused one after the other. -/
lemma view_foldl_deliver (result : Result Bytes) :
    ∀ (items : List Queued) (connection : Connection σ α),
      (items.foldl (fun connection item => connection.deliver item result) connection).view
        = { connection.view with
            calls := items.foldl (fun calls item =>
              calls.modify item.call (delivered item.ticket result)) connection.view.calls }
  | [], _ => rfl
  | item :: items, connection => by
      rw [List.foldl_cons, view_foldl_deliver result items, view_deliver]
      rfl

lemma move_of_step [Peer σ] {c' : Connection σ α} (htidy : connection.view.Tidy)
    (hstep : step? connection = some c') : Move connection.view .silent c'.view := by
  unfold step? at hstep
  split at hstep
  · split at hstep
    · exact Option.some.inj hstep ▸ .rest
    · simp at hstep
  · split at hstep
    · rw [Option.some.injEq] at hstep
      have hview : c'.view = (refuseQueued connection).view := hstep ▸ rfl
      rw [hview, refuseQueued]
      simp only [Queue.close, view_foldl_deliver]
      exact .refuseQueued
    · simp at hstep
  · split_ifs at hstep
    rw [Option.some.injEq] at hstep
    have hview : c'.view = connection.closeLink.view := hstep ▸ rfl
    rw [hview, view_closeLink connection htidy]
    exact .unlink
  · simp at hstep
  · simp at hstep

end Disposing

/-! ## Every action -/

/-- **One action is one move.** -/
theorem move_of_action [Peer σ] (htidy : connection.view.Tidy) (action : Action α)
    (hpush : ∀ chunk, action ≠ .push chunk) :
    Move connection.view (connection.label action) (connection.step action).view := by
  have hdone {later : Option (Connection σ α)}
      (hlater : ∀ after, later = some after → Move connection.view .silent after.view) :
      Move connection.view .silent (later.getD connection).view := by
    cases later with
    | none => exact .rest
    | some after => exact hlater after rfl
  cases action with
  | worker =>
      cases hstep : Worker.step? connection with
      | none =>
          have hsilent : connection.label (α := α) .worker = .silent := by
            simp only [label]
            split
            · rename_i item hworker
              simp [Worker.step?, hworker] at hstep
            · rfl
          simp only [hsilent, step, hstep, Option.getD_none]
          exact .rest
      | some after =>
          simp only [step, hstep, Option.getD_some]
          exact Worker.move_of_step htidy hstep
  | start operation cancelled =>
      simp only [step, label]
      split_ifs
      · exact .rest
      · have hview : (Caller.start connection operation cancelled).2.view
            = { connection.view with calls := connection.view.calls ++ [.running operation] } := by
          simp [Caller.start, view]
        rw [hview]
        exact .start operation
  | push chunk => exact absurd rfl (hpush chunk)
  | timer wakeup =>
      simp only [step, label]
      split_ifs
      · exact .rest
      · exact hdone fun after hafter => IdleTimer.move_of_step htidy hafter
  | caller id =>
      simp only [step, label]
      split_ifs
      · exact .rest
      · exact hdone fun after hafter => Caller.move_of_step hafter
  | disposing =>
      simp only [step, label]
      split_ifs
      · exact .rest
      · exact hdone fun after hafter => Disposing.move_of_step htidy hafter
  | cancel id =>
      simp only [step, label]
      split_ifs
      · exact .rest
      · exact Caller.move_of_cancel id
  | drop id =>
      simp only [step, label]
      split_ifs
      · exact .rest
      · exact Caller.move_of_drop id
  | dispose =>
      simp only [step, label]
      split_ifs
      · exact .rest
      · unfold Disposing.begin
        split <;> exact .rest
  | refuse count =>
      simp only [step, label]
      split_ifs <;> exact .rest
  | slow delay =>
      simp only [step, label]
      split_ifs <;> exact .rest
  | advance now =>
      simp only [step, label]
      split_ifs
      · exact .rest
      · unfold advance
        split_ifs <;> exact .rest

/-! ## Runs -/

/-- **What every move keeps, every run keeps**, with the labels of the run so far in view. -/
theorem run_induction [Peer σ] {motive : List (Label α) → View σ α → Prop}
    (hmove : ∀ past v label v', motive past v → v.Tidy → Move v label v' →
      motive (past ++ [label]) v') :
    ∀ (actions : List (Action α)) (connection : Connection σ α) (past : List (Label α)),
      (∀ chunk, .push chunk ∉ actions) → connection.view.Tidy → motive past connection.view →
        motive (past ++ connection.labels actions) (connection.run actions).view
  | [], connection, past, _, _, hpast => by simpa [labels, run] using hpast
  | action :: actions, connection, past, hpush, htidy, hpast => by
      have hstep := move_of_action htidy action fun chunk h =>
        hpush chunk (h ▸ List.mem_cons_self ..)
      have hlater := run_induction hmove actions (connection.step action)
        (past ++ [connection.label action]) (fun chunk h => hpush chunk (List.mem_cons_of_mem _ h))
        (hstep.tidy htidy) (hmove _ _ _ _ hpast htidy hstep)
      rw [List.append_assoc] at hlater
      exact hlater

/-- **Invariants of a new connection**, over a link with nothing on its way. -/
lemma invariant_of_run [Peer σ] {motive : List (Label α) → View σ α → Prop} (name : String)
    (timing : Timing) (framing : Framing) {wire : Wire σ} (hwire : wire.arriving = [])
    (hinitial : motive [] (create name timing framing wire : Connection σ α).view)
    (hmove : ∀ past v label v', motive past v → v.Tidy → Move v label v' →
      motive (past ++ [label]) v')
    {actions : List (Action α)} (hpush : ∀ chunk, .push chunk ∉ actions) :
    motive ((create name timing framing wire).labels actions)
      ((create name timing framing wire).run actions).view :=
  run_induction hmove actions _ [] hpush
    ⟨fun _ => hwire, fun _ _ hended => by simp [view, create, phase] at hended⟩ hinitial

end Modbus.Connection
