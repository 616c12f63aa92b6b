import Modbus.Proofs.Connection.Moves

/-!
# The order of requests

Requests are accepted one after the other and sent one after the other.  In between they wait in
the queue, and one may be held by the worker; some are never sent.  `line` is all of them that are
not given up: those sent, the one held, those queued.  A move leaves the line as it is, drops
requests from it, or adds one at its end (`Move.line`), so at any time the line is a part of what
was accepted, in the order in which it was accepted (`Ordered`).
-/

namespace Modbus.Connection

variable {σ α : Type}

/-- The requests that may still be sent, in order. -/
def View.unsent (view : View σ α) : List Queued :=
  (match view.phase with
    | .holding item => [item]
    | _ => []) ++ view.queue

/-- **The requests that are not given up**: those sent, then those that may still be sent. -/
def line (past : List (Label α)) (view : View σ α) : List Queued :=
  (past.filterMap Label.sent?).map Sending.item ++ view.unsent

/-- The tickets that were given out, each with its call, in order. -/
def accepted (ledger : List Occurrence) : List (Nat × Nat) :=
  ledger.filterMap fun
    | .accepted ticket call => some (ticket, call)
    | _ => none

lemma line_silent {past : List (Label α)} {v v' : View σ α} (h : v'.unsent.Sublist v.unsent) :
    (line (past ++ [.silent]) v').Sublist (line past v) := by
  have hpast : (past ++ [Label.silent]).filterMap Label.sent? = past.filterMap Label.sent? := by
    simp [Label.sent?]
  rw [line, line, hpast]
  exact (List.Sublist.refl _).append h

/-- The frames that went out on the link. -/
def frames (ledger : List Occurrence) : List Bytes :=
  ledger.filterMap fun
    | .wire (.sent frame) => some frame
    | _ => none

lemma Move.frames [Peer σ] {v v' : View σ α} {label : Label α} (hmove : Move v label v') :
    Connection.frames v'.ledger = Connection.frames v.ledger
      ++ (label.sent?.map fun sending => sending.item.request).toList := by
  cases hmove <;> simp [Connection.frames, Label.sent?]

/-- **One move and the line.** -/
lemma Move.line [Peer σ] {v v' : View σ α} {label : Label α} (past : List (Label α))
    (hmove : Move v label v') :
    ((Connection.line (past ++ [label]) v').Sublist (Connection.line past v) ∧
        accepted v'.ledger = accepted v.ledger ∧ v.nextTicket ≤ v'.nextTicket) ∨
      ∃ id request complete next,
        v.calls[id]? = some (.running (.invoke request complete next)) ∧
        Connection.line (past ++ [label]) v'
          = Connection.line past v ++ [⟨v.nextTicket, id, request, complete⟩] ∧
        accepted v'.ledger = accepted v.ledger ++ [(v.nextTicket, id)] ∧
        v'.nextTicket = v.nextTicket + 1 ∧
        v'.calls = v.calls.set id (.waiting v.nextTicket none next) := by
  have hqueue {queue : List Queued} (h : queue.Sublist v.queue) :
      ({ v with queue } : View σ α).unsent.Sublist v.unsent :=
    (List.Sublist.refl _).append h
  cases hmove with
  | accept hcall =>
      refine .inr ⟨_, _, _, _, hcall, ?_, ?_, rfl, rfl⟩
      · simp [Connection.line, View.unsent, Label.sent?]
      · simp [accepted]
  | send hphase =>
      refine .inl ⟨?_, ?_, Nat.le_refl _⟩
      · simp [Connection.line, View.unsent, Label.sent?, hphase]
      · simp [accepted]
  | take hphase htaken =>
      exact .inl ⟨line_silent (by simp [View.unsent, hphase, htaken]), rfl, Nat.le_refl _⟩
  | read hphase =>
      refine .inl ⟨line_silent ?_, rfl, Nat.le_refl _⟩
      split <;> simp [View.unsent]
  | deliver hphase =>
      exact .inl ⟨line_silent (by simp [View.unsent]), by simp [accepted], Nat.le_refl _⟩
  | leave hcall hresult hleft =>
      exact .inl ⟨line_silent (hqueue hleft), by simp [accepted], Nat.le_refl _⟩
  | drop hleft => exact .inl ⟨line_silent (hqueue hleft), rfl, Nat.le_refl _⟩
  | start operation =>
      exact .inl ⟨by simp [Connection.line, View.unsent, Label.sent?], rfl, Nat.le_refl _⟩
  | refuse hcall hticket => exact .inl ⟨line_silent (List.Sublist.refl _), rfl, hticket⟩
  | withdraw _ => exact .inl ⟨line_silent (by simp [View.unsent]), rfl, Nat.le_refl _⟩
  | fail _ => exact .inl ⟨line_silent (by simp [View.unsent]), rfl, Nat.le_refl _⟩
  | conclude _ => exact .inl ⟨line_silent (by simp [View.unsent]), rfl, Nat.le_refl _⟩
  | abort _ => exact .inl ⟨line_silent (by simp [View.unsent]), rfl, Nat.le_refl _⟩
  | refuseQueued => exact .inl ⟨line_silent (by simp [View.unsent]), rfl, Nat.le_refl _⟩
  | rest => exact .inl ⟨line_silent (List.Sublist.refl _), rfl, Nat.le_refl _⟩
  | attempt _ => exact .inl ⟨line_silent (List.Sublist.refl _), rfl, Nat.le_refl _⟩
  | unlink => exact .inl ⟨line_silent (List.Sublist.refl _), rfl, Nat.le_refl _⟩
  | finish _ => exact .inl ⟨line_silent (List.Sublist.refl _), rfl, Nat.le_refl _⟩
  | frame _ _ => exact .inl ⟨line_silent (List.Sublist.refl _), rfl, Nat.le_refl _⟩

/-- **The line is a part of what was accepted**, in the same order, and tickets go up.  The frames on
the link are the requests that were sent. -/
structure Ordered (past : List (Label α)) (view : View σ α) : Prop where
  frames : frames view.ledger
    = (past.filterMap Label.sent?).map fun sending => sending.item.request
  line : ((line past view).map fun item => (item.ticket, item.call)).Sublist (accepted view.ledger)
  tickets : (accepted view.ledger).Pairwise fun a b => a.1 < b.1
  bound : ∀ entry ∈ accepted view.ledger, entry.1 < view.nextTicket

lemma Ordered.of_move [Peer σ] {past : List (Label α)} {v v' : View σ α} {label : Label α}
    (h : Ordered past v) (hmove : Move v label v') : Ordered (past ++ [label]) v' := by
  have hframes : Connection.frames v'.ledger
      = ((past ++ [label]).filterMap Label.sent?).map fun sending => sending.item.request := by
    rw [hmove.frames, h.frames, List.filterMap_append, List.map_append]
    cases hlabel : label.sent? <;> simp [hlabel]
  rcases hmove.line past with ⟨hline, haccepted, hticket⟩ |
    ⟨id, request, complete, next, -, hline, haccepted, hticket, -⟩
  · refine ⟨hframes, ?_, ?_, ?_⟩
    · rw [haccepted]
      exact (hline.map _).trans h.line
    · rw [haccepted]
      exact h.tickets
    · rw [haccepted]
      exact fun entry hentry => Nat.lt_of_lt_of_le (h.bound entry hentry) hticket
  · refine ⟨hframes, ?_, ?_, ?_⟩
    · rw [hline, haccepted, List.map_append]
      exact h.line.append (List.Sublist.refl _)
    · rw [haccepted, List.pairwise_append]
      refine ⟨h.tickets, List.pairwise_singleton _ _, ?_⟩
      intro entry hentry last hlast
      rw [List.mem_singleton.mp hlast]
      exact h.bound entry hentry
    · rw [haccepted, hticket]
      intro entry hentry
      rcases List.mem_append.mp hentry with hbefore | hlast
      · exact Nat.lt_succ_of_lt (h.bound entry hbefore)
      · rw [List.mem_singleton.mp hlast]
        exact Nat.lt_succ_self _

/-- **Requests are in order after every run.** -/
lemma ordered_of_run [Peer σ] (name : String) (timing : Timing) (framing : Framing)
    {wire : Wire σ} (hwire : wire.arriving = []) {actions : List (Action α)}
    (hpush : ∀ chunk, .push chunk ∉ actions) :
    Ordered ((create name timing framing wire).labels actions)
      ((create name timing framing wire).run actions).view :=
  invariant_of_run name timing framing hwire
    ⟨rfl, List.Sublist.refl _, List.Pairwise.nil, fun _ h => by simp [view, create, ledger, accepted] at h⟩
    (fun _ _ _ _ h _ hmove => h.of_move hmove) hpush

namespace Ordered

variable {past : List (Label α)} {view : View σ α}

/-- **Requests are sent in the order in which they were accepted.** -/
lemma sent (h : Ordered past view) :
    ((past.filterMap Label.sent?).map fun sending => (sending.item.ticket, sending.item.call)).Sublist
      (accepted view.ledger) := by
  have hsublist := (List.sublist_append_left ((past.filterMap Label.sent?).map Sending.item)
    view.unsent).map fun item => (item.ticket, item.call)
  rw [List.map_map] at hsublist
  exact hsublist.trans h.line

/-- No request is sent twice: tickets go up from one to the next. -/
lemma tickets_lt (h : Ordered past view) :
    (past.filterMap Label.sent?).Pairwise fun a b => a.item.ticket < b.item.ticket := by
  have hsorted := h.tickets.sublist h.sent
  rwa [List.pairwise_map] at hsorted

end Ordered

end Modbus.Connection
