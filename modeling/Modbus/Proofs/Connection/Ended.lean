import Mathlib.Data.List.Induction
import Mathlib.Data.List.Permutation
import Modbus.Proofs.Connection.Accounts
import Modbus.Proofs.Connection.Transmission

/-!
# Requests that have ended

A caller stops waiting for a request when it has a result, or gives the request up before.  Either
way the request has ended (`Docket.Ended`), and so has one whose caller has cancelled it or whose
connection is to stop.  The worker may know nothing of this yet: it may have the request in its
hands, be in line for the link with it, or be trying to open the link.

Two facts together keep such a request off the link.  A request that has ended stays so
(`Docket.Ended.of_onward`).  And the worker looks at the marks of a request when it gets the link,
and again after each wait until the link is open; from then on it hurries to the Send, so that what
it found still holds when the frame goes out (`Attentive.cleared`).  The marks say only that someone
waits for the ticket.  But each ticket has one call that waits for it, and when that call leaves,
nobody ever waits for the ticket again (`Docket.Waiting.gone`), so an invoke that is over leaves its
mark.
-/

namespace Modbus

/-- The request that the worker is about to send, or to open the link for, without waiting. -/
def Stage.cleared? : Stage → Option Queued
  | .linked item => some item
  | .attempting item _ => some item
  | .sending item => some item
  | _ => none

lemma Stage.isRunning_of_cleared? {stage : Stage} {item : Queued}
    (h : stage.cleared? = some item) : stage.isRunning = true := by
  cases stage <;> first | rfl | cases h

namespace Connection

variable {σ α : Type}

namespace Docket

variable {d d' : Docket α} {item : Queued}

/-! ## The end of a request -/

/-- **A request has ended**, be it that it was sent or not. -/
inductive Ended (d : Docket α) (item : Queued) : Prop where
  | concluded (h : IsOver d.noted item.ticket)
  | cancelled (call : Call α) (hcall : d.calls[item.call]? = some call) (h : call.cancelled = true)
  | disposed (h : d.shutdown = true)

/-- **A request that has ended stays so.** -/
lemma Ended.of_onward (h : d.Ended item) (honward : d.Onward d') : d'.Ended item := by
  cases h with
  | concluded h =>
      obtain ⟨occurrence, hin, hends⟩ := h
      exact .concluded ⟨occurrence, honward.noted.subset hin, hends⟩
  | cancelled call hcall hcancelled =>
      obtain ⟨call', hcall', hcancelled'⟩ := honward.cancelled _ call hcall hcancelled
      exact .cancelled call' hcall' hcancelled'
  | disposed h => exact .disposed (honward.shutdown h)

/-- **A request without a mark.** -/
structure Clear (d : Docket α) (item : Queued) : Prop where
  uncancelled : ∀ call, d.calls[item.call]? = some call → call.cancelled = false
  running : d.shutdown = false
  awaited : ∃ id, WaitsFor d.calls id item.ticket

/-! ## Those who wait -/

/-- **Who waits, and for what**: each ticket has one call that waits for it, until its invoke is
over. -/
structure Waiting (d : Docket α) : Prop extends d.Tickets where
  sole : ∀ id other ticket, WaitsFor d.calls id ticket → WaitsFor d.calls other ticket → id = other
  given : ∀ ticket, IsOver d.noted ticket → ticket < d.nextTicket
  gone : ∀ id ticket, IsOver d.noted ticket → ¬ WaitsFor d.calls id ticket

namespace Waiting

/-- Whoever waits later for a ticket that was given out before has waited before. -/
lemma before_of_onward (honward : d.Onward d') {id ticket : Nat} (hticket : ticket < d.nextTicket)
    (hwaits : WaitsFor d'.calls id ticket) : WaitsFor d.calls id ticket := by
  obtain ⟨caller, hcaller, -⟩ := honward.newcomer
  rcases hcaller id ticket hwaits with hbefore | ⟨-, rfl, -⟩
  · exact hbefore
  · exact absurd hticket (Nat.lt_irrefl _)

/-- **Every amendment keeps the calls and their tickets apart.** -/
lemma of_onward (h : d.Waiting) (honward : d.Onward d') : d'.Waiting := by
  obtain ⟨caller, hcaller, -⟩ := honward.newcomer
  refine ⟨h.toTickets.of_onward honward, fun id other ticket hwaits hother => ?_,
    fun ticket hover => ?_, fun id ticket hover hwaits => ?_⟩
  · by_cases hticket : ticket < d.nextTicket
    · exact h.sole id other ticket (before_of_onward honward hticket hwaits)
        (before_of_onward honward hticket hother)
    · -- A ticket that was not given out before has come to one caller only.
      have hnew (id : Nat) (hid : WaitsFor d'.calls id ticket) : id = caller := by
        rcases hcaller id ticket hid with hbefore | ⟨hsame, -⟩
        · exact absurd (h.bound id ticket hbefore) hticket
        · exact hsame
      rw [hnew id hwaits, hnew other hother]
  · rcases honward.ending ticket hover with hbefore | ⟨id, hwaited, -⟩
    · exact Nat.lt_of_lt_of_le (h.given ticket hbefore) honward.ticket
    · exact Nat.lt_of_lt_of_le (h.bound id ticket hwaited) honward.ticket
  · rcases honward.ending ticket hover with hbefore | ⟨left, hwaited, hleft⟩
    · exact h.gone id ticket hbefore (before_of_onward honward (h.given ticket hbefore) hwaits)
    · have hwaiting := before_of_onward honward (h.bound left ticket hwaited) hwaits
      exact hleft ticket (h.sole id left ticket hwaiting hwaited ▸ hwaits)

/-- **A request without a mark has not ended.** -/
lemma not_ended (h : d.Waiting) (hclear : d.Clear item) : ¬ d.Ended item := by
  obtain ⟨huncancelled, hrunning, id, hwaits⟩ := hclear
  intro hended
  cases hended with
  | concluded hover => exact h.gone id item.ticket hover hwaits
  | cancelled call hcall hcancelled => simp [huncancelled call hcall] at hcancelled
  | disposed hshutdown => simp [hrunning] at hshutdown

end Waiting

end Docket

/-! ## What the worker has looked at -/

/-- What the worker finds without a mark. -/
lemma clear_of_interruption? {connection : Connection σ α} {item : Queued}
    (h : connection.interruption? item = none) : connection.docket.Clear item := by
  obtain ⟨hcaller, hshutdown, habandoned⟩ := fired?_eq_none.mp (Option.map_eq_none_iff.mp h)
  simp only [cancellation] at hcaller habandoned
  refine ⟨fun call hcall => ?_, hshutdown, ?_⟩
  · have hcall : connection.calls[item.call]? = some call := hcall
    rw [hcall] at hcaller
    exact hcaller
  · rw [Bool.not_eq_false', awaits, List.any_eq_true] at habandoned
    obtain ⟨call, hcall, hawaits⟩ := habandoned
    obtain ⟨id, hid⟩ := List.mem_iff_getElem?.mp hcall
    exact ⟨id, call, hid, hawaits⟩

namespace Worker

variable {before connection c' : Connection σ α} {item other : Queued}

/-- A move of the worker puts no mark on a request. -/
lemma clear_moveTo {stage : Stage} (hclear : before.docket.Clear item)
    (hdocket : connection.docket = before.docket) :
    (moveTo connection stage).docket.Clear item := by
  rw [docket_moveTo, hdocket]
  exact ⟨hclear.uncancelled, hclear.running, hclear.awaited⟩

lemma cleared?_attemptFailed (connection : Connection σ α) (item : Queued) (attempts : Attempts)
    (fault : TransportFault) :
    (attemptFailed connection item attempts fault).worker.cleared? = none := by
  rw [attemptFailed]
  split <;> rfl

lemma clear_of_ended (attempts : Attempts) (hclear : before.docket.Clear item)
    (hdocket : connection.docket = before.docket)
    (hafter : (attemptEnded connection item attempts).worker.cleared? = some other) :
    (attemptEnded connection item attempts).docket.Clear other := by
  rcases attemptEnded_cases connection item attempts with ⟨-, -, hopened⟩ | ⟨fault, -, hfailed⟩
  · rw [hopened] at hafter ⊢
    obtain rfl : item = other := Option.some.inj hafter
    exact clear_moveTo hclear ((docket_perform connection connection.wire.open).trans hdocket)
  · rw [hfailed, cleared?_attemptFailed] at hafter
    cases hafter

lemma clear_of_begun (attempts : Attempts) (hclear : connection.docket.Clear item)
    (hafter : (beginAttempt connection item attempts).worker.cleared? = some other) :
    (beginAttempt connection item attempts).docket.Clear other := by
  simp only [beginAttempt] at hafter ⊢
  split_ifs at hafter ⊢
  · exact clear_of_ended attempts hclear (docket_attempted connection) hafter
  · cases hafter

/-- **After a wait** the worker goes on only with a request without a mark. -/
lemma clear_of_resume {continue_ : Option (Connection σ α)}
    (hcontinue : connection.docket.Clear item → ∀ after, continue_ = some after →
      after.worker.cleared? = some other → after.docket.Clear other)
    (hstep : resumeExchange connection item continue_ = some c')
    (hafter : c'.worker.cleared? = some other) : c'.docket.Clear other := by
  rw [resumeExchange] at hstep
  split at hstep
  · cases hstep
    cases hafter
  · rename_i hclear
    exact hcontinue (clear_of_interruption? hclear) c' hstep hafter

/-- **A move of the worker** leads to a Send, or to an attempt to open the link for it, only with a
request without a mark. -/
lemma clear_of_step [Peer σ]
    (hbefore : ∀ item, connection.worker.cleared? = some item → connection.docket.Clear item)
    (hstep : step? connection = some c') (hafter : c'.worker.cleared? = some other) :
    c'.docket.Clear other := by
  cases hworker : connection.worker with
  | fetched item =>
      simp only [step?, hworker] at hstep
      split at hstep
      · cases hstep
        cases hafter
      · rename_i hclear
        obtain rfl := Option.some.inj hstep
        simp only at hafter
        split_ifs at hafter
        · obtain rfl : item = other := Option.some.inj hafter
          exact clear_moveTo (clear_of_interruption? hclear) rfl
        · cases hafter
  | awaitingLink item =>
      simp only [step?, hworker] at hstep
      split at hstep
      · cases hstep
        cases hafter
      · rename_i hclear
        split_ifs at hstep
        cases hstep
        obtain rfl : item = other := Option.some.inj hafter
        exact clear_moveTo (clear_of_interruption? hclear) rfl
  | linked item =>
      have hclear := hbefore item (by rw [hworker]; rfl)
      simp only [step?, hworker] at hstep
      split_ifs at hstep <;>
        · cases hstep
          obtain rfl : item = other := Option.some.inj hafter
          exact clear_moveTo hclear rfl
  | attempting item attempts =>
      simp only [step?, hworker, Option.some.injEq] at hstep
      subst hstep
      exact clear_of_begun attempts (hbefore item (by rw [hworker]; rfl)) hafter
  | opening item attempts opensAt expiresAt =>
      simp only [step?, hworker] at hstep
      refine clear_of_resume (fun hclear after hstep hafter => ?_) hstep hafter
      split_ifs at hstep
      · cases hstep
        exact clear_of_ended attempts hclear rfl hafter
      · cases hstep
        rw [cleared?_attemptFailed] at hafter
        cases hafter
  | backingOff item attempts until_ =>
      simp only [step?, hworker] at hstep
      refine clear_of_resume (fun hclear after hstep hafter => ?_) hstep hafter
      split_ifs at hstep
      cases hstep
      obtain rfl : item = other := Option.some.inj hafter
      exact clear_moveTo hclear rfl
  | stalled item received expiresAt =>
      simp only [step?, hworker] at hstep
      refine clear_of_resume (fun hclear after hstep hafter => ?_) hstep hafter
      split_ifs at hstep
      cases hstep
      cases hafter
  | fetching =>
      simp only [step?, hworker, fetch?] at hstep
      split_ifs at hstep
      · cases hstep
        cases hafter
      · split at hstep
        · cases hstep
          cases hafter
        · obtain rfl := Option.some.inj hstep
          simp [Stage.cleared?] at hafter
  | sending item =>
      simp only [step?, hworker, Option.some.injEq] at hstep
      subst hstep
      simp only [send] at hafter
      split at hafter <;> cases hafter
  | receiving item received =>
      simp only [step?, hworker, Option.some.injEq] at hstep
      subst hstep
      simp only [receive] at hafter
      split at hafter <;> first | cases hafter | (split_ifs at hafter <;> cases hafter)
  | concluding item result =>
      simp only [step?, hworker, Option.some.injEq] at hstep
      subst hstep
      cases hafter
  | delivering item result =>
      simp only [step?, hworker, Option.some.injEq] at hstep
      subst hstep
      simp only [moveTo, afterDelivery] at hafter
      split_ifs at hafter <;> cases hafter
  | guarding until_ =>
      simp only [step?, hworker] at hstep
      split_ifs at hstep <;>
        · cases hstep
          cases hafter
  | stopped => simp [step?, hworker] at hstep

end Worker

/-- **The calls keep their tickets apart, and nothing has ended a request that the worker is about
to send.** -/
structure Attentive (connection : Connection σ α) : Prop where
  waiting : connection.docket.Waiting
  cleared : ∀ item, connection.worker.cleared? = some item → connection.docket.Clear item

lemma Attentive.of_happening [Peer σ] {connection : Connection σ α} (h : Attentive connection)
    (happening : Happening α) : Attentive (connection.happen happening) := by
  refine ⟨h.waiting.of_onward (amendment_of_happening connection happening).onward,
    fun item hafter => ?_⟩
  cases happening with
  | act action =>
      by_cases haction : action = .worker
      · subst haction
        cases hstep : Worker.step? connection with
        | none =>
            have hsame : connection.happen (.act .worker) = connection := by
              simp only [happen, step, hstep, Option.getD_none]
            rw [hsame] at hafter ⊢
            exact h.cleared item hafter
        | some after =>
            have hmoved : connection.happen (.act .worker) = after := by
              simp only [happen, step, hstep, Option.getD_some]
            rw [hmoved] at hafter ⊢
            exact Worker.clear_of_step h.cleared hstep hafter
      · -- Until the worker has sent the request nobody else acts.
        have hbefore : connection.worker.cleared? = some item :=
          (congrArg Stage.cleared? (worker_of_step connection haction)).symm.trans hafter
        have hsame : connection.happen (.act action) = connection :=
          step_of_running (Stage.isRunning_of_cleared? hbefore) haction
        rw [hsame]
        exact h.cleared item hbefore
  | whim whim =>
      have hindulged := connection.indulged whim
      simp only [happen] at hafter ⊢
      generalize connection.indulge whim = after at hindulged hafter ⊢
      cases hindulged with
      | unheeded => exact h.cleared item hafter
      | lost => exact h.cleared item hafter
      | unopened fault hworker hclear =>
          rw [Worker.cleared?_attemptFailed] at hafter
          cases hafter
      | stalled => cases hafter
      | resumed => cases hafter
      | failed => cases hafter

/-! ## Every run -/

lemma attentive_of_run [Peer σ] (name : String) (timing : Timing) (framing : Framing)
    (wire : Wire σ) (happenings : List (Happening α)) :
    Attentive ((create name timing framing wire).runOver happenings : Connection σ α) := by
  induction happenings using List.reverseRecOn with
  | nil =>
      refine ⟨⟨(accounts_create name timing framing wire).tickets, ?_, ?_, ?_⟩, ?_⟩ <;>
        simp [runOver, WaitsFor, Docket.IsOver, docket, create, occurrences, Stage.cleared?]
  | append_singleton happenings happening ih =>
      rw [runOver_concat]
      exact ih.of_happening happening

/-- **Nothing is sent that had ended before.** -/
lemma not_ended_of_dispatches [Peer σ] : ∀ (happenings : List (Happening α))
    {connection : Connection σ α}, Attentive connection →
      ∀ item ∈ (connection.dispatches happenings).map Dispatch.item,
        ¬ connection.docket.Ended item
  | [], _, _, _, hin => absurd hin List.not_mem_nil
  | happening :: happenings, connection, h, item, hin => by
      rw [dispatches, List.map_append, List.mem_append] at hin
      rcases hin with hnow | hlater
      · rcases connection.dispatch?_cases happening with ⟨sent, rfl, hworker, hsend⟩ | hnone
        · rw [hsend] at hnow
          obtain rfl : item = sent := List.mem_singleton.mp hnow
          exact h.waiting.not_ended (h.cleared item (by rw [hworker]; rfl))
        · rw [hnone] at hnow
          exact absurd hnow List.not_mem_nil
      · have honward := (amendment_of_happening connection happening).onward
        exact fun hended => not_ended_of_dispatches happenings (h.of_happening happening) item hlater
          (hended.of_onward honward)

lemma dispatches_append [Peer σ] (second : List (Happening α)) :
    ∀ (first : List (Happening α)) (connection : Connection σ α),
      connection.dispatches (first ++ second)
        = connection.dispatches first ++ (connection.runOver first).dispatches second
  | [], _ => rfl
  | happening :: first, connection => by
      rw [List.cons_append, dispatches, dispatches, dispatches_append second first,
        List.append_assoc]
      rfl

/-- **A request that has ended is never sent afterwards**, over any link.  Take any moment of any
run, and a request whose invoke has returned or was dropped by then, whose caller has cancelled it,
or whose connection is to stop.  It is none of the requests that are sent from then on; and those
were all accepted, and are all that goes out on the link. -/
theorem unsent_of_ended [Peer σ] (name : String) (timing : Timing) (framing : Framing)
    (wire : Wire σ) (first second : List (Happening α)) {item : Queued}
    (hended : ((create name timing framing wire).runOver first : Connection σ α).docket.Ended
      item) :
    let initial : Connection σ α := create name timing framing wire
    let later := (initial.runOver first).dispatches second
    item ∉ later.map Dispatch.item ∧
      (later.map Dispatch.item).Sublist (initial.acceptances (first ++ second)) ∧
      frames (occurrences (initial.runOver (first ++ second)).history)
        = frames (occurrences (initial.runOver first).history)
          ++ (later.filterMap Dispatch.sent?).map Queued.request := by
  intro initial later
  have hall : initial.dispatches (first ++ second) = initial.dispatches first ++ later :=
    dispatches_append second first initial
  refine ⟨fun hin => ?_, ?_, ?_⟩
  · exact not_ended_of_dispatches second (attentive_of_run name timing framing wire first) item hin
      hended
  · have hline := (queueing_of_run name timing framing wire (first ++ second)).line
    have hlater : (later.map Dispatch.item).Sublist
        ((initial.dispatches (first ++ second)).map Dispatch.item) := by
      rw [hall, List.map_append]
      exact List.sublist_append_right _ _
    exact hlater.trans ((List.sublist_append_left _ _).trans hline)
  · obtain ⟨-, channel, -, hwhole⟩ := held_of_run name timing framing wire (first ++ second)
    obtain ⟨-, channel', -, hearlier⟩ := held_of_run name timing framing wire first
    calc frames (occurrences (initial.runOver (first ++ second)).history)
        = ((initial.dispatches (first ++ second)).filterMap Dispatch.sent?).map Queued.request :=
          hwhole.frames
      _ = ((initial.dispatches first).filterMap Dispatch.sent?).map Queued.request
            ++ (later.filterMap Dispatch.sent?).map Queued.request := by
          rw [hall, List.filterMap_append, List.map_append]
      _ = frames (occurrences (initial.runOver first).history)
            ++ (later.filterMap Dispatch.sent?).map Queued.request :=
          congrArg (fun earlier => earlier ++ (later.filterMap Dispatch.sent?).map Queued.request)
            hearlier.frames.symm

/-- A call is given up while the link is being opened for it: what goes out is the next request, and
nothing else, though its write waits and its reply comes later. -/
theorem dropped_while_connecting_unsent :
    let complete (bytes : Bytes) : Bool := !bytes.isEmpty
    let ask (frame : Bytes) : Operation Bytes := .invoke frame complete .done
    let wire : Wire Responder := { peer := .silent, openDelay := 5 }
    let initial : Connection Responder Bytes := create "link" .network .rtu wire
    let acts (actions : List (Action Bytes)) : List (Happening Bytes) := actions.map .act
    let first : List (Happening Bytes) :=
      acts ([.start (ask [0x0A]) false, .caller 0] ++ List.replicate 4 .worker ++ [.drop 0])
    let second : List (Happening Bytes) :=
      acts ([.start (ask [0x0B]) false, .caller 1, .slow 0] ++ List.replicate 8 .worker)
        ++ [.whim (.stall 7), .act (.push [0x0C]), .whim .resume, .act .worker]
    let item : Queued := ⟨0, 0, [0x0A], complete⟩
    let next : Queued := ⟨1, 1, [0x0B], complete⟩
    let later := (initial.runOver first).dispatches second
    (initial.acceptances first = [item] ∧
        (initial.runOver first).worker = .opening item ⟨0, Timing.network.minBackoff⟩ 5 1000 ∧
        (initial.runOver first).docket.Ended item) ∧
      item ∉ later.map Dispatch.item ∧
      frames (occurrences (initial.runOver (first ++ second)).history) = [[0x0B]] ∧
      (initial.runOver (first ++ second)).worker = .concluding next (.ok [0x0C]) := by
  intro complete ask wire initial acts first second item next later
  have haccepted : initial.acceptances first = [item] := by
    unfold initial first acts item ask wire complete
    cbv
  have hopening : (initial.runOver first).worker
      = .opening item ⟨0, Timing.network.minBackoff⟩ 5 1000 := by
    unfold initial first acts item ask wire complete
    cbv
  have hdropped : (initial.runOver first).docket.noted[1]? = some (.abandoned 0) := by
    unfold initial first acts ask wire complete
    cbv
  have hsilent : frames (occurrences (initial.runOver first).history) = [] := by
    unfold initial first acts ask wire complete
    cbv
  have hlater : (later.filterMap Dispatch.sent?).map Queued.request = [[0x0B]] := by
    unfold later initial first second acts ask wire complete
    cbv
  have hended : (initial.runOver first).docket.Ended item :=
    .concluded ⟨.abandoned 0, List.mem_of_getElem? hdropped, rfl⟩
  obtain ⟨hunsent, -, hframes⟩ :=
    unsent_of_ended "link" .network .rtu wire first second hended
  have hanswered : (initial.runOver (first ++ second)).worker = .concluding next (.ok [0x0C]) := by
    unfold initial first second next acts ask wire complete
    cbv
  refine ⟨⟨haccepted, hopening, hended⟩, hunsent, ?_, hanswered⟩
  rw [hframes, hsilent, List.nil_append]
  exact hlater

end Connection

end Modbus
