import Mathlib.Data.List.Permutation
import Mathlib.Data.Option.Basic
import Modbus.Connection.Schedule
import Modbus.Proofs.Connection.Breakdown

/-!
# What an invoke comes to

Any number of callers share a connection, and the results of their invokes come over three ways that
race with each other: a reply, the marks of a caller and of a disposal, the closing of the queue.
This file shows that no result is lost and none goes astray (`outcomes_of_run`).

An invoke is followed from the moment at which its call is about to hand the request over
(`Docket.Invoking`).  Whatever happens, it stays in progress, or returns a result that is due to it,
or its call is given up (`Fate`).  What others do to their own calls, cancelling them or giving
them up, leaves it and its request as they were (`Unmoved`).  And a connection at rest with nothing to
do has no invoke left that is unresolved: its request would have to be pending.

That a connection is disposed of is also what a call is told when the worker has broken down, whether
a disposal has begun or not (`disposed_without_disposal`).
-/

namespace Modbus

/-- What is to be done with the result of the invoke in progress. -/
def Progress.next? {α : Type} : Progress α → Option (Result Bytes → Operation α)
  | .running (.invoke _ _ next) => some next
  | .waiting _ _ next => some next
  | _ => none

namespace Connection

variable {σ α : Type}

/-! ## The course of an invoke -/

/-- **A result that is due to an invoke**: that it was cancelled only to the caller who cancelled it,
that the connection is disposed of only when that has begun, or when the worker is gone, and a reply
only when it is complete by the invoke's own test. -/
structure Due (complete : Bytes → Bool) (connection : Connection σ α) (call : Call α)
    (result : Result Bytes) : Prop where
  cancelled : result = .error .cancelled → call.cancelled = true
  disposed : result = .error .disposed →
    connection.disposal ≠ .untouched ∨ connection.worker = .stopped
  complete : ∀ bytes, result = .ok bytes → complete bytes = true

/-- A call is in an invoke whose result goes to `next`. -/
def Invokes (next : Result Bytes → Operation α) (call : Call α) : Prop :=
  call.progress.next? = some next

/-- The call `id` is there, and is as described. -/
def Has (connection : Connection σ α) (id : Nat) (described : Call α → Prop) : Prop :=
  ∃ call, connection.calls[id]? = some call ∧ described call

/-- **What has become of an invoke** after some happenings that each `move` the connection, if it
comes to no result but one that is `due`.  As long as it is in progress its call is `invoking`. -/
inductive Fate (move : Connection σ α → Happening α → Connection σ α)
    (connection : Connection σ α) (id : Nat) (invoking : Call α → Prop)
    (next : Result Bytes → Operation α) (due : Connection σ α → Call α → Result Bytes → Prop) :
    List (Happening α) → Prop where
  /-- It has been in progress all the time; it may have its result in hand. -/
  | pending {later : List (Happening α)}
      (hinvoking : ∀ before, before <+: later → (before.foldl move connection).Has id invoking)
      (hdue : ∀ call ticket result, (later.foldl move connection).calls[id]? = some call →
        call.progress = .waiting ticket (some result) next →
          due (later.foldl move connection) call result) :
      Fate move connection id invoking next due later
  /-- It was in progress until it returned a result. -/
  | returned {before after : List (Happening α)} {happening : Happening α} {call : Call α}
      {result : Result Bytes}
      (hinvoking : ∀ earlier, earlier <+: before →
        (earlier.foldl move connection).Has id invoking)
      (hcall : (before.foldl move connection).calls[id]? = some call)
      (hreturned : (move (before.foldl move connection) happening).calls[id]?
        = some { call with progress := .running (next result) })
      (hdue : due (before.foldl move connection) call result) :
      Fate move connection id invoking next due (before ++ happening :: after)
  /-- It was in progress until its call was given up. -/
  | dropped {before after : List (Happening α)} {happening : Happening α} {call : Call α}
      (hinvoking : ∀ earlier, earlier <+: before →
        (earlier.foldl move connection).Has id invoking)
      (hcall : (before.foldl move connection).calls[id]? = some call)
      (hdropped : (move (before.foldl move connection) happening).calls[id]?
        = some { call with progress := .dropped }) :
      Fate move connection id invoking next due (before ++ happening :: after)

namespace Fate

variable {move : Connection σ α → Happening α → Connection σ α} {connection : Connection σ α}
  {id : Nat} {invoking : Call α → Prop} {next : Result Bytes → Operation α}
  {due : Connection σ α → Call α → Result Bytes → Prop} {happening : Happening α}
  {later : List (Happening α)} {call : Call α}

/-- What becomes of an invoke that goes on with a happening. -/
lemma cons (hinvoking : connection.Has id invoking)
    (h : Fate move (move connection happening) id invoking next due later) :
    Fate move connection id invoking next due (happening :: later) := by
  have hcons {later : List (Happening α)}
      (hlater : ∀ before, before <+: later →
        (before.foldl move (move connection happening)).Has id invoking)
      (before : List (Happening α)) (hbefore : before <+: happening :: later) :
      (before.foldl move connection).Has id invoking := by
    rcases List.prefix_cons_iff.mp hbefore with rfl | ⟨rest, rfl, hrest⟩
    · exact hinvoking
    · exact hlater rest hrest
  cases h with
  | pending hlater hdue => exact .pending (hcons hlater) hdue
  | @returned before after last call result hlater hcall hreturned hdue =>
      exact .returned (hcons hlater) hcall hreturned hdue
  | @dropped before after last call hlater hcall hdropped =>
      exact .dropped (hcons hlater) hcall hdropped

lemma has_of_nil (hinvoking : connection.Has id invoking) (earlier : List (Happening α))
    (hearlier : earlier <+: []) : (earlier.foldl move connection).Has id invoking := by
  rw [List.prefix_nil.mp hearlier]
  exact hinvoking

/-- Nothing has happened yet. -/
lemma nil (hcall : connection.calls[id]? = some call) (hinvoking : invoking call)
    (hdue : ∀ ticket result, call.progress = .waiting ticket (some result) next →
      due connection call result) : Fate move connection id invoking next due [] := by
  refine .pending (has_of_nil ⟨call, hcall, hinvoking⟩) fun found ticket result hfound => ?_
  obtain rfl := Option.some.inj (hcall.symm.trans hfound)
  exact hdue ticket result

/-- The next happening makes an invoke return. -/
lemma return_now {result : Result Bytes} (hcall : connection.calls[id]? = some call)
    (hinvoking : invoking call)
    (hreturned : (move connection happening).calls[id]?
      = some { call with progress := .running (next result) })
    (hdue : due connection call result) :
    Fate move connection id invoking next due (happening :: later) := by
  have h : Fate move connection id invoking next due ([] ++ happening :: later) :=
    .returned (has_of_nil ⟨call, hcall, hinvoking⟩) hcall hreturned hdue
  exact h

/-- The next happening gives a call up. -/
lemma drop_now (hcall : connection.calls[id]? = some call) (hinvoking : invoking call)
    (hdropped : (move connection happening).calls[id]?
      = some { call with progress := .dropped }) :
    Fate move connection id invoking next due (happening :: later) := by
  have h : Fate move connection id invoking next due ([] ++ happening :: later) :=
    .dropped (has_of_nil ⟨call, hcall, hinvoking⟩) hcall hdropped
  exact h

end Fate

namespace Docket

variable {d d' : Docket α}

/-- **An invoke in progress**, before its request is handed over and after: whatever is pending
under its ticket has its own test, and so has passed it whatever came as a reply. -/
inductive Invoking (d : Docket α) (complete : Bytes → Bool) (next : Result Bytes → Operation α)
    (call : Call α) : Prop where
  | posed {request : Bytes} (hprogress : call.progress = .running (.invoke request complete next))
  | awaited {ticket : Nat} {reply : Option (Result Bytes)}
      (hprogress : call.progress = .waiting ticket reply next)
      (hcomplete : ∀ item ∈ d.pending, item.ticket = ticket → item.complete = complete)
      (hreply : ∀ bytes, reply = some (.ok bytes) → complete bytes = true)

variable {complete : Bytes → Bool} {next : Result Bytes → Operation α} {id : Nat} {call : Call α}

lemma Invoking.invokes (h : d.Invoking complete next call) : Invokes next call := by
  cases h with
  | posed hprogress => rw [Invokes, hprogress, Progress.next?]
  | awaited hprogress _ _ => rw [Invokes, hprogress, Progress.next?]

/-- Nobody else's request comes under the ticket. -/
lemma complete_of_onward (htickets : d.Tickets) (honward : d.Onward d') {ticket : Nat}
    (hwaits : WaitsFor d.calls id ticket)
    (hcomplete : ∀ item ∈ d.pending, item.ticket = ticket → item.complete = complete) :
    ∀ item ∈ d'.pending, item.ticket = ticket → item.complete = complete := by
  intro item hitem hticket
  obtain ⟨caller, -, hpending⟩ := honward.newcomer
  rcases hpending item hitem with hbefore | ⟨-, hnew, -⟩
  · exact hcomplete item hbefore hticket
  · have hbound := htickets.bound id ticket hwaits
    omega

lemma Invoking.of_mark (h : d.Invoking complete next call) (htickets : d.Tickets)
    (honward : d.Onward d') (hcall : d.calls[id]? = some call) (cancelled : Bool) :
    d'.Invoking complete next { call with cancelled } := by
  cases h with
  | posed hprogress => exact .posed hprogress
  | awaited hprogress hcomplete hreply =>
      have hwaits := waitsFor_iff.mpr ⟨call, hcall, by rw [Call.ticket?, hprogress]⟩
      exact .awaited hprogress (complete_of_onward htickets honward hwaits hcomplete) hreply

/-- What a waiting call comes to is due to it. -/
lemma Accounts.due_of_yields (h : d.Accounts) (hcall : d.calls[id]? = some call) {ticket : Nat}
    {reply : Option (Result Bytes)} {result : Result Bytes}
    (hprogress : call.progress = .waiting ticket reply next)
    (hreply : ∀ bytes, reply = some (.ok bytes) → complete bytes = true)
    (hyields : d.Yields call reply result) :
    (∀ error, result = .error error → d.Tells call error) ∧
      ∀ bytes, result = .ok bytes → complete bytes = true := by
  cases hyields with
  | reply =>
      refine ⟨?_, fun bytes hok => hreply bytes (congrArg some hok)⟩
      rintro error rfl
      exact h.reasoned.told id call ticket error next hcall hprogress
  | cancelled hcancelled =>
      refine ⟨?_, nofun⟩
      rintro error ⟨⟩
      exact ⟨fun _ => hcancelled, nofun⟩
  | disposed hshutdown =>
      refine ⟨?_, nofun⟩
      rintro error ⟨⟩
      exact ⟨nofun, fun _ => .inl hshutdown⟩

/-- **What an amendment does to an invoke**: it stays in progress, or returns a result that is due
to it, or its call is given up. -/
lemma Accounts.invoke_cases (h : d.Accounts) (hinvoking : d.Invoking complete next call)
    (hcall : d.calls[id]? = some call) (hamendment : Amendment d d') :
    ∃ after, d'.calls[id]? = some after ∧
      (d'.Invoking complete next after ∨
        (∃ result, after = { call with progress := .running (next result) } ∧
          (∀ error, result = .error error → d.Tells call error) ∧
          ∀ bytes, result = .ok bytes → complete bytes = true) ∨
        after = { call with progress := .dropped }) := by
  have honward := hamendment.onward
  obtain ⟨after, hafter, halters⟩ := alters_of_amendment hamendment hcall
  refine ⟨after, hafter, ?_⟩
  cases halters with
  | same => exact .inl (hinvoking.of_mark h.tickets honward hcall call.cancelled)
  | cancel => exact .inl (hinvoking.of_mark h.tickets honward hcall true)
  | @hand ticket result later hprogress hresult =>
      cases hinvoking with
      | posed hposed => cases hposed.symm.trans hprogress
      | awaited hawaited hcomplete hreply =>
          obtain ⟨rfl, rfl, rfl⟩ := Progress.waiting.inj (hawaited.symm.trans hprogress)
          have hwaits := waitsFor_iff.mpr ⟨call, hcall, by rw [Call.ticket?, hprogress]⟩
          refine .inl (.awaited rfl
            (complete_of_onward h.tickets honward hwaits hcomplete) fun bytes hok => ?_)
          obtain rfl := Option.some.inj hok
          rcases hresult with ⟨item, hphase, -, hticket⟩ | ⟨hdisposed, -⟩
          · have hitem : d.phase.item? = some item := by rw [hphase]; rfl
            rw [← hcomplete item (mem_pending_of_item? hitem) hticket]
            cases h.reasoned.earned item (.ok bytes) hitem (by rw [hphase]; rfl) with
            | complete hwhole => exact hwhole
          · cases hdisposed
  | resume hresumes =>
      cases hresumes with
      | proceed hrunning hother hprogress =>
          cases hinvoking with
          | posed hposed =>
              exact absurd (Progress.running.inj (hrunning.symm.trans hposed)) (hother _ _ _)
          | awaited hawaited _ _ => cases hawaited.symm.trans hrunning
      | @refuse request complete' next' error hrunning hcancelled hdisposed =>
          cases hinvoking with
          | posed hposed =>
              obtain ⟨rfl, rfl, rfl⟩ :=
                Operation.invoke.inj (Progress.running.inj (hposed.symm.trans hrunning))
              refine .inr (.inl ⟨.error error, rfl, ?_, by simp⟩)
              rintro _ ⟨⟩
              exact ⟨hcancelled, hdisposed⟩
          | awaited hawaited _ _ => cases hawaited.symm.trans hrunning
      | @leave ticket reply next' result hwaiting hresult =>
          cases hinvoking with
          | posed hposed => cases hposed.symm.trans hwaiting
          | awaited hawaited hcomplete hreply =>
              obtain ⟨rfl, rfl, rfl⟩ := Progress.waiting.inj (hawaited.symm.trans hwaiting)
              exact .inr (.inl ⟨result, rfl, h.due_of_yields hcall hwaiting hreply hresult⟩)
      | drop hover => exact .inr (.inr rfl)
  | @accept request complete' next' hposed hpending =>
      cases hinvoking with
      | posed hmine =>
          obtain ⟨rfl, rfl, rfl⟩ :=
            Operation.invoke.inj (Progress.running.inj (hmine.symm.trans hposed))
          refine .inl (.awaited rfl (fun item hitem hticket => ?_) (by simp))
          rw [hpending] at hitem
          rcases List.mem_append.mp hitem with hbefore | hnew
          · exact absurd hticket (Nat.ne_of_lt (h.tickets.fresh item hbefore))
          · rw [List.mem_singleton.mp hnew]
      | awaited hawaited _ _ => cases hawaited.symm.trans hposed

end Docket

open Docket

/-- A docket that has stopped is that of a worker that has. -/
lemma isStopped_iff {stage : Stage} : stage.isStopped = true ↔ stage = .stopped := by
  cases stage <;> simp [Stage.isStopped]

lemma Due.of_tells {complete : Bytes → Bool} {connection : Connection σ α} {call : Call α}
    {result : Result Bytes} (haccounts : connection.docket.Accounts)
    (herror : ∀ error, result = .error error → connection.docket.Tells call error)
    (hok : ∀ bytes, result = .ok bytes → complete bytes = true) :
    Due complete connection call result where
  cancelled hcancelled := (herror _ hcancelled).1 rfl
  disposed hdisposed :=
    (haccounts.closing.stopping ((herror _ hdisposed).2 rfl)).imp_right isStopped_iff.mp
  complete := hok

/-- **The course of an invoke**, from any moment at which the accounts are right. -/
lemma fate_of_invoking {move : Connection σ α → Happening α → Connection σ α}
    (hmove : ∀ connection happening, Amendment connection.docket (move connection happening).docket)
    {id : Nat} {complete : Bytes → Bool} {next : Result Bytes → Operation α} :
    ∀ (later : List (Happening α)) (connection : Connection σ α) (call : Call α),
      connection.docket.Accounts → connection.calls[id]? = some call →
        connection.docket.Invoking complete next call →
          Fate move connection id (Invokes next) next (Due complete) later
  | [], connection, call, haccounts, hcall, hinvoking => by
      refine .nil hcall hinvoking.invokes fun ticket result hwaiting => ?_
      cases hinvoking with
      | posed hposed => exact absurd (hposed.symm.trans hwaiting) nofun
      | awaited hawaited hcomplete hreply =>
          obtain ⟨-, rfl, -⟩ := Progress.waiting.inj (hawaited.symm.trans hwaiting)
          obtain ⟨herror, hok⟩ := haccounts.due_of_yields hcall hwaiting hreply .reply
          exact .of_tells haccounts herror hok
  | happening :: later, connection, call, haccounts, hcall, hinvoking => by
      have hamendment := hmove connection happening
      obtain ⟨after, hafter, hcases⟩ := haccounts.invoke_cases hinvoking hcall hamendment
      rcases hcases with hstill | ⟨result, rfl, herror, hok⟩ | rfl
      · exact (fate_of_invoking hmove later _ after (haccounts.of_amendment hamendment) hafter
          hstill).cons ⟨call, hcall, hinvoking.invokes⟩
      · exact .return_now hcall hinvoking.invokes hafter (.of_tells haccounts herror hok)
      · exact .drop_now hcall hinvoking.invokes hafter

/-! ## What others do -/

/-- **The invoke of call `id` as it was**: the call itself, its queued requests, and what the worker
reads off the marks of its requests. -/
structure Unmoved (before after : Connection σ α) (id : Nat) : Prop where
  call : after.calls[id]? = before.calls[id]?
  queued : after.queue.items.filter (fun item => item.call == id)
    = before.queue.items.filter fun item => item.call == id
  marks : ∀ item ∈ before.docket.pending, item.call = id →
    after.interruption? item = before.interruption? item
  disposal : after.disposal = before.disposal
  worker : after.worker = before.worker

lemma Unmoved.refl (connection : Connection σ α) (id : Nat) : Unmoved connection connection id :=
  ⟨rfl, rfl, fun _ _ _ => rfl, rfl, rfl⟩

lemma awaits_iff {connection : Connection σ α} {ticket : Nat} :
    connection.awaits ticket = true ↔ ∃ id, WaitsFor connection.calls id ticket := by
  simp only [awaits, List.any_eq_true, WaitsFor, List.mem_iff_getElem?]
  constructor
  · rintro ⟨call, ⟨id, hid⟩, hwaits⟩
    exact ⟨id, call, hid, hwaits⟩
  · rintro ⟨id, call, hid, hwaits⟩
    exact ⟨call, ⟨id, hid⟩, hwaits⟩

/-- **The marks on a request are those of its own call**, whatever other calls do. -/
lemma interruption?_eq_of_later {before after : Connection σ α} {item : Queued}
    (htickets : before.docket.Tickets) (hitem : item ∈ before.docket.pending)
    (hcall : after.calls[item.call]? = before.calls[item.call]?)
    (hshutdown : after.shutdown = before.shutdown) (hlater : Later before.calls after.calls) :
    after.interruption? item = before.interruption? item := by
  have hawaits : after.awaits item.ticket = before.awaits item.ticket := by
    rw [Bool.eq_iff_iff, awaits_iff, awaits_iff]
    refine ⟨fun ⟨id, hwaits⟩ => ⟨id, hlater.waits id _ hwaits⟩, fun ⟨id, hwaits⟩ => ?_⟩
    obtain rfl := htickets.own item hitem id hwaits
    obtain ⟨call, hbefore, hmine⟩ := hwaits
    exact ⟨item.call, call, hcall.trans hbefore, hmine⟩
  simp only [interruption?, cancellation, hcall, hshutdown, hawaits]

/-- **Cancelling another call.** -/
lemma unmoved_of_cancel [Peer σ] {connection : Connection σ α} {id other : Nat}
    (htickets : connection.docket.Tickets) (hother : other ≠ id) :
    Unmoved connection (connection.step (.cancel other)) id := by
  simp only [step]
  split_ifs
  · exact .refl connection id
  · have hcall : (Caller.cancel connection other).calls[id]? = connection.calls[id]? :=
      List.getElem?_modify_ne _ _ hother
    have hlater : Later connection.calls (Caller.cancel connection other).calls :=
      Later.modify (fun _ _ hwaits => hwaits) fun _ _ => rfl
    refine ⟨hcall, rfl, ?_, rfl, rfl⟩
    rintro item hitem rfl
    exact interruption?_eq_of_later htickets hitem hcall rfl hlater

/-- **Giving up another call.** -/
lemma unmoved_of_drop [Peer σ] {connection : Connection σ α} {id other : Nat}
    (htickets : connection.docket.Tickets) (hother : other ≠ id) :
    Unmoved connection (connection.step (.drop other)) id := by
  have hcalls {after : Connection σ α}
      (hafter : after.calls = connection.calls.modify other fun call =>
        { call with progress := .dropped })
      (hqueued : after.queue.items.filter (fun item => item.call == id)
        = connection.queue.items.filter fun item => item.call == id)
      (hshutdown : after.shutdown = connection.shutdown)
      (hdisposal : after.disposal = connection.disposal)
      (hworker : after.worker = connection.worker) : Unmoved connection after id := by
    have hcall : after.calls[id]? = connection.calls[id]? := by
      rw [hafter]
      exact List.getElem?_modify_ne _ _ hother
    have hlater : Later connection.calls after.calls := by
      rw [hafter]
      exact Later.stop connection.calls other .dropped nofun
    refine ⟨hcall, hqueued, ?_, hdisposal, hworker⟩
    rintro item hitem rfl
    exact interruption?_eq_of_later htickets hitem hcall hshutdown hlater
  simp only [step, Caller.drop]
  split_ifs
  · exact .refl connection id
  · split
    · exact .refl connection id
    · rename_i call hcall
      split
      · exact hcalls rfl rfl rfl rfl rfl
      · rename_i ticket reply next hprogress
        refine hcalls rfl ?_ rfl rfl rfl
        simp only [note, Queue.remove, List.filter_filter]
        refine List.filter_congr fun item hitem => ?_
        -- What is queued under the ticket belongs to the call that is given up.
        have hown (hticket : item.ticket = ticket) : other = item.call :=
          htickets.own item (List.mem_append_right _ hitem) other
            (waitsFor_iff.mpr ⟨call, hcall, by rw [Call.ticket?, hprogress, hticket]⟩)
        by_cases hmine : item.call = id
        · have hticket : item.ticket ≠ ticket := fun hsame => hother ((hown hsame).trans hmine)
          simp [hmine, hticket]
        · simp [hmine]
      · exact .refl connection id
      · exact .refl connection id

/-- **How a request leaves the queue**: the worker takes it, its call goes on or is given up, or a
disposal refuses it. -/
lemma leaves_of_amendment {d d' : Docket α} (htickets : d.Tickets) (hamendment : Amendment d d')
    {item : Queued} (hitem : item ∈ d.queue) :
    item ∈ d'.queue ∨ d'.phase = .holding item ∨ (∀ ticket, ¬ WaitsFor d'.calls item.call ticket) ∨
      (d.disposal = .joiningTimer ∧ d'.closed = true) := by
  cases hamendment with
  | take hphase hqueue =>
      rw [hqueue] at hitem
      rcases List.mem_cons.mp hitem with rfl | hlater
      · exact .inr (.inl rfl)
      · exact .inl hlater
  | refuseQueued hdisposal => exact .inr (.inr (.inr ⟨hdisposal, rfl⟩))
  | @resume id nextTicket call after news hcall hresumes hticket hnews =>
      by_cases hmine : call.ticket? = some item.ticket
      · refine .inr (.inr (.inl fun ticket hwaits => ?_))
        obtain rfl := htickets.own item (List.mem_append_right _ hitem) id
          (waitsFor_iff.mpr ⟨call, hcall, hmine⟩)
        obtain ⟨found, hfound, hticket'⟩ := waitsFor_iff.mp hwaits
        rcases getElem?_set_some hcall hfound with ⟨-, rfl⟩ | ⟨hother, -⟩
        · simp [hresumes.ticket?] at hticket'
        · exact hother rfl
      · exact .inl (List.mem_filter.mpr ⟨hitem, bne_iff_ne.mpr hmine⟩)
  | accept hcall hprogress hopen => exact .inl (List.mem_append_left _ hitem)
  | _ => exact .inl hitem

/-! ## At rest -/

lemma caller_waits_of_settled [Peer σ] {connection : Connection σ α}
    (hsettled : connection.isSettled = true) {id : Nat} (hid : id < connection.calls.length) :
    Caller.step? connection id = none := by
  rw [isSettled, Option.isNone_iff_eq_none, taskStep?, Option.orElse_eq_none,
    Option.orElse_eq_none, Option.orElse_eq_none, List.findSome?_eq_none_iff,
    List.findSome?_eq_none_iff] at hsettled
  exact hsettled.2.2.1 id (List.mem_range.mpr hid)

/-- **A call at rest** is over, or waits without a reply on a connection that is not to stop. -/
lemma unanswered_of_settled [Peer σ] {connection : Connection σ α}
    (hsettled : connection.isSettled = true) {id : Nat} {call : Call α}
    (hcall : connection.calls[id]? = some call) (hover : call.isOver = false) :
    connection.shutdown = false ∧ ∃ ticket, Unanswered connection.calls id ticket := by
  have hstep := caller_waits_of_settled hsettled (List.getElem?_eq_some_iff.mp hcall).1
  simp only [Caller.step?, hcall] at hstep
  split at hstep
  · simp at hstep
  · simp at hstep
  · simp at hstep
  · simp at hstep
  · rename_i ticket next hprogress
    split_ifs at hstep with hcancelled hshutdown
    exact ⟨by simpa using hshutdown, ticket, call, next, hcall, hprogress⟩
  · rename_i outcome hprogress
    simp [Call.isOver, hprogress] at hover
  · rename_i hprogress
    simp [Call.isOver, hprogress] at hover

/-! ## Runs -/

/-- **No result is lost, and none goes astray**, with a clock that tells microseconds up to the
horizon. -/
structure Outcomes [Peer σ] (horizon : Nat) (connection : Connection σ α) : Prop where
  /-- An invoke comes to nothing but what is due to it. -/
  fate : ∀ (id : Nat) (call : Call α) (request : Bytes) (complete : Bytes → Bool)
    (next : Result Bytes → Operation α), connection.calls[id]? = some call →
      call.progress = .running (.invoke request complete next) →
        ∀ later, Fate (happenWithin horizon) connection id (Invokes next) next (Due complete) later
  /-- Nobody's invoke is touched by another caller who cancels, or gives up. -/
  unmoved : ∀ id other, other ≠ id →
    Unmoved connection (connection.stepWithin horizon (.cancel other)) id ∧
      Unmoved connection (connection.stepWithin horizon (.drop other)) id
  /-- A request leaves the queue to be exchanged, when its own call waits no more, or because a
  disposal refuses it. -/
  leaves : ∀ happening, ∀ item ∈ connection.queue.items,
    let after := connection.happenWithin horizon happening
    item ∈ after.queue.items ∨ phase after.worker = .holding item ∨
      (∀ ticket, ¬ WaitsFor after.calls item.call ticket) ∨
      (connection.disposal = .joiningTimer ∧ after.queue.closed = true)
  /-- Who waits without a reply has its request queued, or in the worker's hands. -/
  owed : ∀ id ticket, Unanswered connection.calls id ticket →
    ∃ item ∈ (phase connection.worker).item?.toList ++ connection.queue.items,
      item.call = id ∧ item.ticket = ticket
  /-- At rest, with the worker waiting for a request or stopped for good, every call that was not
  given up has come to its outcome. -/
  resolved : connection.isSettled = true →
    (connection.worker = .fetching ∧ connection.queue.signal.waiter = .waiting) ∨
      (connection.worker = .stopped ∧ connection.disposal = .finished) →
    ∀ call ∈ connection.calls, call.isOver = true

/-- When the accounts are right no result is lost, and none goes astray. -/
lemma Outcomes.of_accounts [Peer σ] (horizon : Nat) {connection : Connection σ α}
    (h : connection.docket.Accounts) : Outcomes horizon connection := by
  refine ⟨fun id call request complete next hcall hprogress later => ?_, fun id other hother => ?_,
    fun happening item hitem => ?_, h.owing, fun hsettled hidle call hcall => ?_⟩
  · exact fate_of_invoking (amendment_within horizon) later connection call h hcall
      (.posed hprogress)
  · exact ⟨unmoved_of_cancel h.tickets hother, unmoved_of_drop h.tickets hother⟩
  · exact leaves_of_amendment h.tickets (amendment_within horizon connection happening) hitem
  · obtain ⟨id, hid⟩ := List.mem_iff_getElem?.mp hcall
    by_contra hover
    obtain ⟨hrunning, ticket, howed⟩ :=
      unanswered_of_settled hsettled hid (by simpa using hover)
    rcases hidle with ⟨hworker, hwaiter⟩ | ⟨-, hfinished⟩
    · obtain ⟨item, hitem, -⟩ := h.owing id ticket howed
      have hphase : connection.docket.phase.item? = none := by
        simp [docket, hworker, phase, Phase.item?]
      have hqueue : connection.docket.queue = [] :=
        h.closing.parked (by simpa [docket] using hwaiter)
      simp [pending, hphase, hqueue] at hitem
    · have hshutdown : connection.shutdown = true :=
        h.closing.shutdown (by simp [docket, hfinished])
      exact absurd hshutdown (by simp [hrunning])

/-- **In every state that a connection can come to, over any link, with any number of callers and any
clock, no result is lost and none goes astray.**  The worker is gone only after a disposal has begun,
or when it has broken down, and with short spans and a clock that tells the next times it does not
break down. -/
theorem outcomes_of_run [Peer σ] (name : String) (timing : Timing) (framing : Framing)
    (wire : Wire σ) (horizon : Nat) (happenings : List (Happening α)) :
    let initial : Connection σ α := create name timing framing wire
    let reached := initial.runWithin horizon happenings
    Outcomes horizon reached ∧
      (reached.worker = .stopped →
        reached.disposal ≠ .untouched ∨ BrokenDown horizon initial happenings) ∧
      (timing.IsShort →
        (∀ before happening, before ++ [happening] <+: happenings →
          Timely (initial.runOver before) happening) →
        ((initial.runOver happenings).now + UInt64.size) * 1000 ≤ horizon →
          ¬ BrokenDown horizon initial happenings) := by
  intro initial reached
  have h : reached.docket.Accounts :=
    accounts_of_moves (amendment_within horizon) name timing framing wire happenings
  refine ⟨.of_accounts horizon h, fun hstopped => ?_, fun hshort => ?_⟩
  · have hinitial : initial.worker ≠ .stopped := nofun
    exact (stopped_of_runWithin horizon hinitial happenings hstopped).imp_left fun hshutdown =>
      h.closing.begun (.inl hshutdown)
  · exact not_brokenDown_of_inRange (InRange.create name framing wire hshort) happenings

/-- **A call is told that the connection is disposed of, and it is not**: with the longest idle
timeout, on a clock that counts seconds with 63 bits, the deadline after the first completed request
does not fit. -/
theorem disposed_without_disposal :
    let ask : Operation Bytes := .invoke [0x0A] (fun bytes => !bytes.isEmpty) .done
    let initial : Connection Responder Bytes :=
      create "link" { Timing.network with idleTimeout := ⟨Duration.limit - 1⟩ } .rtu
        { peer := .script [[[0x0C]]] }
    let actions : List (Action Bytes) := [.start ask false, .caller 0]
      ++ List.replicate 7 .worker ++ [.caller 0, .caller 0]
    let reached := initial.runWithin (UInt64.size / 2 * 1000000) (actions.map .act)
    reached.outcome? 0 = some (.error .disposed) ∧ reached.disposal = .untouched ∧
      reached.worker = .stopped := by
  cbv

/-- Three callers.  The first cancels while its request is exchanged, the second gives up while its
request is queued, and the third has its reply. -/
example :
    let ask (frame : Bytes) : Operation Bytes := .invoke frame (fun bytes => !bytes.isEmpty) .done
    let initial : Connection Responder Bytes :=
      create "link" .network .rtu { peer := .script [[], [[0x0C]]] }
    let settles (count : Nat) : List (Action Bytes) := List.replicate count .worker
    let reached := initial.run (
      [.start (ask [0x0A]) false, .start (ask [0x0B]) false, .start (ask [0x0C]) false,
        .caller 0, .caller 1, .caller 2] ++ settles 6 ++ [.cancel 0, .drop 1, .caller 0] ++ settles 3
        ++ settles 10 ++ [.caller 0, .caller 2, .caller 2] ++ List.replicate 3 (.timer .rearmed))
    reached.isSettled = true ∧ reached.queue.signal.waiter = .waiting ∧
      (List.range 3).map reached.outcome? = [some (.error .cancelled), none, some (.ok [0x0C])] := by
  cbv

end Connection

end Modbus
