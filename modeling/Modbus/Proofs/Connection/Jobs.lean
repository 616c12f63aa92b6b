import Modbus.Proofs.Access
import Modbus.Proofs.Connection.Order

/-!
# Jobs on a connection

A `Job` is an access to a unit, in the hands of one call of a connection.  Its call frames the
request, hands it over at most once, waits, and concludes from the reply.  `Course` lists how far a
call can have come with its job and what is known there; when it has concluded something, it did so
from a reply that was returned for the ticket of its own request (`Told`).

`Engaged` says this of all calls at once, together with the same for requests: each one that is not
given up is the request of its call's job.  It holds after every run that starts nothing but jobs
(`engaged_of_run`).
-/

namespace Modbus

/-- **An access to a unit.** -/
structure Job where
  unit : UnitId
  access : Access

namespace Job

/-- The client's program for a job. -/
def operation (framing : Framing) (job : Job) : Operation Outcome :=
  job.access.operation framing job.unit

/-- **What a job puts on the link**: its PDU, framed under some transaction. -/
def Asks (framing : Framing) (job : Job) (request : Bytes) : Prop :=
  ∃ pdu transaction, job.access.pdu = .ok pdu ∧
    request = framing.wrap ⟨job.unit, some transaction⟩ pdu

end Job

namespace Connection

/-! ## The course of one call -/

section

variable (framing : Framing) (job : Job) (id : Nat) (line : List Queued) (ledger : List Occurrence)

/-- A call's request was accepted under a ticket. -/
structure Asked (ticket : Nat) (request : Bytes) : Prop where
  entry : (ticket, id) ∈ accepted ledger
  asks : job.Asks framing request
  alone : ∀ item ∈ line, item.ticket = ticket → item.request = request

/-- **What a call concludes** comes from a reply to its own request, unless it is an error. -/
def Told (outcome : Result Outcome) : Prop :=
  ∀ value, outcome = .ok value → ∃ ticket request bytes,
    Asked framing job id line ledger ticket request ∧
      .returned ticket (.ok bytes) ∈ ledger ∧
      job.access.read framing request (.ok bytes) = .ok value

/-- **How far a call can have come with its job.** -/
inductive Course : Progress Outcome → Prop where
  | begun {pdu : Bytes} (hpdu : job.access.pdu = .ok pdu)
      (hnew : id ∉ (accepted ledger).map Prod.snd) :
      Course (.running (.frame job.unit pdu fun request =>
        .invoke request framing.responseComplete fun reply =>
          .done (job.access.read framing request reply)))
  | framed {request : Bytes} (hasks : job.Asks framing request)
      (hnew : id ∉ (accepted ledger).map Prod.snd) :
      Course (.running (.invoke request framing.responseComplete fun reply =>
        .done (job.access.read framing request reply)))
  | waiting {ticket : Nat} {request : Bytes} {reply : Option (Result Bytes)}
      (hasked : Asked framing job id line ledger ticket request) :
      Course (.waiting ticket reply fun reply => .done (job.access.read framing request reply))
  | concluding {outcome : Result Outcome} (htold : Told framing job id line ledger outcome) :
      Course (.running (.done outcome))
  | finished {outcome : Result Outcome} (htold : Told framing job id line ledger outcome) :
      Course (.finished outcome)
  | dropped : Course .dropped

end

/-- Each call is on course with its job. -/
structure Courses (framing : Framing) (jobs : List Job) (line : List Queued)
    (ledger : List Occurrence) (calls : List (Progress Outcome)) : Prop where
  size : calls.length = jobs.length
  course : ∀ id job progress, jobs[id]? = some job → calls[id]? = some progress →
    Course framing job id line ledger progress

section

variable {framing : Framing} {job : Job} {jobs : List Job} {id ticket : Nat}
  {line line' : List Queued} {ledger ledger' : List Occurrence} {calls : List (Progress Outcome)}

lemma told_error (error : Error) : Told framing job id line ledger (.error error) := by
  intro value h
  simp at h

lemma accepted_subset (h : ledger ⊆ ledger') : accepted ledger ⊆ accepted ledger' := by
  intro entry hentry
  obtain ⟨occurrence, hin, heq⟩ := List.mem_filterMap.mp hentry
  exact List.mem_filterMap.mpr ⟨occurrence, h hin, heq⟩

section

variable (hledger : ledger ⊆ ledger')
  (hline : ∀ item ∈ line', item ∈ line ∨ item.ticket ∉ (accepted ledger).map Prod.fst)
include hledger hline

lemma Asked.mono {request : Bytes} (h : Asked framing job id line ledger ticket request) :
    Asked framing job id line' ledger' ticket request := by
  refine ⟨accepted_subset hledger h.entry, h.asks, fun item hitem hticket => ?_⟩
  rcases hline item hitem with hbefore | hnew
  · exact h.alone item hbefore hticket
  · exact absurd (List.mem_map_of_mem h.entry) (hticket ▸ hnew)

lemma Told.mono {outcome : Result Outcome} (h : Told framing job id line ledger outcome) :
    Told framing job id line' ledger' outcome := by
  intro value hvalue
  obtain ⟨ticket, request, bytes, hasked, hreturned, hread⟩ := h value hvalue
  exact ⟨ticket, request, bytes, hasked.mono hledger hline, hledger hreturned, hread⟩

lemma Course.mono {progress : Progress Outcome}
    (hid : id ∈ (accepted ledger').map Prod.snd → id ∈ (accepted ledger).map Prod.snd)
    (h : Course framing job id line ledger progress) :
    Course framing job id line' ledger' progress := by
  cases h with
  | begun hpdu hnew => exact .begun hpdu fun h => hnew (hid h)
  | framed hasks hnew => exact .framed hasks fun h => hnew (hid h)
  | waiting hasked => exact .waiting (hasked.mono hledger hline)
  | concluding htold => exact .concluding (htold.mono hledger hline)
  | finished htold => exact .finished (htold.mono hledger hline)
  | dropped => exact .dropped

end

lemma Course.delivered {progress : Progress Outcome} (ticket : Nat) (result : Result Bytes)
    (h : Course framing job id line ledger progress) :
    Course framing job id line ledger (delivered ticket result progress) := by
  cases h with
  | @waiting own request reply hasked =>
      cases reply with
      | none =>
          simp only [Connection.delivered]
          split_ifs
          · exact .waiting hasked
          · exact .waiting hasked
      | some reply => exact .waiting hasked
  | begun hpdu hnew => exact .begun hpdu hnew
  | framed hasks hnew => exact .framed hasks hnew
  | concluding htold => exact .concluding htold
  | finished htold => exact .finished htold
  | dropped => exact .dropped

namespace Courses

/-- Every call has its job. -/
lemma exists_job (h : Courses framing jobs line ledger calls) {progress : Progress Outcome}
    (hcall : calls[id]? = some progress) : ∃ job, jobs[id]? = some job := by
  have hid := (List.getElem?_eq_some_iff.mp hcall).1
  exact ⟨_, List.getElem?_eq_getElem (h.size ▸ hid)⟩

lemma set (h : Courses framing jobs line ledger calls) {index : Nat} {progress : Progress Outcome}
    (hnew : ∀ job, jobs[index]? = some job → Course framing job index line ledger progress) :
    Courses framing jobs line ledger (calls.set index progress) := by
  refine ⟨by rw [List.length_set, h.size], fun id job other hjob hcall => ?_⟩
  rw [List.getElem?_set] at hcall
  split_ifs at hcall with hid
  · obtain rfl : progress = other := by simpa using hcall
    exact hid ▸ hnew job (hid ▸ hjob)
  · exact h.course id job other hjob hcall

lemma modify (h : Courses framing jobs line ledger calls) (index ticket : Nat)
    (result : Result Bytes) :
    Courses framing jobs line ledger (calls.modify index (delivered ticket result)) := by
  refine ⟨by rw [List.length_modify, h.size], fun id job progress hjob hcall => ?_⟩
  rw [List.getElem?_modify] at hcall
  obtain ⟨before, hbefore, rfl⟩ := Option.map_eq_some_iff.mp hcall
  split_ifs
  · exact (h.course id job before hjob hbefore).delivered ticket result
  · exact h.course id job before hjob hbefore

lemma refused (error : Error) : ∀ (items : List Queued) {calls : List (Progress Outcome)},
    Courses framing jobs line ledger calls →
      Courses framing jobs line ledger (items.foldl (fun calls item =>
        calls.modify item.call (delivered item.ticket (.error error))) calls)
  | [], _, h => h
  | item :: items, _, h => refused error items (h.modify item.call item.ticket _)

/-- **A request accepted**: its call waits for it, and it is the last one in line. -/
lemma accept (h : Courses framing jobs line ledger calls) (hjob : jobs[id]? = some job)
    {request : Bytes} (hasks : job.Asks framing request) (complete : Bytes → Bool)
    (hledger : ledger ⊆ ledger') (haccepted : accepted ledger' = accepted ledger ++ [(ticket, id)])
    (hknown : ∀ item ∈ line, item.ticket ∈ (accepted ledger).map Prod.fst)
    (hfresh : ticket ∉ (accepted ledger).map Prod.fst) :
    Courses framing jobs (line ++ [⟨ticket, id, request, complete⟩]) ledger'
      (calls.set id (.waiting ticket none fun reply =>
        .done (job.access.read framing request reply))) := by
  refine ⟨by rw [List.length_set, h.size], fun other asked progress hasked hprogress => ?_⟩
  rw [List.getElem?_set] at hprogress
  split_ifs at hprogress with hid
  · obtain rfl := hid
    obtain rfl : job = asked := by simpa [hjob] using hasked
    obtain rfl := Option.some.inj hprogress
    refine .waiting ⟨?_, hasks, fun item hitem hticket => ?_⟩
    · rw [haccepted]
      exact List.mem_append_right _ (List.mem_singleton_self _)
    · rcases List.mem_append.mp hitem with hbefore | hlast
      · exact absurd (hticket ▸ hknown item hbefore) hfresh
      · rw [List.mem_singleton.mp hlast]
  · refine Course.mono hledger (fun item hitem => ?_) (fun hin => ?_)
      (h.course other asked progress hasked hprogress)
    · rcases List.mem_append.mp hitem with hbefore | hlast
      · exact .inl hbefore
      · exact .inr (List.mem_singleton.mp hlast ▸ hfresh)
    · rw [haccepted, List.map_append] at hin
      rcases List.mem_append.mp hin with hbefore | hlast
      · exact hbefore
      · exact absurd (List.mem_singleton.mp hlast).symm hid

/-- One more job, begun. -/
lemma start (h : Courses framing jobs line ledger calls)
    (hnew : jobs.length ∉ (accepted ledger).map Prod.snd) (job : Job) :
    Courses framing (jobs ++ [job]) line ledger (calls ++ [.running (job.operation framing)]) := by
  refine ⟨by simp [h.size], fun id other progress hjob hcall => ?_⟩
  rcases Nat.lt_or_ge id jobs.length with hlt | hge
  · rw [List.getElem?_append_left hlt] at hjob
    rw [List.getElem?_append_left (h.size ▸ hlt)] at hcall
    exact h.course id other progress hjob hcall
  · rw [List.getElem?_append_right hge, List.getElem?_singleton] at hjob
    rw [List.getElem?_append_right (h.size ▸ hge), List.getElem?_singleton] at hcall
    split_ifs at hjob hcall with hid
    obtain rfl : job = other := by simpa using hjob
    obtain rfl : .running (job.operation framing) = progress := by simpa using hcall
    obtain rfl : id = jobs.length := by omega
    cases hpdu : job.access.pdu with
    | ok pdu =>
        rw [Job.operation, Access.operation_of_pdu hpdu]
        exact .begun hpdu hnew
    | error error =>
        rw [Job.operation, Access.operation_of_error hpdu]
        exact .concluding (told_error error)

end Courses

end

/-! ## All calls at once -/

/-- **All calls are engaged in their jobs**, and all requests are theirs. -/
structure Engaged {σ : Type} (framing : Framing) (jobs : List Job) (past : List (Label Outcome))
    (view : View σ Outcome) : Prop where
  codec : view.framing = framing
  courses : Courses framing jobs (line past view) view.ledger view.calls
  once : ((accepted view.ledger).map Prod.snd).Nodup
  begun : ∀ entry ∈ accepted view.ledger, entry.2 < jobs.length
  posted : ∀ item ∈ line past view, ∃ job, jobs[item.call]? = some job ∧
    job.Asks framing item.request ∧ item.complete = framing.responseComplete

section

variable {σ : Type} {framing : Framing} {jobs : List Job} {past : List (Label Outcome)}
  {v v' : View σ Outcome} {label : Label Outcome}

lemma Engaged.of_accept {id : Nat} (h : Engaged framing jobs past v) (hordered : Ordered past v)
    {request : Bytes} {complete : Bytes → Bool} {next : Result Bytes → Operation Outcome}
    (hcall : v.calls[id]? = some (.running (.invoke request complete next)))
    (hline : line (past ++ [label]) v' = line past v ++ [⟨v.nextTicket, id, request, complete⟩])
    (haccepted : accepted v'.ledger = accepted v.ledger ++ [(v.nextTicket, id)])
    (hledger : v.ledger ⊆ v'.ledger) (hframing : v'.framing = v.framing)
    (hcalls : v'.calls = v.calls.set id (.waiting v.nextTicket none next)) :
    Engaged framing jobs (past ++ [label]) v' := by
  obtain ⟨job, hjob⟩ := h.courses.exists_job hcall
  have hknown : ∀ item ∈ line past v, item.ticket ∈ (accepted v.ledger).map Prod.fst :=
    fun item hitem => List.mem_map_of_mem (hordered.line.subset (List.mem_map_of_mem hitem))
  have hfresh : v.nextTicket ∉ (accepted v.ledger).map Prod.fst := by
    intro hin
    obtain ⟨entry, hentry, hticket⟩ := List.mem_map.mp hin
    exact Nat.lt_irrefl _ (hticket ▸ hordered.bound entry hentry)
  cases h.courses.course id job _ hjob hcall with
  | framed hasks hnew =>
      refine ⟨hframing.trans h.codec, ?_, ?_, ?_, ?_⟩
      · rw [hline, hcalls]
        exact h.courses.accept hjob hasks _ hledger haccepted hknown hfresh
      · rw [haccepted, List.map_append, List.nodup_append]
        refine ⟨h.once, List.nodup_singleton _, ?_⟩
        rintro call hin last hlast rfl
        obtain rfl : call = id := List.mem_singleton.mp hlast
        exact hnew hin
      · rw [haccepted]
        intro entry hentry
        rcases List.mem_append.mp hentry with hbefore | hlast
        · exact h.begun entry hbefore
        · rw [List.mem_singleton.mp hlast]
          exact (List.getElem?_eq_some_iff.mp hjob).1
      · rw [hline]
        intro item hitem
        rcases List.mem_append.mp hitem with hbefore | hlast
        · exact h.posted item hbefore
        · rw [List.mem_singleton.mp hlast]
          exact ⟨job, hjob, hasks, rfl⟩

variable [Peer σ]

/-- A move that accepts nothing leaves every call on course. -/
lemma Courses.of_move (h : Engaged framing jobs past v) (hmove : Move v label v')
    (hline : (line (past ++ [label]) v').Sublist (line past v))
    (haccepted : accepted v'.ledger = accepted v.ledger) (hsame : label.started? = none) :
    Courses framing jobs (line (past ++ [label]) v') v'.ledger v'.calls := by
  have hkept : Courses framing jobs (line (past ++ [label]) v') v'.ledger v.calls := by
    refine ⟨h.courses.size, fun id job progress hjob hcall => ?_⟩
    exact Course.mono hmove.ledger (fun item hitem => .inl (hline.subset hitem))
      (fun hin => haccepted ▸ hin) (h.courses.course id job progress hjob hcall)
  cases hmove with
  | accept hcall => simp [accepted] at haccepted
  | start operation => simp [Label.started?] at hsame
  | deliver hphase => exact hkept.modify _ _ _
  | refuseQueued => exact hkept.refused _ _
  | finish hcall =>
      refine hkept.set fun job hjob => ?_
      cases hkept.course _ job _ hjob hcall with
      | concluding htold => exact .finished htold
  | frame hcall transaction =>
      refine hkept.set fun job hjob => ?_
      cases hkept.course _ job _ hjob hcall with
      | begun hpdu hnew => exact .framed ⟨_, transaction, hpdu, by rw [h.codec]⟩ hnew
  | refuse hcall hticket =>
      refine hkept.set fun job hjob => ?_
      cases hkept.course _ job _ hjob hcall with
      | framed hasks hnew => exact .concluding (told_error _)
  | @leave id ticket reply next result queue hcall hresult hqueue =>
      refine hkept.set fun job hjob => ?_
      cases hkept.course _ job _ hjob hcall with
      | waiting hasked =>
          cases result with
          | error error => exact .concluding (told_error _)
          | ok bytes =>
              refine .concluding fun value hvalue => ⟨ticket, _, bytes, hasked, ?_, hvalue⟩
              exact List.mem_append_right _ (List.mem_singleton_self _)
  | drop hqueue => exact hkept.set fun job hjob => .dropped
  | rest => exact hkept
  | take _ _ => exact hkept
  | withdraw _ => exact hkept
  | attempt _ _ _ => exact hkept
  | fail _ _ _ => exact hkept
  | send _ _ => exact hkept
  | read _ _ _ _ _ => exact hkept
  | conclude _ => exact hkept
  | abort _ => exact hkept
  | unlink => exact hkept

/-- **Engaged calls stay engaged**, whatever happens but a new job. -/
lemma Engaged.of_move (h : Engaged framing jobs past v) (hordered : Ordered past v)
    (hmove : Move v label v') (hsame : label.started? = none) :
    Engaged framing jobs (past ++ [label]) v' := by
  rcases hmove.line past with ⟨hline, haccepted, -⟩ |
    ⟨id, request, complete, next, hcall, hline, haccepted, -, hcalls⟩
  · refine ⟨hmove.framing.trans h.codec, .of_move h hmove hline haccepted hsame, ?_, ?_, ?_⟩
    · rw [haccepted]
      exact h.once
    · rw [haccepted]
      exact h.begun
    · exact fun item hitem => h.posted item (hline.subset hitem)
  · exact h.of_accept hordered hcall hline haccepted hmove.ledger hmove.framing hcalls

/-- **One more job.** -/
lemma Engaged.of_start (h : Engaged framing jobs past v) (job : Job)
    (hmove : Move v (.started (job.operation framing)) v') :
    Engaged framing (jobs ++ [job]) (past ++ [.started (job.operation framing)]) v' := by
  cases hmove with
  | start =>
      have hline (view : View σ Outcome) :
          line (past ++ [.started (job.operation framing)]) view = line past view := by
        simp [line, Label.sent?]
      refine ⟨h.codec, ?_, h.once, ?_, ?_⟩
      · rw [hline]
        refine h.courses.start (fun hin => ?_) job
        obtain ⟨entry, hentry, hid⟩ := List.mem_map.mp hin
        exact Nat.lt_irrefl _ (hid ▸ h.begun entry hentry)
      · intro entry hentry
        rw [List.length_append]
        exact Nat.lt_add_right _ (h.begun entry hentry)
      · rw [hline]
        intro item hitem
        obtain ⟨other, hother, hposted⟩ := h.posted item hitem
        refine ⟨other, ?_, hposted⟩
        rw [List.getElem?_append_left (List.getElem?_eq_some_iff.mp hother).1]
        exact hother

end

/-- **All calls are engaged after every run** that starts these jobs and no other operations. -/
lemma engaged_of_run {σ : Type} [Peer σ] (name : String) (timing : Timing) (framing : Framing)
    {wire : Wire σ} (hwire : wire.arriving = []) {actions : List (Action Outcome)}
    (hpush : ∀ chunk, .push chunk ∉ actions) {jobs : List Job}
    (hjobs : (create name timing framing wire).started actions
      = jobs.map fun job => job.operation framing) :
    Engaged framing jobs ((create name timing framing wire).labels actions)
      ((create name timing framing wire).run actions).view := by
  -- Which jobs there are depends on how far the run has come, so the invariant is about any list
  -- of jobs that makes up the operations started so far.
  let motive (past : List (Label Outcome)) (view : View σ Outcome) : Prop :=
    Ordered past view ∧ ∀ jobs : List Job,
      (past.filterMap Label.started? = jobs.map fun job => job.operation framing) →
        Engaged framing jobs past view
  have hinitial : motive [] (create name timing framing wire : Connection σ Outcome).view := by
    have hnone : ∀ chunk, Action.push chunk ∉ ([] : List (Action Outcome)) := by simp
    refine ⟨ordered_of_run name timing framing hwire hnone, fun jobs h => ?_⟩
    obtain rfl : jobs = [] := by simpa using h.symm
    refine ⟨rfl, ⟨rfl, fun id job progress hjob => by simp at hjob⟩, .nil, ?_, ?_⟩
    · intro entry h
      simp [view, create, ledger, accepted] at h
    · intro item h
      simp [line, View.unsent, view, create, phase] at h
  have hmove : ∀ past v label v', motive past v → v.Tidy → Move v label v' →
      motive (past ++ [label]) v' := by
    rintro past v label v' ⟨hordered, hengaged⟩ - hmove
    refine ⟨hordered.of_move hmove, fun jobs h => ?_⟩
    rw [List.filterMap_append] at h
    cases hlabel : label.started? with
    | none =>
        refine (hengaged jobs ?_).of_move hordered hmove hlabel
        simpa [hlabel] using h
    | some operation =>
        obtain rfl : label = .started operation := by
          cases label <;> simp_all [Label.started?]
        obtain ⟨earlier, last, rfl, hearlier, hlast⟩ := List.append_eq_map_iff.mp h
        obtain ⟨job, rfl, hjob⟩ := List.map_eq_singleton_iff.mp hlast
        obtain rfl : job.operation framing = operation := hjob
        exact (hengaged earlier hearlier.symm).of_start job hmove
  exact (invariant_of_run name timing framing hwire hinitial hmove hpush).2 jobs hjobs

end Connection

end Modbus
