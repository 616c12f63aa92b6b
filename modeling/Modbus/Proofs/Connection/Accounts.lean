import Modbus.Proofs.Connection.Amendments

/-!
# Nothing is lost

Every call that waits without a reply has its request among the pending ones, in the queue or in the
worker's hands (`Docket.Owing`).  That holds after every run because each ticket has one call that
waits for it (`Docket.Tickets`): whoever takes requests out of the queue under a ticket takes out its
own, and whatever is delivered under a ticket reaches the call that is owed it.  With a reason for
every result that is on its way (`Docket.Reasoned`), and with the queue empty whenever the worker
waits for notice and whenever it is closed (`Docket.Closing`), these are the `Docket.Accounts` that
every amendment keeps.
-/

namespace Modbus.Connection

variable {σ α : Type}

/-! ## Waiting calls -/

/-- **The call `id` waits for a ticket and has no reply.** -/
def Unanswered (calls : List (Call α)) (id ticket : Nat) : Prop :=
  ∃ call next, calls[id]? = some call ∧ call.progress = .waiting ticket none next

lemma Later.handed (calls : List (Call α)) (id ticket : Nat) (result : Result Bytes) :
    Later calls (calls.modify id (Call.handed ticket result)) :=
  Later.modify (fun call own h => by
    rw [Call.awaits_iff, Call.ticket?_handed] at h
    exact Call.awaits_iff.mpr h) fun _ h => h

lemma Later.refused : ∀ (items : List Queued) (calls : List (Call α)),
    Later calls (items.foldl (fun calls item =>
      calls.modify item.call (Call.handed item.ticket (.error .disposed))) calls)
  | [], calls => .refl calls
  | item :: items, calls => (Later.handed calls item.call item.ticket _).trans (.refused items _)

/-- Who is handed a result is owed none. -/
lemma Unanswered.of_handed {calls : List (Call α)} {id other own ticket : Nat}
    {result : Result Bytes}
    (h : Unanswered (calls.modify id (Call.handed own result)) other ticket) :
    Unanswered calls other ticket ∧ ¬ (other = id ∧ ticket = own) := by
  obtain ⟨after, next, hafter, hprogress⟩ := h
  rw [List.getElem?_modify] at hafter
  obtain ⟨call, hcall, hchange⟩ := Option.map_eq_some_iff.mp hafter
  split_ifs at hchange with hsame
  · subst hchange
    simp only [Call.handed, delivered] at hprogress
    split at hprogress
    · rename_i mine later hbefore
      split_ifs at hprogress with hticket
      · simp at hprogress
      · simp only [Progress.waiting.injEq, true_and] at hprogress
        exact ⟨⟨call, later, hcall, hprogress.1 ▸ hbefore⟩,
          fun hboth => hticket (hprogress.1.trans hboth.2)⟩
    · rename_i hother
      exact absurd hprogress (hother ticket next)
  · subst hchange
    exact ⟨⟨call, next, hcall, hprogress⟩, fun hboth => hsame hboth.1.symm⟩

lemma Unanswered.of_refused {other ticket : Nat} : ∀ (items : List Queued) {calls : List (Call α)},
    Unanswered (items.foldl (fun calls item =>
      calls.modify item.call (Call.handed item.ticket (.error .disposed))) calls) other ticket →
    Unanswered calls other ticket ∧ ∀ item ∈ items, ¬ (other = item.call ∧ ticket = item.ticket)
  | [], _, h => ⟨h, by simp⟩
  | item :: items, calls, h => by
      obtain ⟨hbefore, hrest⟩ := Unanswered.of_refused items h
      obtain ⟨hbefore, hfirst⟩ := hbefore.of_handed
      exact ⟨hbefore, List.forall_mem_cons.mpr ⟨hfirst, hrest⟩⟩

namespace Docket

variable {d d' : Docket α}

/-- A call that goes on, or is given up, waits no more. -/
lemma Resumes.ticket? {call after : Call α} (h : d.Resumes call after) : after.ticket? = none := by
  cases h with
  | proceed hcall hother hprogress =>
      rw [Call.ticket?]
      split
      · rename_i ticket reply next hwaiting
        exact absurd hwaiting (hprogress ticket reply next)
      · rfl
  | _ => rfl

lemma Resumes.cancelled {call after : Call α} (h : d.Resumes call after) :
    after.cancelled = call.cancelled := by
  cases h <;> rfl

/-! ## What no amendment takes back -/

/-- The ticket whose invoke comes to its end. -/
def ended? : Occurrence → Option Nat
  | .returned ticket _ => some ticket
  | .abandoned ticket => some ticket
  | _ => none

/-- **The invoke with a ticket is over**: it has returned a result, or was dropped. -/
def IsOver (noted : List Occurrence) (ticket : Nat) : Prop :=
  ∃ occurrence ∈ noted, ended? occurrence = some ticket

lemma isOver_append {noted news : List Occurrence} {ticket : Nat} :
    IsOver (noted ++ news) ticket ↔ IsOver noted ticket ∨ IsOver news ticket := by
  simp only [IsOver, List.mem_append, or_and_right, exists_or]

/-- The end that is noted of a call is that of its own wait. -/
lemma Notes.ticket?_of_over {call : Call α} {news : List Occurrence} {ticket : Nat}
    (h : Notes call news) (hover : IsOver news ticket) : call.ticket? = some ticket := by
  obtain ⟨occurrence, hin, hends⟩ := hover
  cases h with
  | silent hticket => cases hin
  | returned hticket result =>
      rw [List.mem_singleton.mp hin] at hends
      rw [hticket, ← hends, ended?]
  | abandoned hticket =>
      rw [List.mem_singleton.mp hin] at hends
      rw [hticket, ← hends, ended?]

/-- **A docket some time later.**  At most one call has come to wait, for the next ticket, with its
request pending; otherwise there is less of everything that is pending, an invoke that has come to
its end was waited for by a call that waits no more, and no sign is taken back. -/
structure Onward (d d' : Docket α) : Prop where
  ticket : d.nextTicket ≤ d'.nextTicket
  newcomer : ∃ caller,
    (∀ id ticket, WaitsFor d'.calls id ticket → WaitsFor d.calls id ticket ∨
      id = caller ∧ ticket = d.nextTicket ∧ d.nextTicket < d'.nextTicket) ∧
    ∀ item ∈ d'.pending, item ∈ d.pending ∨
      item.call = caller ∧ item.ticket = d.nextTicket ∧ d.nextTicket < d'.nextTicket
  ending : ∀ ticket, IsOver d'.noted ticket → IsOver d.noted ticket ∨
    ∃ id, WaitsFor d.calls id ticket ∧ ∀ other, ¬ WaitsFor d'.calls id other
  noted : d.noted <+: d'.noted
  cancelled : ∀ (id : Nat) (call : Call α), d.calls[id]? = some call → call.cancelled = true →
    ∃ call', d'.calls[id]? = some call' ∧ call'.cancelled = true
  shutdown : d.shutdown = true → d'.shutdown = true
  stopping : d.Stopping → d'.Stopping

/-- Where nobody comes to wait, and nothing is noted. -/
lemma Onward.of_later (hticket : d.nextTicket ≤ d'.nextTicket) (hcalls : Later d.calls d'.calls)
    (hpending : d'.pending ⊆ d.pending) (hnoted : d'.noted = d.noted)
    (hshutdown : d.shutdown = true → d'.shutdown = true) (hstopping : d.Stopping → d'.Stopping) :
    Onward d d' where
  ticket := hticket
  newcomer := ⟨0, fun id ticket h => .inl (hcalls.waits id ticket h), fun _ h => .inl (hpending h)⟩
  ending _ h := .inl (hnoted ▸ h)
  noted := hnoted ▸ List.prefix_refl _
  cancelled := hcalls.cancelled
  shutdown := hshutdown
  stopping := hstopping

end Docket

open Docket

variable {d d' : Docket α}

/-- **Every amendment** leads onward. -/
lemma Amendment.onward (hamendment : Amendment d d') : d.Onward d' := by
  -- Most amendments leave the calls alone.
  have hkept {later : Docket α} (hsame : later.nextTicket = d.nextTicket ∧ later.calls = d.calls)
      (hpending : later.pending ⊆ d.pending) (hnoted : later.noted = d.noted)
      (hshutdown : d.shutdown = true → later.shutdown = true)
      (hstopping : d.Stopping → later.Stopping) : d.Onward later :=
    .of_later (Nat.le_of_eq hsame.1.symm) (hsame.2 ▸ .refl _) hpending hnoted hshutdown hstopping
  cases hamendment with
  | rest => exact hkept ⟨rfl, rfl⟩ (fun _ h => h) rfl (fun h => h) (fun h => h)
  | take hphase hqueue =>
      exact hkept ⟨rfl, rfl⟩ (by simp [pending, hphase, hqueue, Phase.item?]) rfl (fun h => h)
        (fun h => h)
  | park hphase hqueue => exact hkept ⟨rfl, rfl⟩ (fun _ h => h) rfl (fun h => h) (fun h => h)
  | stop hphase hshutdown hparked =>
      exact hkept ⟨rfl, rfl⟩ (fun _ h => h) rfl (fun h => h) (fun _ => .inl hshutdown)
  | work hbefore hafter hheld hresult =>
      exact hkept ⟨rfl, rfl⟩ (by simp [pending, hbefore, hafter]) rfl (fun h => h) (fun h => h)
  | deliver hphase =>
      exact .of_later (Nat.le_refl _) (.handed ..) (by simp [pending, hphase, Phase.item?]) rfl
        (fun h => h) (fun h => h)
  | breakDown hphase =>
      exact .of_later (Nat.le_refl _) (.handed ..) (by simp [pending, Phase.item?]) rfl
        (fun h => h) (fun _ => .inr (.inr (.inr rfl)))
  | dispose hdisposal =>
      exact hkept ⟨rfl, rfl⟩ (fun _ h => h) rfl (fun _ => rfl) (fun _ => .inl rfl)
  | join hdisposal =>
      exact hkept ⟨rfl, rfl⟩ (fun _ h => h) rfl (fun h => h) (fun _ => .inr (.inl (by simp)))
  | refuseQueued hdisposal =>
      exact .of_later (Nat.le_refl _) (.refused _ _) (by simp [pending]) rfl (fun h => h)
        (fun _ => .inr (.inl (by simp)))
  | finish hdisposal =>
      exact hkept ⟨rfl, rfl⟩ (fun _ h => h) rfl (fun h => h) (fun _ => .inr (.inl (by simp)))
  | start operation cancelled =>
      exact .of_later (Nat.le_refl _) (.start _ _ _) (fun _ h => h) rfl (fun h => h) (fun h => h)
  | cancel hcall =>
      exact .of_later (Nat.le_refl _) (.set hcall (fun _ h => h) fun _ => rfl) (fun _ h => h) rfl
        (fun h => h) (fun h => h)
  | @resume id nextTicket call after news hcall hresumes hticket hnews =>
      have hleft (ticket : Nat) : after.ticket? ≠ some ticket := by simp [hresumes.ticket?]
      have hlater : Later d.calls (d.calls.set id after) :=
        .set hcall (fun ticket h => absurd h (hleft ticket)) fun h => by rw [hresumes.cancelled, h]
      have hpending : d.phase.item?.toList
            ++ d.queue.filter (fun item => call.ticket? != some item.ticket) ⊆ d.pending :=
        List.append_subset.mpr ⟨List.subset_append_left _ _,
          fun _ h => List.subset_append_right _ _ (List.filter_sublist.subset h)⟩
      refine ⟨hticket, ⟨0, fun id ticket h => .inl (hlater.waits id ticket h),
        fun _ h => .inl (hpending h)⟩, fun ticket hover => ?_, List.prefix_append _ _,
        hlater.cancelled, fun h => h, fun h => h⟩
      rcases isOver_append.mp hover with hbefore | hnow
      · exact .inl hbefore
      · refine .inr ⟨id, waitsFor_iff.mpr ⟨call, hcall, hnews.ticket?_of_over hnow⟩,
          fun other hwaits => ?_⟩
        obtain ⟨found, hfound, hother⟩ := waitsFor_iff.mp hwaits
        rcases getElem?_set_some hcall hfound with ⟨-, rfl⟩ | ⟨hne, -⟩
        · exact hleft other hother
        · exact hne rfl
  | @accept id call request complete next hcall hprogress hopen =>
      refine ⟨Nat.le_succ _, ⟨id, fun other ticket h => ?_, fun item hitem => ?_⟩,
        fun ticket hover => ?_, List.prefix_append _ _, fun other found hfound hmarked => ?_,
        fun h => h, fun h => h⟩
      · obtain ⟨found, hfound, hwaits⟩ := waitsFor_iff.mp h
        rcases getElem?_set_some hcall hfound with ⟨rfl, rfl⟩ | ⟨-, hbefore⟩
        · exact .inr ⟨rfl, (Option.some.inj hwaits).symm, Nat.lt_succ_self _⟩
        · exact .inl (waitsFor_iff.mpr ⟨found, hbefore, hwaits⟩)
      · simp only [pending, ← List.append_assoc] at hitem
        rcases List.mem_append.mp hitem with hbefore | hnew
        · exact .inl hbefore
        · rw [List.mem_singleton.mp hnew]
          exact .inr ⟨rfl, rfl, Nat.lt_succ_self _⟩
      · rcases isOver_append.mp hover with hbefore | ⟨occurrence, hin, hends⟩
        · exact .inl hbefore
        · simp [List.mem_singleton.mp hin, ended?] at hends
      · by_cases hsame : id = other
        · subst hsame
          obtain rfl : call = found := Option.some.inj (hcall.symm.trans hfound)
          exact ⟨_, List.getElem?_set_self (List.getElem?_eq_some_iff.mp hcall).1, hmarked⟩
        · exact ⟨found, (List.getElem?_set_ne hsame).trans hfound, hmarked⟩

namespace Docket

/-! ## Tickets -/

/-- **Each ticket has one call that waits for it.** -/
structure Tickets (d : Docket α) : Prop where
  bound : ∀ id ticket, WaitsFor d.calls id ticket → ticket < d.nextTicket
  fresh : ∀ item ∈ d.pending, item.ticket < d.nextTicket
  own : ∀ item ∈ d.pending, ∀ id, WaitsFor d.calls id item.ticket → id = item.call

lemma Tickets.of_onward (h : d.Tickets) (honward : d.Onward d') : d'.Tickets := by
  obtain ⟨caller, hwaits, hpending⟩ := honward.newcomer
  refine ⟨fun id ticket hwaiting => ?_, fun item hitem => ?_, fun item hitem id hwaiting => ?_⟩
  · rcases hwaits id ticket hwaiting with hbefore | ⟨-, rfl, hnext⟩
    · exact Nat.lt_of_lt_of_le (h.bound id ticket hbefore) honward.ticket
    · exact hnext
  · rcases hpending item hitem with hbefore | ⟨-, hticket, hnext⟩
    · exact Nat.lt_of_lt_of_le (h.fresh item hbefore) honward.ticket
    · exact hticket ▸ hnext
  · rcases hpending item hitem with hbefore | ⟨hcall, hticket, -⟩
    · rcases hwaits id item.ticket hwaiting with hearlier | ⟨-, hnew, -⟩
      · exact h.own item hbefore id hearlier
      · exact absurd hnew (Nat.ne_of_lt (h.fresh item hbefore))
    · rcases hwaits id item.ticket hwaiting with hearlier | ⟨hid, -, -⟩
      · exact absurd hticket (Nat.ne_of_lt (h.bound id item.ticket hearlier))
      · exact hid.trans hcall.symm

/-! ## What is owed -/

/-- **Who waits without a reply is owed one**: its request is queued, or in the worker's hands. -/
def Owing (d : Docket α) : Prop :=
  ∀ id ticket, Unanswered d.calls id ticket →
    ∃ item ∈ d.pending, item.call = id ∧ item.ticket = ticket

/-- The request in the worker's hands is done with, and its call handed a result. -/
lemma Owing.of_handed (h : d.Owing) {item : Queued} {result : Result Bytes}
    (hitem : d.phase.item? = some item) (hpending : d'.pending = d.queue)
    (hcalls : d'.calls = d.calls.modify item.call (Call.handed item.ticket result)) :
    d'.Owing := by
  intro id ticket howed
  rw [hcalls] at howed
  obtain ⟨hbefore, hother⟩ := Unanswered.of_handed howed
  obtain ⟨mine, hmine, hcall, hticket⟩ := h id ticket hbefore
  rw [pending, hitem] at hmine
  rcases List.mem_append.mp hmine with hheld | hqueued
  · rw [Option.toList_some, List.mem_singleton] at hheld
    subst hheld
    exact absurd ⟨hcall.symm, hticket.symm⟩ hother
  · exact ⟨mine, hpending ▸ hqueued, hcall, hticket⟩

/-- **Every amendment keeps what is owed.** -/
lemma Owing.of_amendment (h : d.Owing) (htickets : d.Tickets) (hamendment : Amendment d d') :
    d'.Owing := by
  have hkept {later : Docket α} (hcalls : later.calls = d.calls)
      (hpending : d.pending ⊆ later.pending) : later.Owing := by
    intro id ticket howed
    obtain ⟨item, hitem, hmine⟩ := h id ticket (hcalls ▸ howed)
    exact ⟨item, hpending hitem, hmine⟩
  cases hamendment with
  | take hphase hqueue => exact hkept rfl (by simp [pending, hphase, hqueue, Phase.item?])
  | work hbefore hafter hheld hresult => exact hkept rfl (by simp [pending, hbefore, hafter])
  | deliver hphase => exact h.of_handed (by rw [hphase]; rfl) rfl rfl
  | breakDown hphase => exact h.of_handed hphase rfl rfl
  | refuseQueued hdisposal =>
      intro id ticket howed
      obtain ⟨hbefore, hothers⟩ := Unanswered.of_refused d.queue howed
      obtain ⟨mine, hmine, hcall, hticket⟩ := h id ticket hbefore
      rcases List.mem_append.mp hmine with hheld | hqueued
      · exact ⟨mine, by simpa [pending] using hheld, hcall, hticket⟩
      · exact absurd ⟨hcall.symm, hticket.symm⟩ (hothers mine hqueued)
  | start operation cancelled =>
      rintro id ticket ⟨call, next, hcall, hprogress⟩
      refine h id ticket ⟨call, next, ?_, hprogress⟩
      rcases Nat.lt_or_ge id d.calls.length with hid | hid
      · exact (List.getElem?_append_left hid).symm.trans hcall
      · rw [List.getElem?_append_right hid, List.getElem?_singleton] at hcall
        split_ifs at hcall
        simp [← Option.some.inj hcall] at hprogress
  | @cancel id call hcall =>
      rintro other ticket ⟨found, next, hfound, hprogress⟩
      refine h other ticket ?_
      rcases getElem?_set_some hcall hfound with ⟨rfl, rfl⟩ | ⟨-, hbefore⟩
      · exact ⟨call, next, hcall, hprogress⟩
      · exact ⟨found, next, hbefore, hprogress⟩
  | @resume id nextTicket call after news hcall hresumes hticket hnews =>
      rintro other ticket ⟨found, next, hfound, hprogress⟩
      rcases getElem?_set_some hcall hfound with ⟨rfl, rfl⟩ | ⟨hother, hbefore⟩
      · exact absurd hresumes.ticket? (by simp [Call.ticket?, hprogress])
      · obtain ⟨item, hitem, rfl, rfl⟩ := h other ticket ⟨found, next, hbefore, hprogress⟩
        refine ⟨item, ?_, rfl, rfl⟩
        rcases List.mem_append.mp hitem with hheld | hqueued
        · exact List.mem_append_left _ hheld
        · refine List.mem_append_right _ (List.mem_filter.mpr ⟨hqueued, bne_iff_ne.mpr ?_⟩)
          exact fun hsame =>
            hother (htickets.own item hitem id (waitsFor_iff.mpr ⟨call, hcall, hsame⟩)).symm
  | @accept id call request complete next hcall hprogress hopen =>
      rintro other ticket ⟨found, later, hfound, hwaiting⟩
      rcases getElem?_set_some hcall hfound with ⟨rfl, rfl⟩ | ⟨-, hbefore⟩
      · simp only [Progress.waiting.injEq] at hwaiting
        exact ⟨⟨d.nextTicket, other, request, complete⟩, by simp [pending], rfl, hwaiting.1⟩
      · obtain ⟨item, hitem, hmine⟩ := h other ticket ⟨found, later, hbefore, hwaiting⟩
        refine ⟨item, ?_, hmine⟩
        simp only [pending, ← List.append_assoc]
        exact List.mem_append_left _ hitem
  | _ => exact hkept rfl fun _ h => h

/-! ## Reasons -/

/-- **A mark that ended a request is not taken back.** -/
lemma Interrupted.of_onward {item : Queued} {error : Error} (h : d.Interrupted item error)
    (htickets : d.Tickets) (hitem : item ∈ d.pending) (honward : d.Onward d') :
    d'.Interrupted item error := by
  cases h with
  | cancelled hcall hcancelled =>
      obtain ⟨call', hcall', hmarked⟩ := honward.cancelled _ _ hcall hcancelled
      exact .cancelled hcall' hmarked
  | disposed hshutdown => exact .disposed (honward.shutdown hshutdown)
  | abandoned hleft =>
      refine .abandoned fun id hwaits => ?_
      obtain ⟨caller, hwaiting, -⟩ := honward.newcomer
      rcases hwaiting id item.ticket hwaits with hbefore | ⟨-, hnew, -⟩
      · exact hleft id hbefore
      · exact Nat.ne_of_lt (htickets.fresh item hitem) hnew

lemma Earned.of_onward {item : Queued} {result : Result Bytes} (h : d.Earned item result)
    (htickets : d.Tickets) (hitem : item ∈ d.pending) (honward : d.Onward d') :
    d'.Earned item result := by
  cases h with
  | complete hcomplete => exact .complete hcomplete
  | failed hcancelled hdisposed hlink => exact .failed hcancelled hdisposed hlink
  | interrupted hinterrupted =>
      exact .interrupted (hinterrupted.of_onward htickets hitem honward)

/-- **An error that a call may be told.** -/
def Tells (d : Docket α) (call : Call α) (error : Error) : Prop :=
  (error = .cancelled → call.cancelled = true) ∧ (error = .disposed → d.Stopping)

lemma Tells.of_onward {call after : Call α} {error : Error} (h : d.Tells call error)
    (honward : d.Onward d') (hcancelled : call.cancelled = true → after.cancelled = true) :
    d'.Tells after error :=
  ⟨fun hsame => hcancelled (h.1 hsame), fun hsame => honward.stopping (h.2 hsame)⟩

/-- The error that ended a request is one that its call may be told, as long as it waits. -/
lemma Interrupted.tells {item : Queued} {error : Error} {call : Call α}
    (h : d.Interrupted item error) (hcall : d.calls[item.call]? = some call)
    (hwaits : call.ticket? = some item.ticket) :
    (error = .cancelled ∧ call.cancelled = true) ∨ (error = .disposed ∧ d.shutdown = true) := by
  cases h with
  | cancelled hmine hcancelled =>
      rw [Option.some.inj (hcall.symm.trans hmine)]
      exact .inl ⟨rfl, hcancelled⟩
  | disposed hshutdown => exact .inr ⟨rfl, hshutdown⟩
  | abandoned hleft => exact absurd (waitsFor_iff.mpr ⟨call, hcall, hwaits⟩) (hleft item.call)

lemma Earned.tells {item : Queued} {error : Error} {call : Call α}
    (h : d.Earned item (.error error)) (hcall : d.calls[item.call]? = some call)
    (hwaits : call.ticket? = some item.ticket) : d.Tells call error := by
  cases h with
  | failed hcancelled hdisposed _ =>
      exact ⟨fun hsame => absurd hsame hcancelled, fun hsame => absurd hsame hdisposed⟩
  | interrupted hinterrupted =>
      rcases hinterrupted.tells hcall hwaits with ⟨rfl, hcancelled⟩ | ⟨rfl, hshutdown⟩
      · exact ⟨fun _ => hcancelled, nofun⟩
      · exact ⟨nofun, fun _ => .inl hshutdown⟩

/-! ## What becomes of a call -/

/-- **What one amendment can do to the call `id`.** -/
inductive Alters (d d' : Docket α) (id : Nat) (call : Call α) : Call α → Prop where
  | same : Alters d d' id call call
  | cancel : Alters d d' id call { call with cancelled := true }
  /-- It is handed its result, by the worker, or by a disposal, or because the worker breaks down. -/
  | hand {ticket : Nat} {result : Result Bytes} {next : Result Bytes → Operation α}
      (hprogress : call.progress = .waiting ticket none next)
      (hresult : (∃ item, d.phase = .delivering item result ∧ item.call = id ∧
          item.ticket = ticket) ∨ (result = .error .disposed ∧ d'.Stopping)) :
      Alters d d' id call { call with progress := .waiting ticket (some result) next }
  | resume {after : Call α} (hresumes : d.Resumes call after) : Alters d d' id call after
  /-- It hands over its request. -/
  | accept {request : Bytes} {complete : Bytes → Bool} {next : Result Bytes → Operation α}
      (hprogress : call.progress = .running (.invoke request complete next))
      (hpending : d'.pending = d.pending ++ [⟨d.nextTicket, id, request, complete⟩]) :
      Alters d d' id call { call with progress := .waiting d.nextTicket none next }

/-- A call that is handed a result and had none, or is left as it is. -/
lemma handed_cases (ticket : Nat) (result : Result Bytes) (call : Call α) :
    call.handed ticket result = call ∨
      ∃ next, call.progress = .waiting ticket none next ∧
        call.handed ticket result = { call with progress := .waiting ticket (some result) next } := by
  obtain ⟨cancelled, progress⟩ := call
  cases progress with
  | waiting own reply next =>
      cases reply with
      | none =>
          by_cases hticket : own = ticket
          · subst hticket
            exact .inr ⟨next, rfl, by simp [Call.handed, delivered]⟩
          · exact .inl (by simp [Call.handed, delivered, hticket])
      | some reply => exact .inl rfl
  | _ => exact .inl rfl

/-- What becomes of a call when one of them is handed a result. -/
lemma handed_cases_of_getElem? {id : Nat} {calls : List (Call α)} {call : Call α}
    (other ticket : Nat) (result : Result Bytes) (hcall : calls[id]? = some call) :
    ∃ after, (calls.modify other (Call.handed ticket result))[id]? = some after ∧
      (after = call ∨ ∃ next, other = id ∧ call.progress = .waiting ticket none next ∧
        after = { call with progress := .waiting ticket (some result) next }) := by
  refine ⟨_, (List.getElem?_modify ..).trans (congrArg _ hcall), ?_⟩
  split_ifs with hmine
  · rcases handed_cases ticket result call with hsame | ⟨next, hbefore, hhanded⟩
    · exact .inl hsame
    · exact .inr ⟨next, hmine, hbefore, hhanded⟩
  · exact .inl rfl

/-- What a disposal does to a call when it refuses what is queued. -/
lemma refused_cases {id : Nat} : ∀ (items : List Queued) {calls : List (Call α)} {call : Call α},
    calls[id]? = some call →
    ∃ after, (items.foldl (fun calls item =>
      calls.modify item.call (Call.handed item.ticket (.error .disposed))) calls)[id]? = some after ∧
      (after = call ∨ ∃ ticket next, call.progress = .waiting ticket none next ∧
        after = { call with progress := .waiting ticket (some (.error .disposed)) next })
  | [], _, call, hcall => ⟨call, hcall, .inl rfl⟩
  | item :: items, calls, call, hcall => by
      have hfirst : (calls.modify item.call (Call.handed item.ticket (.error .disposed)))[id]?
          = some (if item.call = id then call.handed item.ticket (.error .disposed) else call) := by
        rw [List.getElem?_modify, hcall]
        rfl
      obtain ⟨after, hafter, hcases⟩ := refused_cases items hfirst
      refine ⟨after, hafter, ?_⟩
      split_ifs at hcases with hmine
      · rcases handed_cases item.ticket (.error .disposed) call with hsame | ⟨next, hbefore, hhanded⟩
        · exact hsame ▸ hcases
        · rw [hhanded] at hcases
          rcases hcases with hsame | ⟨ticket, later, hwaiting, -⟩
          · exact .inr ⟨_, next, hbefore, hsame⟩
          · simp at hwaiting
      · exact hcases

lemma getElem?_set_of_some {calls : List (Call α)} {id other : Nat} {call found after : Call α}
    (hcall : calls[id]? = some call) (hfound : calls[other]? = some found) :
    (calls.set id after)[other]? = some (if id = other then after else found) := by
  split_ifs with hsame
  · exact hsame ▸ List.getElem?_set_self (List.getElem?_eq_some_iff.mp hcall).1
  · exact (List.getElem?_set_ne hsame).trans hfound

/-- **Every amendment** does one of these things to each call that is there. -/
lemma alters_of_amendment (hamendment : Amendment d d') {id : Nat} {call : Call α}
    (hcall : d.calls[id]? = some call) :
    ∃ after, d'.calls[id]? = some after ∧ d.Alters d' id call after := by
  cases hamendment with
  | @deliver item result hphase =>
      obtain ⟨after, hafter, hcases⟩ := handed_cases_of_getElem? item.call item.ticket result hcall
      refine ⟨after, hafter, ?_⟩
      rcases hcases with rfl | ⟨next, hmine, hbefore, rfl⟩
      · exact .same
      · exact .hand hbefore (.inl ⟨item, hphase, hmine, rfl⟩)
  | @breakDown item hphase =>
      obtain ⟨after, hafter, hcases⟩ :=
        handed_cases_of_getElem? item.call item.ticket (.error .disposed) hcall
      refine ⟨after, hafter, ?_⟩
      rcases hcases with rfl | ⟨next, hmine, hbefore, rfl⟩
      · exact .same
      · exact .hand hbefore (.inr ⟨rfl, .inr (.inr (.inr rfl))⟩)
  | refuseQueued hdisposal =>
      obtain ⟨after, hafter, hcases⟩ := refused_cases d.queue hcall
      refine ⟨after, hafter, ?_⟩
      rcases hcases with rfl | ⟨ticket, next, hbefore, rfl⟩
      · exact .same
      · exact .hand hbefore (.inr ⟨rfl, .inr (.inl nofun)⟩)
  | start operation cancelled =>
      exact ⟨call, (List.getElem?_append_left (List.getElem?_eq_some_iff.mp hcall).1).trans hcall,
        .same⟩
  | @cancel other found hfound =>
      refine ⟨_, getElem?_set_of_some hfound hcall, ?_⟩
      split_ifs with hsame
      · subst hsame
        rw [Option.some.inj (hcall.symm.trans hfound)]
        exact .cancel
      · exact .same
  | @resume other nextTicket found after news hfound hresumes hticket hnews =>
      refine ⟨_, getElem?_set_of_some hfound hcall, ?_⟩
      split_ifs with hsame
      · subst hsame
        rw [Option.some.inj (hcall.symm.trans hfound)]
        exact .resume hresumes
      · exact .same
  | @accept other found request complete next hfound hprogress hopen =>
      refine ⟨_, getElem?_set_of_some hfound hcall, ?_⟩
      split_ifs with hsame
      · subst hsame
        rw [Option.some.inj (hcall.symm.trans hfound)]
        exact .accept hprogress (by simp [pending])
      · exact .same
  | _ => exact ⟨call, hcall, .same⟩

/-- A call that was not there before has been started. -/
lemma running_of_new (hamendment : Amendment d d') {id : Nat} {after : Call α}
    (hnone : d.calls[id]? = none) (hafter : d'.calls[id]? = some after) :
    ∃ operation, after.progress = .running operation := by
  have hlength : d.calls.length ≤ id := List.getElem?_eq_none_iff.mp hnone
  have hkept (hsame : d'.calls.length = d.calls.length) :
      ∃ operation, after.progress = .running operation := by
    have hid := (List.getElem?_eq_some_iff.mp hafter).1
    omega
  cases hamendment with
  | start operation cancelled =>
      rw [List.getElem?_append_right hlength, List.getElem?_singleton] at hafter
      split_ifs at hafter
      exact ⟨operation, by rw [← Option.some.inj hafter]⟩
  | refuseQueued hdisposal =>
      refine hkept ?_
      have hfold (items : List Queued) : ∀ calls : List (Call α), (items.foldl (fun calls item =>
          calls.modify item.call (Call.handed item.ticket (.error .disposed))) calls).length
            = calls.length := by
        induction items with
        | nil => exact fun _ => rfl
        | cons item items ih => exact fun calls => (ih _).trans (List.length_modify ..)
      exact hfold _ _
  | _ => exact hkept (by simp)

/-- **There is a reason for every result** on its way to a call. -/
structure Reasoned (d : Docket α) : Prop where
  earned : ∀ item result, d.phase.item? = some item → d.phase.result? = some result →
    d.Earned item result
  told : ∀ (id : Nat) (call : Call α) (ticket : Nat) (error : Error)
    (next : Result Bytes → Operation α), d.calls[id]? = some call →
      call.progress = .waiting ticket (some (.error error)) next → d.Tells call error

lemma mem_pending_of_item? {item : Queued} (hitem : d.phase.item? = some item) :
    item ∈ d.pending := by
  simp [pending, hitem]

/-- **Every amendment keeps the reasons.** -/
lemma Reasoned.of_amendment (h : d.Reasoned) (htickets : d.Tickets)
    (hamendment : Amendment d d') : d'.Reasoned := by
  have honward := hamendment.onward
  have hkept (hphase : d'.phase = d.phase) (item : Queued) (result : Result Bytes)
      (hitem : d'.phase.item? = some item) (hresult : d'.phase.result? = some result) :
      d'.Earned item result := by
    rw [hphase] at hitem hresult
    exact (h.earned item result hitem hresult).of_onward htickets (mem_pending_of_item? hitem) honward
  refine ⟨?_, ?_⟩
  · cases hamendment with
    | take hphase hqueue =>
        intro item result hitem hresult
        simp [Phase.result?] at hresult
    | deliver hphase =>
        intro item result hitem hresult
        simp [Phase.item?] at hitem
    | breakDown hphase =>
        intro item result hitem hresult
        simp [Phase.item?] at hitem
    | work hbefore hafter hheld hresult =>
        intro other result hitem hsome
        obtain rfl := Option.some.inj (hafter.symm.trans hitem)
        have hearned : d.Earned _ result :=
          (hresult result hsome).elim (h.earned _ result hbefore) fun hearned => hearned
        exact hearned.of_onward htickets (mem_pending_of_item? hbefore) honward
    | _ => exact hkept rfl
  · intro id after ticket error next hafter hwaiting
    cases hcall : d.calls[id]? with
    | none =>
        obtain ⟨operation, hrunning⟩ := running_of_new hamendment hcall hafter
        cases hrunning.symm.trans hwaiting
    | some call =>
        obtain ⟨found, hfound, halters⟩ := alters_of_amendment hamendment hcall
        obtain rfl := Option.some.inj (hfound.symm.trans hafter)
        cases halters with
        | same => exact (h.told id _ ticket error next hcall hwaiting).of_onward honward fun hmark => hmark
        | cancel =>
            exact (h.told id call ticket error next hcall hwaiting).of_onward honward fun _ => rfl
        | hand hprogress hresult =>
            simp only [Progress.waiting.injEq, Option.some.injEq] at hwaiting
            obtain ⟨rfl, rfl, -⟩ := hwaiting
            rcases hresult with ⟨item, hphase, rfl, rfl⟩ | ⟨hdisposed, hstopping⟩
            · have hearned := h.earned item (.error error) (by rw [hphase]; rfl) (by rw [hphase]; rfl)
              have htells : d.Tells call error :=
                hearned.tells hcall (by rw [Call.ticket?, hprogress])
              exact htells.of_onward honward fun hmark => hmark
            · rw [Except.error.inj hdisposed]
              exact ⟨by simp, fun _ => hstopping⟩
        | resume hresumes =>
            exact absurd hresumes.ticket? (by simp [Call.ticket?, hwaiting])
        | accept hprogress hpending => simp at hwaiting

/-! ## The queue and its end -/

/-- **The queue is closed by a disposal only**, and empty when it is closed or found empty. -/
structure Closing (d : Docket α) : Prop where
  begun : d.shutdown = true ∨ d.closed = true → d.disposal ≠ .untouched
  shutdown : d.disposal ≠ .untouched → d.shutdown = true
  closed : d.closed = true ↔ d.disposal = .awaitingLink ∨ d.disposal = .finished
  drained : d.closed = true → d.queue = []
  parked : d.parked = true → d.queue = []

/-- **A connection is to stop** because a disposal has begun, or because its worker has stopped. -/
lemma Closing.stopping (h : d.Closing) (hstopping : d.Stopping) :
    d.disposal ≠ .untouched ∨ d.stopped = true := by
  rcases hstopping with hshutdown | hdisposal | hclosed | hstopped
  · exact .inl (h.begun (.inl hshutdown))
  · exact .inl hdisposal
  · exact .inl (h.begun (.inr hclosed))
  · exact .inr hstopped

lemma Closing.of_amendment (h : d.Closing) (hamendment : Amendment d d') : d'.Closing := by
  cases hamendment with
  | take hphase hqueue =>
      exact ⟨h.begun, h.shutdown, h.closed, fun hclosed => by simp [h.drained hclosed] at hqueue,
        nofun⟩
  | park hphase hqueue => exact ⟨h.begun, h.shutdown, h.closed, h.drained, fun _ => hqueue⟩
  | stop hphase hshutdown hparked =>
      exact ⟨h.begun, h.shutdown, h.closed, h.drained, fun hwaits => h.parked (hparked hwaits)⟩
  | dispose hdisposal =>
      have hopen : d.closed ≠ true := fun hclosed => by
        simpa [hdisposal] using h.closed.mp hclosed
      exact ⟨by simp, fun _ => rfl, by simp [hopen], h.drained, h.parked⟩
  | join hdisposal =>
      have hopen : d.closed ≠ true := fun hclosed => by
        simpa [hdisposal] using h.closed.mp hclosed
      have hshutdown : d.shutdown = true := h.shutdown (by simp [hdisposal])
      exact ⟨by simp, fun _ => hshutdown, by simp [hopen], h.drained, h.parked⟩
  | refuseQueued hdisposal =>
      have hshutdown : d.shutdown = true := h.shutdown (by simp [hdisposal])
      exact ⟨by simp, fun _ => hshutdown, by simp, fun _ => rfl, fun _ => rfl⟩
  | finish hdisposal =>
      have hclosed : d.closed = true := h.closed.mpr (.inl hdisposal)
      have hshutdown : d.shutdown = true := h.shutdown (by simp [hdisposal])
      exact ⟨by simp, fun _ => hshutdown, by simp [hclosed], h.drained, h.parked⟩
  | resume hcall hresumes hticket hnews =>
      refine ⟨h.begun, h.shutdown, h.closed, fun hclosed => ?_, fun hparked => ?_⟩
      · simp [h.drained hclosed]
      · simp [h.parked hparked]
  | accept hcall hprogress hopen =>
      exact ⟨h.begun, h.shutdown, h.closed, fun hclosed => by simp [hopen] at hclosed, nofun⟩
  | _ => exact ⟨h.begun, h.shutdown, h.closed, h.drained, h.parked⟩

/-! ## The accounts -/

/-- **The accounts of a docket.** -/
structure Accounts (d : Docket α) : Prop where
  tickets : d.Tickets
  owing : d.Owing
  reasoned : d.Reasoned
  closing : d.Closing

/-- **Every amendment keeps the accounts.** -/
lemma Accounts.of_amendment (h : d.Accounts) (hamendment : Amendment d d') : d'.Accounts where
  tickets := h.tickets.of_onward hamendment.onward
  owing := h.owing.of_amendment h.tickets hamendment
  reasoned := h.reasoned.of_amendment h.tickets hamendment
  closing := h.closing.of_amendment hamendment

end Docket

/-- A new connection owes nothing to anybody. -/
lemma accounts_create (name : String) (timing : Timing) (framing : Framing) (wire : Wire σ) :
    (create name timing framing wire : Connection σ α).docket.Accounts where
  tickets := ⟨by simp [WaitsFor, docket, create],
    by simp [pending, docket, create, phase, Phase.item?],
    by simp [pending, docket, create, phase, Phase.item?]⟩
  owing := by simp [Owing, Unanswered, docket, create]
  reasoned := ⟨by simp [docket, create, phase, Phase.item?], by simp [docket, create]⟩
  closing := by constructor <;> simp [docket, create]

/-- **The accounts are right after every run** of a new connection, over any link, if all that
happens in it amends the docket. -/
lemma accounts_of_moves {move : Connection σ α → Happening α → Connection σ α}
    (hmove : ∀ connection happening, Amendment connection.docket (move connection happening).docket)
    (name : String) (timing : Timing) (framing : Framing) (wire : Wire σ)
    (happenings : List (Happening α)) :
    (happenings.foldl move (create name timing framing wire)).docket.Accounts :=
  docket_induction hmove (fun _ _ h hamendment => h.of_amendment hamendment) happenings _
    (accounts_create name timing framing wire)

lemma accounts_of_run [Peer σ] (name : String) (timing : Timing) (framing : Framing) (wire : Wire σ)
    (happenings : List (Happening α)) :
    ((create name timing framing wire).runOver happenings : Connection σ α).docket.Accounts :=
  accounts_of_moves amendment_of_happening name timing framing wire happenings

end Modbus.Connection
