import Mathlib.Data.List.Permutation
import Modbus.Proofs.Connection.Resting

/-!
# A queue in use

Many hands are at a queue at once, and none waits for another to be done.  A push draws its ticket,
puts its request in and gives notice; a poll of the one pending take looks, and when it has found
nothing it waits.  Anything may come between two of these, so each of them is a `Move` of its own.
A `Traffic` is a queue with what is half done at it and with what went in and came out.

`Queue.push` and `Queue.poll` do in one piece what their moves do one after the other (`act_push`,
`act_poll`), so what every move keeps is kept by every run of moves, pushes and polls
(`invariant_of_run`).  Two things are kept:

* the books (`Booked`): what went in is what was removed and what was not, and the latter comes out
  in the order in which it went in;
* the wake-up (`Alert`): while a request is queued, a take that waits has a notice to come, and one
  that is about to wait has a permit, or a notice to come.

`Dependable` is what users of the queue have from both.
-/

namespace Modbus

@[simp] lemma Signal.waiter_withdraw (signal : Signal) : signal.withdraw.waiter = .absent := by
  rw [withdraw]
  split <;> rfl

namespace Queue

/-- The request that is queued under a ticket. -/
def find? (queue : Queue) (ticket : Nat) : Option Queued :=
  queue.items.find? fun item => item.ticket == ticket

/-! ## Moves -/

/-- **One step at a queue** that nothing comes between. -/
inductive Move where
  /-- A push draws its ticket. -/
  | draw
  /-- A push puts its request in, if the queue is not closed. -/
  | place (item : Queued)
  /-- A push that has put its request in gives notice. -/
  | notify
  /-- A poll looks for a request, if the take is not waiting. -/
  | look
  /-- A poll that has found nothing begins to wait. -/
  | wait
  /-- The take is given up. -/
  | withdraw
  | remove (ticket : Nat)
  | close

/-- **What is done to a queue**: one move, or a push or a poll in one piece. -/
inductive Action where
  | move (move : Move)
  | push (call : Nat) (request : Bytes) (complete : Bytes → Bool)
  | poll

/-- Whether it leaves a push half done. -/
def Action.isPlacing : Action → Bool
  | .move (.place _) => true
  | _ => false

/-- **A queue in use.** -/
structure Traffic where
  queue : Queue := {}
  /-- The tickets of pushes that have not put their request in. -/
  drawn : List Nat := []
  /-- How many pushes have put their request in and not given notice. -/
  unannounced : Nat := 0
  /-- A poll has found nothing and is about to wait. -/
  looked : Bool := false
  /-- What was put in, in order. -/
  entered : List Queued := []
  /-- What polls handed out, in order. -/
  taken : List Queued := []
  removed : List Queued := []
  /-- What the closing of the queue handed back. -/
  returned : List Queued := []

namespace Traffic

variable {t : Traffic}

/-- **A queue after a move**; one that is not possible changes nothing. -/
def move (t : Traffic) : Move → Traffic
  | .draw => { t with
      queue := { t.queue with nextTicket := t.queue.nextTicket + 1 }
      drawn := t.queue.nextTicket :: t.drawn }
  | .place item =>
    if item.ticket ∈ t.drawn then
      if t.queue.closed then { t with drawn := t.drawn.erase item.ticket }
      else { t with
        queue := { t.queue with items := t.queue.items ++ [item] }
        drawn := t.drawn.erase item.ticket
        unannounced := t.unannounced + 1
        entered := t.entered ++ [item] }
    else t
  | .notify =>
    match t.unannounced with
    | 0 => t
    | left + 1 => { t with
      queue := { t.queue with signal := t.queue.signal.notify }
      unannounced := left }
  | .look =>
    if t.looked || t.queue.signal.waiter == .waiting then t
    else
      match t.queue.items with
      | item :: rest => { t with
        queue := { t.queue with items := rest, signal := t.queue.signal.resume }
        taken := t.taken ++ [item] }
      | [] => { t with
        queue := { t.queue with signal := t.queue.signal.resume }
        looked := true }
  | .wait =>
    if t.looked then
      { t with queue := { t.queue with signal := t.queue.signal.await }, looked := false }
    else t
  | .withdraw => if t.looked then t else { t with queue := t.queue.withdraw }
  | .remove ticket => { t with
    queue := t.queue.remove ticket
    removed := t.removed ++ (t.queue.find? ticket).toList }
  | .close => { t with
    queue := t.queue.close.2
    returned := t.returned ++ t.queue.close.1 }

/-- **A queue after an action.**  A take is polled by one task, so a poll in one piece is not made
while another is half done. -/
def act (t : Traffic) : Action → Traffic
  | .move move => t.move move
  | .push call request complete =>
    let (ticket?, queue) := t.queue.push call request complete
    { t with
      queue
      entered := t.entered
        ++ (ticket?.map fun ticket => ⟨ticket, call, request, complete⟩).toList }
  | .poll =>
    if t.looked then t
    else
      let (item?, queue) := t.queue.poll
      { t with queue, taken := t.taken ++ item?.toList }

def run (t : Traffic) (actions : List Action) : Traffic :=
  actions.foldl act t

/-! ## Pieces and wholes -/

/-- **A push is its moves one after the other**; a push that is refused gives no notice. -/
lemma act_push (t : Traffic) (call : Nat) (request : Bytes) (complete : Bytes → Bool) :
    let placed := (t.move .draw).move (.place ⟨t.queue.nextTicket, call, request, complete⟩)
    t.act (.push call request complete)
      = if t.queue.closed then placed else placed.move .notify := by
  cases hclosed : t.queue.closed <;> simp [act, move, Queue.push, hclosed]

/-- **A poll is its moves one after the other**: one look if there is a request, and otherwise two,
since a permit ends the first wait at once. -/
lemma act_poll (t : Traffic) :
    t.act .poll = t ∨ t.act .poll = t.move .look ∨
      t.act .poll = (((t.move .look).move .wait).move .look).move .wait := by
  cases hlooked : t.looked with
  | true => exact .inl (by simp [act, hlooked])
  | false =>
      by_cases hwaiter : t.queue.signal.waiter = .waiting
      · have hpoll : t.queue.poll = (none, t.queue) := by rw [poll, hwaiter]
        refine .inl ?_
        simp only [act, hlooked, hpoll, Option.toList_none, List.append_nil, Bool.false_eq_true,
          if_false]
        rw [← hlooked]
      · cases hitems : t.queue.items with
        | cons item rest =>
            refine .inr (.inl ?_)
            simp [act, move, hlooked, hwaiter, hitems, poll_cons t.queue hwaiter hitems]
        | nil =>
            refine .inr (.inr ?_)
            cases hpermit : t.queue.signal.permit <;>
              simp [act, move, hlooked, hwaiter, hitems, poll_nil t.queue hwaiter hitems,
                Signal.resume, Signal.await, hpermit]

/-- **Everything that a move can do.** -/
inductive Turn : Traffic → Move → Traffic → Prop where
  /-- Nothing, as it is not possible now. -/
  | rest {t : Traffic} {move : Move} : Turn t move t
  | draw {t : Traffic} : Turn t .draw { t with
      queue := { t.queue with nextTicket := t.queue.nextTicket + 1 }
      drawn := t.queue.nextTicket :: t.drawn }
  | refuse {t : Traffic} {item : Queued} : Turn t (.place item) { t with
      drawn := t.drawn.erase item.ticket }
  | place {t : Traffic} {item : Queued} (hdrawn : item.ticket ∈ t.drawn)
      (hopen : t.queue.closed = false) : Turn t (.place item) { t with
        queue := { t.queue with items := t.queue.items ++ [item] }
        drawn := t.drawn.erase item.ticket
        unannounced := t.unannounced + 1
        entered := t.entered ++ [item] }
  | notify {t : Traffic} {left : Nat} (hleft : t.unannounced = left + 1) : Turn t .notify { t with
      queue := { t.queue with signal := t.queue.signal.notify }
      unannounced := left }
  /-- A poll hands out the oldest request. -/
  | take {t : Traffic} {item : Queued} {rest : List Queued} (hlooked : t.looked = false)
      (hitems : t.queue.items = item :: rest) : Turn t .look { t with
        queue := { t.queue with items := rest, signal := t.queue.signal.resume }
        taken := t.taken ++ [item] }
  /-- A poll finds nothing. -/
  | miss {t : Traffic} (hitems : t.queue.items = []) : Turn t .look { t with
      queue := { t.queue with signal := t.queue.signal.resume }
      looked := true }
  | wait {t : Traffic} (hlooked : t.looked = true) : Turn t .wait { t with
      queue := { t.queue with signal := t.queue.signal.await }
      looked := false }
  | withdraw {t : Traffic} (hlooked : t.looked = false) : Turn t .withdraw { t with
      queue := t.queue.withdraw }
  | remove {t : Traffic} {ticket : Nat} : Turn t (.remove ticket) (t.move (.remove ticket))
  | close {t : Traffic} : Turn t .close { t with
      queue := { t.queue with items := [], closed := true }
      returned := t.returned ++ t.queue.items }

lemma turn_of_move (t : Traffic) (move : Move) : Turn t move (t.move move) := by
  cases move with
  | draw => exact .draw
  | place item =>
      simp only [Traffic.move]
      split_ifs with hdrawn hclosed
      · exact .refuse
      · exact .place hdrawn (Bool.eq_false_iff.mpr hclosed)
      · exact .rest
  | notify =>
      simp only [Traffic.move]
      split
      · exact .rest
      · rename_i left hleft
        exact .notify hleft
  | look =>
      simp only [Traffic.move]
      split_ifs with hbusy
      · exact .rest
      · have hlooked : t.looked = false :=
          Bool.eq_false_iff.mpr fun hlooked => hbusy (by rw [hlooked, Bool.true_or])
        split
        · rename_i item rest hitems
          exact .take hlooked hitems
        · rename_i hitems
          exact .miss hitems
  | wait =>
      simp only [Traffic.move]
      split_ifs with hlooked
      · exact .wait hlooked
      · exact .rest
  | withdraw =>
      simp only [Traffic.move]
      split_ifs with hlooked
      · exact .rest
      · exact .withdraw (Bool.eq_false_iff.mpr hlooked)
  | remove ticket => exact .remove
  | close => exact .close

/-- **What every turn keeps is kept by every run.** -/
lemma invariant_of_run {P : Traffic → Prop}
    (hturn : ∀ {t t' : Traffic} {move : Move}, P t → Turn t move t' → P t') (t : Traffic) (h : P t)
    (actions : List Action) : P (t.run actions) := by
  have hmove {t : Traffic} (h : P t) (move : Move) : P (t.move move) :=
    hturn h (turn_of_move t move)
  have hact {t : Traffic} (h : P t) (action : Action) : P (t.act action) := by
    cases action with
    | move move => exact hmove h move
    | push call request complete =>
        have hplaced := hmove (hmove h .draw) (.place ⟨t.queue.nextTicket, call, request, complete⟩)
        rw [act_push]
        split
        · exact hplaced
        · exact hmove hplaced .notify
    | poll =>
        rcases act_poll t with hpoll | hpoll | hpoll <;> rw [hpoll]
        · exact h
        · exact hmove h .look
        · exact hmove (hmove (hmove (hmove h .look) .wait) .look) .wait
  induction actions generalizing t with
  | nil => exact h
  | cons action rest ih => exact ih _ (hact h action)

/-! ## The books -/

/-- **What was not removed**, in the order in which it leaves the queue. -/
def kept (t : Traffic) : List Queued :=
  t.taken ++ t.returned ++ t.queue.items

/-- **The books of a queue.** -/
structure Booked (t : Traffic) : Prop where
  /-- A ticket is given to one request. -/
  tickets : (t.drawn ++ t.entered.map Queued.ticket).Nodup
  bound : ∀ ticket ∈ t.drawn ++ t.entered.map Queued.ticket, ticket < t.queue.nextTicket
  conserved : t.entered.Perm (t.removed ++ t.kept)
  order : (t.entered.filter fun item => item.ticket ∉ t.removed.map Queued.ticket) = t.kept
  /-- Only the closing hands requests back, and none comes after it. -/
  opened : t.queue.closed = false → t.returned = []
  closed : t.queue.closed = true → t.queue.items = []

/-- Among requests of different tickets one alone has its ticket. -/
lemma filter_ticket_ne {before after : List Queued} {item : Queued}
    (h : ((before ++ item :: after).map Queued.ticket).Nodup) :
    ((before ++ item :: after).filter fun other => other.ticket != item.ticket)
      = before ++ after := by
  rw [(List.perm_middle.map Queued.ticket).nodup_iff, List.map_cons, List.nodup_cons] at h
  have hother : ∀ other ∈ before ++ after, (other.ticket != item.ticket) = true := by
    intro other hin
    rw [bne_iff_ne]
    exact fun hsame => h.1 (hsame ▸ List.mem_map_of_mem hin)
  rw [List.filter_append, List.filter_cons_of_neg (by simp), ← List.filter_append,
    List.filter_eq_self.mpr hother]

/-- **A ticket that is not queued removes nothing.** -/
lemma move_remove_of_absent {ticket : Nat} (h : ∀ item ∈ t.queue.items, item.ticket ≠ ticket) :
    t.move (.remove ticket) = t := by
  have hfind : t.queue.find? ticket = none :=
    List.find?_eq_none.mpr fun item hitem => by simpa using h item hitem
  have hitems : (t.queue.items.filter fun item => item.ticket != ticket) = t.queue.items :=
    List.filter_eq_self.mpr fun item hitem => by simpa using h item hitem
  simp only [move, hfind, Queue.remove, hitems, Option.toList_none, List.append_nil]

/-- **A ticket removes the request that is queued under it**, and no other. -/
lemma move_remove_of_queued {before after : List Queued} {item : Queued}
    (hitems : t.queue.items = before ++ item :: after)
    (htickets : (t.queue.items.map Queued.ticket).Nodup) :
    t.move (.remove item.ticket) = { t with
      queue := { t.queue with items := before ++ after }, removed := t.removed ++ [item] } := by
  rw [hitems] at htickets
  have hbefore : before.find? (fun other => other.ticket == item.ticket) = none := by
    rw [List.find?_eq_none]
    intro other hin
    rw [List.map_append, List.nodup_append] at htickets
    simpa using htickets.2.2 _ (List.mem_map_of_mem hin) item.ticket (by simp)
  have hfind : t.queue.find? item.ticket = some item := by
    rw [find?, hitems, List.find?_append, hbefore]
    simp
  simp only [move, hfind, Queue.remove, hitems, filter_ticket_ne htickets, Option.toList_some]

namespace Booked

lemma kept_tickets (h : Booked t) : (t.kept.map Queued.ticket).Nodup := by
  rw [← h.order]
  exact h.tickets.of_append_right.sublist (List.filter_sublist.map _)

lemma items_tickets (h : Booked t) : (t.queue.items.map Queued.ticket).Nodup :=
  h.kept_tickets.sublist ((List.sublist_append_right _ _).map _)

/-- What is queued was not handed back by a closing. -/
lemma returned_of_queued (h : Booked t) (hqueued : t.queue.items ≠ []) : t.returned = [] := by
  refine h.opened (Bool.eq_false_iff.mpr fun hclosed => ?_)
  exact hqueued (h.closed hclosed)

lemma of_draw (h : Booked t) : Booked (t.move .draw) := by
  have hfresh : t.queue.nextTicket ∉ t.drawn ++ t.entered.map Queued.ticket :=
    fun hin => Nat.lt_irrefl _ (h.bound _ hin)
  refine ⟨List.nodup_cons.mpr ⟨hfresh, h.tickets⟩, ?_, h.conserved, h.order, h.opened, h.closed⟩
  intro ticket hin
  rcases List.mem_cons.mp hin with rfl | hbefore
  · exact Nat.lt_succ_self _
  · exact Nat.lt_succ_of_lt (h.bound ticket hbefore)

/-- **A request put in** is the last of those that are kept. -/
lemma of_place (h : Booked t) {item : Queued} {unannounced : Nat}
    (hdrawn : item.ticket ∈ t.drawn) (hopen : t.queue.closed = false) :
    Booked { t with
      queue := { t.queue with items := t.queue.items ++ [item] }
      drawn := t.drawn.erase item.ticket
      unannounced
      entered := t.entered ++ [item] } := by
  -- The ticket goes from those that were drawn to those of the requests.
  have hperm : (t.drawn.erase item.ticket ++ (t.entered ++ [item]).map Queued.ticket).Perm
      (t.drawn ++ t.entered.map Queued.ticket) := by
    rw [List.map_append, List.map_singleton, ← List.append_assoc]
    exact (List.perm_append_singleton _ _).trans
      ((List.perm_cons_erase hdrawn).symm.append_right _)
  have hnew : item.ticket ∉ t.removed.map Queued.ticket := by
    intro hremoved
    obtain ⟨other, hother, hsame⟩ := List.mem_map.mp hremoved
    have hentered := h.conserved.mem_iff.mpr (List.mem_append_left _ hother)
    exact (List.nodup_append.mp h.tickets).2.2 _ hdrawn _ (List.mem_map_of_mem hentered) hsame.symm
  have hkept : t.taken ++ t.returned ++ (t.queue.items ++ [item]) = t.kept ++ [item] :=
    (List.append_assoc ..).symm
  refine ⟨hperm.nodup_iff.mpr h.tickets, fun ticket hin => h.bound ticket (hperm.subset hin),
    ?_, ?_, h.opened, fun hclosed => nomatch hopen.symm.trans hclosed⟩
  · rw [kept, hkept, ← List.append_assoc]
    exact h.conserved.append_right _
  · rw [kept, hkept, List.filter_append, h.order, List.filter_cons_of_pos (by simpa using hnew),
      List.filter_nil]

lemma of_take (h : Booked t) {item : Queued} {rest : List Queued} {signal : Signal}
    (hitems : t.queue.items = item :: rest) :
    Booked { t with
      queue := { t.queue with items := rest, signal }, taken := t.taken ++ [item] } := by
  have hqueued : t.queue.items ≠ [] := by simp [hitems]
  have hkept : t.taken ++ [item] ++ t.returned ++ rest = t.kept := by
    simp [kept, h.returned_of_queued hqueued, hitems]
  refine ⟨h.tickets, h.bound, ?_, ?_, h.opened, fun hclosed => absurd (h.closed hclosed) hqueued⟩
  · rw [kept, hkept]
    exact h.conserved
  · rw [kept, hkept]
    exact h.order

/-- **A removal** leaves the others that are kept in their order. -/
lemma of_remove (h : Booked t) (ticket : Nat) : Booked (t.move (.remove ticket)) := by
  by_cases hqueued : ∃ item ∈ t.queue.items, item.ticket = ticket
  · obtain ⟨item, hitem, rfl⟩ := hqueued
    obtain ⟨before, after, hitems⟩ := List.append_of_mem hitem
    have hsplit : t.kept = t.taken ++ t.returned ++ before ++ item :: after := by
      rw [kept, hitems, ← List.append_assoc]
    have hkept : t.taken ++ t.returned ++ (before ++ after)
        = t.taken ++ t.returned ++ before ++ after := (List.append_assoc ..).symm
    have htickets := h.kept_tickets
    rw [hsplit] at htickets
    rw [move_remove_of_queued hitems h.items_tickets]
    refine ⟨h.tickets, h.bound, ?_, ?_, h.opened, fun hclosed => ?_⟩
    · have hmoved : (t.removed ++ t.kept).Perm
          (t.removed ++ item :: (t.taken ++ t.returned ++ before ++ after)) := by
        rw [hsplit]
        exact List.perm_middle.append_left _
      rw [kept, hkept, List.append_assoc]
      exact h.conserved.trans hmoved
    · have hboth : (t.entered.filter fun other =>
            other.ticket ∉ (t.removed ++ [item]).map Queued.ticket)
          = (t.entered.filter fun other => other.ticket ∉ t.removed.map Queued.ticket).filter
            fun other => other.ticket != item.ticket := by
        rw [List.filter_filter]
        refine List.filter_congr fun other _ => ?_
        rw [Bool.eq_iff_iff]
        simp [and_comm]
      rw [kept, hkept, hboth, h.order, hsplit, filter_ticket_ne htickets]
    · simp [h.closed hclosed] at hitems
  · rw [move_remove_of_absent fun item hitem hsame => hqueued ⟨item, hitem, hsame⟩]
    exact h

lemma of_close (h : Booked t) : Booked (t.move .close) := by
  have hkept : (t.move .close).kept = t.kept := by simp [move, kept, Queue.close]
  refine ⟨h.tickets, h.bound, ?_, ?_, fun hopen => ?_, fun _ => rfl⟩
  · rw [hkept]
    exact h.conserved
  · rw [hkept]
    exact h.order
  · simp [move, Queue.close] at hopen

/-- **Every turn keeps the books.** -/
lemma of_turn {t' : Traffic} {move : Move} (h : Booked t) (hturn : Turn t move t') :
    Booked t' := by
  cases hturn with
  | rest => exact h
  | draw => exact h.of_draw
  | @refuse item =>
      have hfewer := (List.erase_sublist (a := item.ticket) (l := t.drawn)).append_right
        (t.entered.map Queued.ticket)
      exact ⟨h.tickets.sublist hfewer, fun ticket hin => h.bound ticket (hfewer.subset hin),
        h.conserved, h.order, h.opened, h.closed⟩
  | place hdrawn hopen => exact h.of_place hdrawn hopen
  | take hlooked hitems => exact h.of_take hitems
  | remove => exact h.of_remove _
  | close => exact h.of_close
  | notify | miss | wait | withdraw =>
      exact ⟨h.tickets, h.bound, h.conserved, h.order, h.opened, h.closed⟩

lemma of_run (actions : List Action) : Booked (({} : Traffic).run actions) :=
  invariant_of_run of_turn {}
    ⟨List.nodup_nil, nofun, .refl _, rfl, fun _ => rfl, fun _ => rfl⟩ actions

end Booked

/-! ## The wake-up -/

/-- **No wake-up is lost.** -/
structure Alert (t : Traffic) : Prop where
  /-- Who is about to wait does not wait yet. -/
  absent : t.looked = true → t.queue.signal.waiter = .absent
  looked : t.looked = true → t.queue.items ≠ [] →
    t.queue.signal.permit = true ∨ 0 < t.unannounced
  waiting : t.queue.signal.waiter = .waiting → t.queue.items ≠ [] → 0 < t.unannounced

namespace Alert

/-- **Notice** wakes who waits, and is kept for who is about to wait. -/
lemma of_notify (h : Alert t) {unannounced : Nat} :
    Alert { t with queue := { t.queue with signal := t.queue.signal.notify }, unannounced } := by
  by_cases hwaiter : t.queue.signal.waiter = .waiting
  · have hlooked : t.looked ≠ true := fun hlooked => by simp [h.absent hlooked] at hwaiter
    refine ⟨fun hlater => absurd hlater hlooked, fun hlater => absurd hlater hlooked, ?_⟩
    simp [Signal.notify, hwaiter]
  · have hnotify : t.queue.signal.notify = { t.queue.signal with permit := true } := by
      simp only [Signal.notify]
    rw [hnotify]
    exact ⟨h.absent, fun _ _ => .inl rfl, fun hwaiting => absurd hwaiting hwaiter⟩

/-- **A permit ends the wait at once**, so who found nothing has missed nothing. -/
lemma of_wait (h : Alert t) (hlooked : t.looked = true) :
    Alert { t with queue := { t.queue with signal := t.queue.signal.await }, looked := false } := by
  refine ⟨nofun, nofun, fun hwaiting hqueued => ?_⟩
  rcases h.looked hlooked hqueued with hpermit | hnotice
  · simp [Signal.await, hpermit] at hwaiting
  · exact hnotice

lemma of_remove (h : Alert t) (ticket : Nat) : Alert (t.move (.remove ticket)) := by
  have hqueued : (t.move (.remove ticket)).queue.items ≠ [] → t.queue.items ≠ [] :=
    fun hleft hitems => hleft (by simp [move, Queue.remove, hitems])
  exact ⟨h.absent, fun hlooked hleft => h.looked hlooked (hqueued hleft),
    fun hwaiting hleft => h.waiting hwaiting (hqueued hleft)⟩

/-- **Every turn keeps the wake-up.** -/
lemma of_turn {t' : Traffic} {move : Move} (h : Alert t) (hturn : Turn t move t') : Alert t' := by
  cases hturn with
  | rest => exact h
  | draw => exact ⟨h.absent, h.looked, h.waiting⟩
  | refuse => exact ⟨h.absent, h.looked, h.waiting⟩
  | place => exact ⟨h.absent, fun _ _ => .inr (Nat.succ_pos _), fun _ _ => Nat.succ_pos _⟩
  | notify => exact h.of_notify
  | take hlooked =>
      exact ⟨fun _ => rfl, fun hlater => (nomatch hlooked.symm.trans hlater), nofun⟩
  | miss hitems => exact ⟨fun _ => rfl, fun _ hqueued => absurd hitems hqueued, nofun⟩
  | wait hlooked => exact h.of_wait hlooked
  | withdraw hlooked =>
      refine ⟨fun _ => Signal.waiter_withdraw _, fun hlater => (nomatch hlooked.symm.trans hlater),
        fun hwaiting => ?_⟩
      simp [Queue.withdraw] at hwaiting
  | remove => exact h.of_remove _
  | close => exact ⟨h.absent, fun _ hleft => absurd rfl hleft, fun _ hleft => absurd rfl hleft⟩

lemma of_run (actions : List Action) : Alert (({} : Traffic).run actions) :=
  invariant_of_run of_turn {} ⟨nofun, nofun, nofun⟩ actions

/-- **A take that is suspended while a request is queued** is woken, or a notice is to come. -/
lemma suspended (h : Alert t) (hsuspended : t.queue.signal.waiter ≠ .absent)
    (hqueued : t.queue.items ≠ []) : t.queue.signal.waiter = .woken ∨
      ∃ left, t.unannounced = left + 1 ∧ t.queue.signal.waiter = .waiting := by
  cases hwaiter : t.queue.signal.waiter with
  | absent => exact absurd hwaiter hsuspended
  | waiting =>
      obtain ⟨left, hleft⟩ := Nat.exists_eq_add_one.mpr (h.waiting hwaiter hqueued)
      exact .inr ⟨left, hleft, rfl⟩
  | woken => exact .inl rfl

end Alert

/-! ## Closed queues and half pushes -/

/-- **The queue is closed**, and nothing has gone in since `entered` did. -/
structure Shut (entered : List Queued) (t : Traffic) : Prop where
  closed : t.queue.closed = true
  items : t.queue.items = []
  entered : t.entered = entered

/-- **A closed queue stays closed and empty.** -/
lemma Shut.of_turn {t' : Traffic} {move : Move} {entered : List Queued} (h : Shut entered t)
    (hturn : Turn t move t') : Shut entered t' := by
  cases hturn with
  | rest => exact h
  | place hdrawn hopen => exact nomatch hopen.symm.trans h.closed
  | take hlooked hitems => simp [h.items] at hitems
  | remove => exact ⟨h.closed, by simp [Traffic.move, Queue.remove, h.items], h.entered⟩
  | close => exact ⟨rfl, rfl, h.entered⟩
  | draw | refuse | notify | miss | wait | withdraw => exact ⟨h.closed, h.items, h.entered⟩

/-- After the closing nothing goes in. -/
lemma shut_of_run (t : Traffic) (later : List Action) :
    Shut t.entered ((t.move .close).run later) :=
  invariant_of_run Shut.of_turn (t.move .close) ⟨rfl, rfl, rfl⟩ later

/-- Only a push that is left half done owes a notice. -/
lemma unannounced_act_le (t : Traffic) {action : Action} (h : action.isPlacing = false) :
    (t.act action).unannounced ≤ t.unannounced := by
  cases action with
  | push => exact Nat.le_refl _
  | poll =>
      simp only [act]
      split <;> exact Nat.le_refl _
  | move move =>
      have hturn := turn_of_move t move
      rw [act]
      generalize t.move move = t' at hturn
      cases hturn with
      | place => simp [Action.isPlacing] at h
      | notify hleft => exact hleft ▸ Nat.le_succ _
      | _ => exact Nat.le_refl _

lemma unannounced_run_le : ∀ (t : Traffic) {actions : List Action},
    (∀ action ∈ actions, action.isPlacing = false) →
      (t.run actions).unannounced ≤ t.unannounced
  | _, [], _ => Nat.le_refl _
  | t, _ :: _, h =>
      (unannounced_run_le _ (List.forall_mem_cons.mp h).2).trans
        (unannounced_act_le t (List.forall_mem_cons.mp h).1)

/-! ## What users have -/

/-- **What a queue promises** after any actions in any order. -/
structure Dependable (actions : List Action) (t : Traffic) : Prop where
  /-- No two requests are put in under one ticket. -/
  tickets : (t.entered.map Queued.ticket).Nodup
  /-- Every request that was put in came out once, by a poll, by a removal or by the closing, or is
  queued still, and nothing else came out. -/
  conserved : (t.taken ++ t.removed ++ t.returned ++ t.queue.items).Perm t.entered
  /-- But for those removed, requests come out in the order in which they were put in: first those
  that polls handed out, then those handed back or queued still. -/
  order : (t.entered.filter fun item => item.ticket ∉ t.removed.map Queued.ticket)
    = t.taken ++ t.returned ++ t.queue.items
  /-- A poll hands out the oldest request, unless the take waits. -/
  takes : t.looked = false → t.queue.signal.waiter ≠ .waiting →
    (t.act .poll).taken = t.taken ++ t.queue.items.head?.toList
  /-- A ticket removes the request that is queued under it, and no other. -/
  removes : ∀ before item after, t.queue.items = before ++ item :: after →
    t.move (.remove item.ticket) = { t with
      queue := { t.queue with items := before ++ after }, removed := t.removed ++ [item] }
  /-- A ticket that is not queued changes nothing. -/
  unqueued : ∀ ticket, (∀ item ∈ t.queue.items, item.ticket ≠ ticket) →
    t.move (.remove ticket) = t
  /-- The closing hands back what is queued, and from then on the queue is empty and every push
  fails, one that is half done included. -/
  closes : (t.move .close).returned = t.returned ++ t.queue.items ∧ ∀ later,
    let after := (t.move .close).run later
    after.queue.items = [] ∧ after.entered = t.entered ∧
      ∀ call request complete, (after.queue.push call request complete).1 = none
  /-- While a take is suspended and a request is queued, a wake-up is pending: the take is woken,
  and looks when it is polled next, or a push is about to give notice, which wakes it. -/
  wakes : t.queue.signal.waiter ≠ .absent → t.queue.items ≠ [] → t.looked = false ∧
    (t.queue.signal.waiter = .woken ∨
      0 < t.unannounced ∧ (t.move .notify).queue.signal.waiter = .woken)
  /-- Where every push was made in one piece, it is woken. -/
  woken : (∀ action ∈ actions, action.isPlacing = false) → t.queue.signal.waiter ≠ .absent →
    t.queue.items ≠ [] → t.queue.signal.waiter = .woken

/-- **In every run, with the moves of pushes and polls in any order, a queue loses no request and no
wake-up.** -/
theorem dependable_of_run (actions : List Action) :
    Dependable actions (({} : Traffic).run actions) := by
  have hbooked : Booked (({} : Traffic).run actions) := .of_run actions
  have halert : Alert (({} : Traffic).run actions) := .of_run actions
  have hwhole : (∀ action ∈ actions, action.isPlacing = false) →
      (({} : Traffic).run actions).unannounced = 0 :=
    fun hwhole => Nat.le_zero.mp (unannounced_run_le {} hwhole)
  generalize ({} : Traffic).run actions = t at hbooked halert hwhole ⊢
  refine ⟨hbooked.tickets.of_append_right, ?_, hbooked.order, fun hlooked hwaiter => ?_,
    fun before item after hitems => move_remove_of_queued hitems hbooked.items_tickets,
    fun ticket habsent => move_remove_of_absent habsent, ⟨rfl, fun later => ?_⟩,
    fun hsuspended hqueued => ⟨?_, ?_⟩, fun hpieces hsuspended hqueued => ?_⟩
  · have hsorted : (t.taken ++ t.removed ++ t.returned ++ t.queue.items).Perm
        (t.removed ++ t.kept) := by
      simp only [kept, List.append_assoc]
      exact List.perm_append_comm_assoc ..
    exact hsorted.trans hbooked.conserved.symm
  · cases hitems : t.queue.items with
    | nil => simp [act, hlooked, t.queue.poll_nil hwaiter hitems]
    | cons item rest => simp [act, hlooked, t.queue.poll_cons hwaiter hitems]
  · have hshut := shut_of_run t later
    exact ⟨hshut.items, hshut.entered, fun call request complete => by simp [push, hshut.closed]⟩
  · exact Bool.eq_false_iff.mpr fun hlooked => hsuspended (halert.absent hlooked)
  · rcases halert.suspended hsuspended hqueued with hwoken | ⟨left, hleft, hwaiting⟩
    · exact .inl hwoken
    · exact .inr ⟨hleft ▸ Nat.succ_pos left, by simp [move, hleft, Signal.notify, hwaiting]⟩
  · rcases halert.suspended hsuspended hqueued with hwoken | ⟨left, hleft, -⟩
    · exact hwoken
    · simp [hwhole hpieces] at hleft

/-- A push comes between the two moves of a poll.  Its notice is kept, and the next poll hands the
request out. -/
example :
    let t := ({} : Traffic).run [.move .look, .push 0 [0x0A] fun _ => true, .move .wait]
    t.queue.signal = ⟨false, .woken⟩ ∧ (t.act .poll).taken.map Queued.request = [[0x0A]] := by
  decide

/-- A poll comes between the moves of a push.  The take waits while a request is queued, until the
push gives notice. -/
example :
    let t := ({} : Traffic).run
      [.poll, .move .draw, .move (.place ⟨0, 0, [0x0A], fun _ => true⟩), .poll]
    t.queue.items.length = 1 ∧ t.queue.signal.waiter = .waiting ∧ t.unannounced = 1 ∧
      (t.move .notify).queue.signal.waiter = .woken := by
  decide

end Traffic

end Queue

end Modbus
