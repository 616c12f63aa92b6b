import Mathlib.Data.List.Chain
import Mathlib.Data.List.Permutation
import Modbus.Proofs.Connection.Order
import Modbus.Proofs.Connection.Replies

/-!
# Bytes left over on the link

A link is read until a reply is whole, and a peer may have answered with more.  What becomes of the
rest depends on how the exchange ended.  After an error the link is closed and nothing is left.
After a reply the link stays open with the rest on it, and the next request on the same link finds
it there: its reply begins with bytes that answered another request.

`Sending.all` is what can be read for a request, the bytes left over when it was sent and then the
ones that answer it.  Every reply is a beginning of that (`Leftover.replies`), and what is left over
when a request is sent is what the exchange before it, one that gave a reply, did not read
(`Leftover.chain`).  So `stale_iff_left` gives the exact condition under which a reply is made of the
peer's answer to its own request alone.
-/

namespace Modbus.Connection

variable {σ α : Type}

/-- **All bytes that can be read for a request**, the ones left over first. -/
def Sending.all (sending : Sending) : Bytes :=
  sending.left.flatten ++ sending.own.flatten

/-- The last request sent is being read: `received` is the beginning of what can be read for it, and
what is on the link is the rest. -/
structure Reading (sent : List Sending) (view : View σ α) (item : Queued) (received : Bytes) :
    Prop where
  last : ∃ before sending, sent = before ++ [sending] ∧ sending.item = item ∧
    received <+: sending.all ∧
    (view.connected = true → received ++ view.arriving.flatten = sending.all)

/-- The reply to the last request sent is whole: the worker has read just as much as it took to
complete it. -/
structure Taken (sent : List Sending) (view : View σ α) (item : Queued) (bytes : Bytes) : Prop where
  some : bytes ≠ []
  complete : item.complete bytes = true
  reading : Reading sent view item bytes

/-- Between two exchanges: nothing is left over, or what a reply to the last request sent has left. -/
def Settled (sent : List Sending) (view : View σ α) : Prop :=
  view.arriving.flatten = [] ∨ ∃ before sending bytes, sent = before ++ [sending] ∧
    Occurrence.delivered sending.item.ticket (.ok bytes) ∈ view.ledger ∧
    bytes ++ view.arriving.flatten = sending.all

/-- What the phase of the worker says about the bytes on the link. -/
def Accounted (sent : List Sending) (view : View σ α) : Phase → Prop
  | .idle => Settled sent view
  | .holding _ => Settled sent view
  | .reading item received => Reading sent view item received
  | .ended item (.ok bytes) => Taken sent view item bytes
  | .ended _ (.error _) => True
  | .delivering item (.ok bytes) => Taken sent view item bytes
  | .delivering _ (.error _) => Settled sent view

/-- What a request finds on the link is nothing, or what the reply before it has left. -/
def Follows (ledger : List Occurrence) (before after : Sending) : Prop :=
  after.left.flatten = [] ∨ ∃ bytes,
    Occurrence.delivered before.item.ticket (.ok bytes) ∈ ledger ∧
      bytes ++ after.left.flatten = before.all

/-- **Every byte is accounted for.** -/
structure Leftover (past : List (Label α)) (view : View σ α) : Prop where
  phase : Accounted (past.filterMap Label.sent?) view view.phase
  replies : ∀ ticket bytes, Replied view ticket bytes →
    ∃ sending ∈ past.filterMap Label.sent?, sending.item.ticket = ticket ∧ bytes ≠ [] ∧
      sending.item.complete bytes = true ∧ bytes <+: sending.all
  first : ∀ sending, (past.filterMap Label.sent?).head? = some sending → sending.left.flatten = []
  chain : (past.filterMap Label.sent?).IsChain (Follows view.ledger)

lemma Settled.mono {sent : List Sending} {v v' : View σ α} (h : Settled sent v)
    (harriving : v'.arriving = v.arriving) (hledger : v.ledger ⊆ v'.ledger) : Settled sent v' := by
  rcases h with hnone | ⟨before, sending, bytes, hsent, hdelivered, hall⟩
  · exact .inl (harriving ▸ hnone)
  · exact .inr ⟨before, sending, bytes, hsent, hledger hdelivered, harriving ▸ hall⟩

lemma Settled.of_empty {sent : List Sending} {v : View σ α} (h : v.arriving = []) :
    Settled sent v :=
  .inl (by rw [h]; rfl)

lemma Reading.mono {sent : List Sending} {v v' : View σ α} {item : Queued} {received : Bytes}
    (h : Reading sent v item received) (harriving : v'.arriving = v.arriving)
    (hconnected : v'.connected = v.connected) : Reading sent v' item received := by
  obtain ⟨before, sending, hsent, hitem, hpart, hall⟩ := h
  exact ⟨before, sending, hsent, hitem, hpart, by rw [harriving, hconnected]; exact hall⟩

/-- A closed link has nothing more to read. -/
lemma Reading.of_closed {sent : List Sending} {v v' : View σ α} {item : Queued} {received : Bytes}
    (h : Reading sent v item received) (hclosed : v'.connected = false) :
    Reading sent v' item received := by
  obtain ⟨before, sending, hsent, hitem, hpart, -⟩ := h
  exact ⟨before, sending, hsent, hitem, hpart, fun hopen => by simp [hclosed] at hopen⟩

lemma Taken.mono {sent : List Sending} {v v' : View σ α} {item : Queued} {bytes : Bytes}
    (h : Taken sent v item bytes) (harriving : v'.arriving = v.arriving)
    (hconnected : v'.connected = v.connected) : Taken sent v' item bytes :=
  ⟨h.some, h.complete, h.reading.mono harriving hconnected⟩

lemma Taken.of_closed {sent : List Sending} {v v' : View σ α} {item : Queued} {bytes : Bytes}
    (h : Taken sent v item bytes) (hclosed : v'.connected = false) : Taken sent v' item bytes :=
  ⟨h.some, h.complete, h.reading.of_closed hclosed⟩

lemma Accounted.mono {sent : List Sending} {v v' : View σ α} {phase : Phase}
    (h : Accounted sent v phase) (harriving : v'.arriving = v.arriving)
    (hconnected : v'.connected = v.connected) (hledger : v.ledger ⊆ v'.ledger) :
    Accounted sent v' phase := by
  cases phase with
  | idle => exact Settled.mono h harriving hledger
  | holding item => exact Settled.mono h harriving hledger
  | reading item received => exact Reading.mono h harriving hconnected
  | ended item result =>
      cases result with
      | ok bytes => exact Taken.mono h harriving hconnected
      | error error => exact trivial
  | delivering item result =>
      cases result with
      | ok bytes => exact Taken.mono h harriving hconnected
      | error error => exact Settled.mono h harriving hledger

lemma Accounted.of_unlink {sent : List Sending} {v : View σ α} {phase : Phase}
    (h : Accounted sent v phase) :
    Accounted sent { v with connected := false, arriving := [] } phase := by
  cases phase with
  | idle => exact .of_empty rfl
  | holding item => exact .of_empty rfl
  | reading item received => exact Reading.of_closed h rfl
  | ended item result =>
      cases result with
      | ok bytes => exact Taken.of_closed h rfl
      | error error => exact trivial
  | delivering item result =>
      cases result with
      | ok bytes => exact Taken.of_closed h rfl
      | error error => exact .of_empty rfl

lemma Follows.mono {ledger ledger' : List Occurrence} (hledger : ledger ⊆ ledger')
    {before after : Sending} (h : Follows ledger before after) : Follows ledger' before after := by
  rcases h with hnone | ⟨bytes, hdelivered, hall⟩
  · exact .inl hnone
  · exact .inr ⟨bytes, hledger hdelivered, hall⟩

/-! ## What a move does to the bytes -/

section

variable [Peer σ] {past : List (Label α)} {v v' : View σ α} {label : Label α}

/-- **A move that sends nothing** keeps the bytes accounted for. -/
lemma accounted_of_silent {sent : List Sending} (h : Accounted sent v v.phase) (htidy : v.Tidy)
    (hmove : Move v label v') (hsilent : label.sent? = none) : Accounted sent v' v'.phase := by
  cases hmove with
  | send _ _ => simp [Label.sent?] at hsilent
  | take hphase _ =>
      rw [hphase] at h
      exact Settled.mono h rfl (List.Subset.refl _)
  | withdraw hphase =>
      rw [hphase] at h
      exact Settled.mono h rfl (List.Subset.refl _)
  | attempt hphase harriving _ =>
      rw [hphase] at h
      simp only [hphase]
      rcases harriving with rfl | rfl
      · exact Settled.mono h rfl (List.Subset.refl _)
      · exact Settled.of_empty rfl
  | fail _ _ _ => exact trivial
  | @read item received chunk later hphase hopen hchunk harriving _ =>
      rw [hphase] at h
      obtain ⟨before, sending, hsent, hitem, -, hall⟩ := h
      have hall := hall hopen
      rw [← harriving, ← List.append_assoc] at hall
      have hread (view : View σ α) (hview : view.arriving = later) :
          Reading sent view item (received ++ chunk) :=
        ⟨before, sending, hsent, hitem, ⟨later.flatten, hall⟩, fun _ => by rw [hview]; exact hall⟩
      simp only
      split_ifs with hcomplete
      · exact ⟨by simp [hchunk], hcomplete, hread _ rfl⟩
      · exact hread _ rfl
  | conclude hphase =>
      rw [hphase] at h
      exact Taken.mono h rfl rfl
  | abort _ => exact Settled.of_empty rfl
  | @deliver item result hphase =>
      rw [hphase] at h
      cases result with
      | error error => exact Settled.mono h rfl (by simp)
      | ok bytes =>
          obtain ⟨-, -, before, sending, hsent, hitem, -, hall⟩ := h
          cases hconnected : v.connected with
          | false => exact Settled.of_empty (htidy.closed hconnected)
          | true =>
              exact .inr ⟨before, sending, bytes, hsent, by simp [hitem], hall hconnected⟩
  | unlink => exact h.of_unlink
  | rest => exact h
  | refuseQueued => exact h.mono rfl rfl (List.Subset.refl _)
  | start _ => exact h.mono rfl rfl (List.Subset.refl _)
  | finish _ => exact h.mono rfl rfl (List.Subset.refl _)
  | frame _ _ => exact h.mono rfl rfl (List.Subset.refl _)
  | refuse _ _ => exact h.mono rfl rfl (List.Subset.refl _)
  | accept _ => exact h.mono rfl rfl (by simp)
  | leave _ _ _ => exact h.mono rfl rfl (by simp)
  | drop _ => exact h.mono rfl rfl (List.Subset.refl _)

/-- **What a request finds** when it is sent, and what can be read for it from then on. -/
lemma settled_of_sent {sent : List Sending} {sending : Sending} (h : Accounted sent v v.phase)
    (hmove : Move v (.sent sending) v') :
    Settled sent v ∧ sending.left = v.arriving ∧
      v'.phase = .reading sending.item [] ∧ v'.arriving = sending.left ++ sending.own := by
  cases hmove with
  | send hphase hopen =>
      rw [hphase] at h
      exact ⟨h, rfl, rfl, rfl⟩

namespace Leftover

lemma replies_of_move (h : Leftover past v) (hmove : Move v label v') {ticket : Nat}
    {bytes : Bytes} (hreplied : Replied v' ticket bytes) :
    ∃ sending ∈ past.filterMap Label.sent?, sending.item.ticket = ticket ∧ bytes ≠ [] ∧
      sending.item.complete bytes = true ∧ bytes <+: sending.all := by
  rcases hmove.replied hreplied with hbefore | ⟨item, hphase, hticket⟩
  · exact h.replies ticket bytes hbefore
  · have hread := h.phase
    rw [hphase] at hread
    obtain ⟨hsome, hcomplete, before, sending, hsent, hitem, hpart, -⟩ := hread
    refine ⟨sending, ?_, hitem ▸ hticket, hsome, hitem ▸ hcomplete, hpart⟩
    rw [hsent]
    exact List.mem_append_right _ (List.mem_singleton_self _)

lemma of_silent (h : Leftover past v) (htidy : v.Tidy) (hmove : Move v label v')
    (hsilent : label.sent? = none) : Leftover (past ++ [label]) v' := by
  have hsent : (past ++ [label]).filterMap Label.sent? = past.filterMap Label.sent? := by
    simp [hsilent]
  refine ⟨?_, ?_, ?_, ?_⟩
  · rw [hsent]
    exact accounted_of_silent h.phase htidy hmove hsilent
  · rw [hsent]
    exact fun _ _ => h.replies_of_move hmove
  · rw [hsent]
    exact h.first
  · rw [hsent]
    exact h.chain.imp fun _ _ => Follows.mono hmove.ledger

lemma of_sent {sending : Sending} (h : Leftover past v) (hmove : Move v (.sent sending) v') :
    Leftover (past ++ [.sent sending]) v' := by
  have hsent : (past ++ [Label.sent sending]).filterMap Label.sent?
      = past.filterMap Label.sent? ++ [sending] := by
    simp [Label.sent?]
  obtain ⟨hsettled, hleft, hreading, harriving⟩ := settled_of_sent h.phase hmove
  refine ⟨?_, ?_, ?_, ?_⟩
  · rw [hsent, hreading]
    refine ⟨_, sending, rfl, rfl, List.nil_prefix, fun _ => ?_⟩
    rw [harriving, List.flatten_append]
    rfl
  · rw [hsent]
    intro ticket bytes hreplied
    obtain ⟨other, hother, hreply⟩ := h.replies_of_move hmove hreplied
    exact ⟨other, List.mem_append_left _ hother, hreply⟩
  · rw [hsent]
    intro first hfirst
    cases hpast : past.filterMap Label.sent? with
    | nil =>
        rw [hpast] at hfirst hsettled
        obtain rfl : sending = first := by simpa using hfirst
        rcases hsettled with hnone | ⟨before, last, bytes, hnil, -⟩
        · rw [hleft, hnone]
        · simp at hnil
    | cons head tail =>
        rw [hpast] at hfirst
        exact h.first first (by rw [hpast]; simpa using hfirst)
  · rw [hsent]
    refine (h.chain.imp fun _ _ => Follows.mono hmove.ledger).append (List.isChain_singleton _) ?_
    intro last hlast next hnext
    obtain rfl : sending = next := by simpa using hnext
    rcases hsettled with hnone | ⟨before, other, bytes, hbefore, hdelivered, hall⟩
    · exact .inl (by rw [hleft, hnone])
    · rw [hbefore, List.getLast?_concat] at hlast
      obtain rfl : other = last := by simpa using hlast
      exact .inr ⟨bytes, hmove.ledger hdelivered, hleft ▸ hall⟩

/-- **Every move keeps the bytes accounted for.** -/
lemma of_move (h : Leftover past v) (htidy : v.Tidy) (hmove : Move v label v') :
    Leftover (past ++ [label]) v' := by
  cases label with
  | sent sending => exact h.of_sent hmove
  | silent => exact h.of_silent htidy hmove rfl
  | started operation => exact h.of_silent htidy hmove rfl

end Leftover

end

/-! ## Every run -/

lemma leftover_of_run [Peer σ] (name : String) (timing : Timing) (framing : Framing)
    {wire : Wire σ} (hwire : wire.arriving = []) {actions : List (Action α)}
    (hpush : ∀ chunk, .push chunk ∉ actions) :
    Leftover ((create name timing framing wire).labels actions)
      ((create name timing framing wire).run actions).view := by
  refine invariant_of_run name timing framing hwire ⟨.of_empty hwire, ?_, ?_, ?_⟩
    (fun _ _ _ _ h htidy hmove => h.of_move htidy hmove) hpush
  · rintro ticket bytes (h | h | h) <;> simp [view, create, ledger] at h
  · intro sending h
    simp at h
  · exact .nil

/-- **A reply is made of the answer to its own request exactly when nothing was left over.**  For
every run of a connection, whatever its peer answers and whatever its callers do: the requests that
went out were sent once each, and each reply that a call gets is what was left over when its request
was sent, as far as the reply reaches, and then the peer's answer.  It has no byte of an earlier
answer if and only if nothing was left over.  Nothing is left over for the first request, nor after
an exchange that gave no reply, be it that it failed or was interrupted; after one that gave a reply
it is nothing, or all that the reply did not take. -/
theorem reply_own_iff_nothing_left [Peer σ] (name : String) (timing : Timing) (framing : Framing)
    (wire : Wire σ) (hwire : wire.arriving = []) (actions : List (Action α))
    (hpush : ∀ chunk, .push chunk ∉ actions) :
    let initial : Connection σ α := create name timing framing wire
    let history := ledger (initial.run actions).history
    let sent := initial.sendings actions
    frames history = sent.map (fun sending => sending.item.request) ∧
      sent.Pairwise (fun a b => a.item.ticket < b.item.ticket) ∧
      (∀ ticket bytes, .returned ticket (.ok bytes) ∈ history →
        ∃ sending ∈ sent, sending.item.ticket = ticket ∧
          bytes = sending.left.flatten.take bytes.length
            ++ sending.own.flatten.take (bytes.length - sending.left.flatten.length) ∧
          (sending.left.flatten.take bytes.length = [] ↔ sending.left.flatten = [])) ∧
      (∀ sending, sent.head? = some sending → sending.left.flatten = []) ∧
      sent.IsChain fun before after => after.left.flatten = [] ∨
        ∃ bytes, .delivered before.item.ticket (.ok bytes) ∈ history ∧
          bytes ++ after.left.flatten = before.left.flatten ++ before.own.flatten := by
  intro initial history sent
  have hordered := ordered_of_run name timing framing hwire hpush
  have hleftover := leftover_of_run name timing framing hwire hpush
  refine ⟨hordered.frames, hordered.tickets_lt, ?_, hleftover.first, hleftover.chain⟩
  intro ticket bytes hreturned
  obtain ⟨sending, hsending, hticket, hsome, -, hpart⟩ :=
    hleftover.replies ticket bytes (.returned hreturned)
  refine ⟨sending, hsending, hticket, ?_, ?_⟩
  · have htake := List.prefix_iff_eq_take.mp hpart
    rwa [Sending.all, List.take_append] at htake
  · rw [List.take_eq_nil_iff]
    constructor
    · rintro (hzero | hnone)
      · exact absurd (List.length_eq_zero_iff.mp hzero) hsome
      · exact hnone
    · exact .inr

/-- A peer that answers one byte in one chunk and a second one in another gives the second byte to
the next caller. -/
theorem second_chunk_answers_next_request :
    let ask (frame : Bytes) : Operation Bytes := .invoke frame (fun bytes => !bytes.isEmpty) .done
    let wire : Wire Responder := { peer := .script [[[1], [2]], [[3]]] }
    let initial : Connection Responder Bytes := create "link" .network .rtu wire
    let actions : List (Action Bytes) :=
      [.start (ask [0x0A]) false, .caller 0] ++ List.replicate 8 .worker
        ++ [.caller 0, .start (ask [0x0B]) false, .caller 1] ++ List.replicate 7 .worker
        ++ [.caller 1]
    let history := ledger (initial.run actions).history
    let sent := initial.sendings actions
    (wire.arriving = [] ∧ (∀ chunk, .push chunk ∉ actions)) ∧
      sent.map Sending.own = [[[1], [2]], [[3]]] ∧
      .returned 1 (.ok [2]) ∈ history ∧
      ∃ sending ∈ sent, sending.item.ticket = 1 ∧
        [2] = sending.left.flatten.take 1
          ++ sending.own.flatten.take (1 - sending.left.flatten.length) ∧
        (sending.left.flatten.take 1 = [] ↔ sending.left.flatten = []) := by
  intro ask wire initial actions history sent
  have hown : sent.map Sending.own = [[[1], [2]], [[3]]] := by
    unfold sent initial actions ask wire
    cbv
  have hlast : history[7]? = some (.returned 1 (.ok [2])) := by
    unfold history initial actions ask wire
    cbv
  have hreturned : .returned 1 (.ok [2]) ∈ history := List.mem_of_getElem? hlast
  have hpush : ∀ chunk, .push chunk ∉ actions := by
    intro chunk h
    simp [actions] at h
  obtain ⟨-, -, hreplies, -, -⟩ :=
    reply_own_iff_nothing_left "link" .network .rtu wire rfl actions hpush
  exact ⟨⟨rfl, hpush⟩, hown, hreturned, hreplies 1 [2] hreturned⟩

end Modbus.Connection
