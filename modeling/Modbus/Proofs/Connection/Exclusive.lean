import Modbus.Proofs.Connection.Line
import Modbus.Proofs.Connection.Order

/-!
# The link during an exchange

From the moment a request is sent until its result is told the link is its own.  `Exclusive` reads a
history that way: exchanges, one after the other, and what happens between them.  Everything that
happens extends the history as such a one (`Held.of_shift`, `Held.of_send`), because the worker holds
the link from before it sends until it has decided the result, and nobody else touches a link that
somebody holds.  That the link goes down by itself changes nothing of this.

What such a history says is then a matter of lists.  Since a request was sent, and until a result is
told, only chunks come in and callers come and go (`Exclusive.undisturbed`), a close is followed by
the result (`Exclusive.delivered_of_closed`), and that is the result of the request that was sent
(`Exclusive.own`).
-/

namespace Modbus.Connection

variable {σ α : Type}

/-! ## Exclusive use of the link -/

/-- Whose the link is, as the history tells. -/
inductive Channel where
  | free
  | exchanging (item : Queued)
  /-- The exchange failed and the link was closed; its result is not told yet. -/
  | closed (item : Queued)

/-- What may happen beside an exchange: chunks come in, and callers come and go. -/
def isBeside : Occurrence → Bool
  | .wire (.received _) => true
  | .accepted _ _ => true
  | .returned _ _ => true
  | .abandoned _ => true
  | _ => false

/-- A result is told. -/
def isDelivered : Occurrence → Bool
  | .delivered _ _ => true
  | _ => false

/-- **A history of exchanges**, each with the link to itself, and what happens between them. -/
inductive Exclusive : List Queued → List Occurrence → Channel → Prop where
  | nothing : Exclusive [] [] .free
  | between {sent : List Queued} {trace : List Occurrence} {occurrence : Occurrence}
      (h : Exclusive sent trace .free) (hsent : ∀ frame, occurrence ≠ .wire (.sent frame)) :
      Exclusive sent (trace ++ [occurrence]) .free
  | send {sent : List Queued} {trace : List Occurrence} (item : Queued)
      (h : Exclusive sent trace .free) :
      Exclusive (sent ++ [item]) (trace ++ [.wire (.sent item.request)]) (.exchanging item)
  | beside {sent : List Queued} {trace : List Occurrence} {item : Queued} {occurrence : Occurrence}
      (h : Exclusive sent trace (.exchanging item)) (hbeside : isBeside occurrence = true) :
      Exclusive sent (trace ++ [occurrence]) (.exchanging item)
  | close {sent : List Queued} {trace : List Occurrence} {item : Queued}
      (h : Exclusive sent trace (.exchanging item)) :
      Exclusive sent (trace ++ [.wire .closed]) (.closed item)
  | deliver {sent : List Queued} {trace : List Occurrence} {item : Queued} {channel : Channel}
      (h : Exclusive sent trace channel) (result : Result Bytes)
      (hchannel : channel = .exchanging item ∨ channel = .closed item) :
      Exclusive sent (trace ++ [.delivered item.ticket result]) .free

/-- What the worker's stage says of the link. -/
def Channel.Fits (channel : Channel) : Stage → Prop
  | .receiving item _ => channel = .exchanging item
  | .stalled item _ _ => channel = .exchanging item
  | .concluding item _ => channel = .free ∨ channel = .exchanging item
  | .delivering item _ => channel = .free ∨ channel = .exchanging item ∨ channel = .closed item
  | _ => channel = .free

/-- The stages before anything is sent for a request, and after its result is told. -/
def isQuiet : Stage → Bool
  | .receiving _ _ | .stalled _ _ _ | .concluding _ _ | .delivering _ _ => false
  | _ => true

lemma Channel.fits_of_quiet {stage : Stage} (h : isQuiet stage = true) :
    Channel.free.Fits stage := by
  cases stage <;> first | rfl | simp [isQuiet] at h

/-- **The link is held during an exchange**, and the history is one of exchanges. -/
structure Held (sent : List Queued) (c : Custody) : Prop where
  inLine : InLine c
  exclusive : ∃ channel : Channel, channel.Fits c.stage ∧
    Exclusive sent (occurrences c.history) channel

namespace Exclusive

variable {sent : List Queued} {trace events : List Occurrence} {item : Queued}

lemma append_between (h : Exclusive sent trace .free) :
    (∀ occurrence ∈ events, ∀ frame, occurrence ≠ .wire (.sent frame)) →
      Exclusive sent (trace ++ events) .free := by
  induction events generalizing trace with
  | nil => exact fun _ => by simpa using h
  | cons first later ih =>
      intro hevents
      obtain ⟨hfirst, hlater⟩ := List.forall_mem_cons.mp hevents
      rw [List.append_cons]
      exact ih (h.between hfirst) hlater

/-- A chunk that comes in, or nothing, during an exchange or between two of them. -/
lemma append_chunk {channel : Channel} {wired : List Wire.Event} (h : Exclusive sent trace channel)
    (hchannel : channel = .free ∨ channel = .exchanging item)
    (hwired : wired = [] ∨ ∃ chunk, wired = [.received chunk]) :
    Exclusive sent (trace ++ wired.map .wire) channel := by
  rcases hwired with rfl | ⟨chunk, rfl⟩
  · simpa using h
  · rcases hchannel with rfl | rfl
    · exact h.between (by simp)
    · exact h.beside rfl

/-- A call that comes or goes, while the worker waits. -/
lemma append_aside {stage : Stage} {channel : Channel} (h : Exclusive sent trace channel)
    (hfits : channel.Fits stage) (hwaits : stage.isRunning = false) {occurrence : Occurrence}
    (haside : isAside occurrence = true) : Exclusive sent (trace ++ [occurrence]) channel := by
  have hsent : ∀ frame, occurrence ≠ .wire (.sent frame) := by
    rintro frame rfl
    simp [isAside] at haside
  have hbeside : isBeside occurrence = true := by
    cases occurrence <;> first | rfl | simp [isAside] at haside
  cases hquiet : isQuiet stage with
  | true =>
      have hchannel : channel = .free := by
        cases stage <;> first | exact hfits | simp [isQuiet] at hquiet
      exact hchannel ▸ (hchannel ▸ h).between hsent
  | false =>
      cases stage with
      | stalled item received expiresAt =>
          obtain rfl : channel = .exchanging item := hfits
          exact h.beside hbeside
      | receiving item received => simp [Stage.isRunning] at hwaits
      | concluding item result => simp [Stage.isRunning] at hwaits
      | delivering item result => simp [Stage.isRunning] at hwaits
      | _ => simp [isQuiet] at hquiet

end Exclusive

/-! ## What a shift adds to a history -/

lemma occurrences_notes (c : Custody) (events : List Wire.Event) :
    occurrences (c.notes events).history = occurrences c.history ++ events.map .wire := by
  simp [occurrences, Custody.notes, List.map_reverse, Function.comp_def]

lemma occurrences_reset (c : Custody) :
    occurrences c.reset.history
      = occurrences c.history ++ if c.connected then [.wire .closed] else [] := by
  rw [Custody.reset, occurrences_notes]
  split_ifs <;> rfl

lemma occurrences_spend (c : Custody) (deadline : Nat) :
    ∃ events, occurrences (c.spend deadline).history = occurrences c.history ++ events ∧
      ∀ occurrence ∈ events, ∀ frame, occurrence ≠ .wire (.sent frame) := by
  rw [Custody.spend]
  split_ifs with hdeadline hopen
  · refine ⟨[.expired, .wire .closed], ?_, by simp⟩
    have hnoted : (({ c with deadline := none } : Custody).note .expired).connected = true := hopen
    rw [Custody.close, occurrences_reset, hnoted, if_pos rfl, Custody.note, occurrences_cons,
      List.append_assoc]
    rfl
  · exact ⟨[], (List.append_nil _).symm, by simp⟩
  · exact ⟨[], (List.append_nil _).symm, by simp⟩

namespace Held

variable {sent : List Queued} {c c' : Custody} {item : Queued}

/-- Nothing is exchanged at a quiet stage. -/
lemma exclusive_of_quiet (h : Held sent c) (hquiet : isQuiet c.stage = true) :
    Exclusive sent (occurrences c.history) .free := by
  obtain ⟨channel, hfits, hexclusive⟩ := h.exclusive
  have hchannel : channel = .free := by
    cases hstage : c.stage <;> simp_all [isQuiet, Channel.Fits]
  exact hchannel ▸ hexclusive

lemma exclusive_of_receiving (h : Held sent c) {received : Bytes}
    (hstage : c.stage = .receiving item received ∨
      ∃ expiresAt, c.stage = .stalled item received expiresAt) :
    Exclusive sent (occurrences c.history) (.exchanging item) := by
  obtain ⟨channel, hfits, hexclusive⟩ := h.exclusive
  have hchannel : channel = .exchanging item := by
    rcases hstage with hstage | ⟨expiresAt, hstage⟩ <;> rwa [hstage] at hfits
  exact hchannel ▸ hexclusive

/-- **An attempt to open the link** is no exchange. -/
lemma exclusive_of_attempted (hbefore : Exclusive sent (occurrences c.history) .free)
    (hattempted : Attempted item c c') :
    ∃ channel : Channel, channel.Fits c'.stage ∧
      Exclusive sent (occurrences c'.history) channel := by
  have hfailed {events : List Wire.Event} (hevents : events = [] ∨ events = [.refused]) :
      Exclusive sent (occurrences (c.notes events).history) .free := by
    rw [occurrences_notes]
    refine hbefore.append_between ?_
    rcases hevents with rfl | rfl <;> simp
  cases hattempted with
  | opened =>
      refine ⟨.free, rfl, ?_⟩
      rw [occurrences_notes]
      exact hbefore.between (by simp)
  | opening => exact ⟨.free, rfl, hbefore⟩
  | failed hevents => exact ⟨.free, rfl, hfailed hevents⟩
  | gaveUp hevents => exact ⟨.free, .inl rfl, hfailed hevents⟩

/-- The stage alone changes, from one at which nothing is exchanged. -/
lemma exclusive_onward (h : Held sent c) {stage : Stage} (hbefore : isQuiet c.stage = true)
    (hafter : Channel.free.Fits stage) :
    ∃ channel : Channel, channel.Fits stage ∧
      Exclusive sent (occurrences c.history) channel :=
  ⟨.free, hafter, h.exclusive_of_quiet hbefore⟩

/-- **While another task has the link** and the worker waits, nothing is exchanged. -/
lemma quiet_of_other (h : Held sent c) {asker : Holder} (hheld : c.link.isHeldBy asker = true)
    (hother : asker ≠ .worker) (hwaits : c.stage.isRunning = false) : isQuiet c.stage = true := by
  have hidle := h.inLine.idle hheld hother
  cases hstage : c.stage <;>
    first | rfl | simp [hstage, Stage.exchanging?, Stage.isRunning] at hidle hwaits

/-- **Every shift extends the history as one of exchanges**, but for the one that sends. -/
lemma of_shift (h : Held sent c) (hsilent : ∀ item, c.stage ≠ .sending item)
    (hshift : Shift c c') : Held sent c' := by
  refine ⟨h.inLine.of_shift hshift, ?_⟩
  have hquiet {stage : Stage} (hstage : c.stage = stage) (hbefore : isQuiet stage = true) :
      isQuiet c.stage = true := hstage ▸ hbefore
  cases hshift with
  | rest => exact h.exclusive
  | away hbefore hafter hstopped =>
      refine h.exclusive_onward ?_ ?_
      · cases hstage : c.stage <;> first | rfl | simp [hstage, Stage.isAway] at hbefore
      · rcases hafter with hafter | ⟨item, error, rfl⟩
        · refine Channel.fits_of_quiet ?_
          cases hstage : ‹Stage› <;> first | rfl | simp [hstage, Stage.isAway] at hafter
        · exact .inl rfl
  | request hstage =>
      refine h.exclusive_onward (hquiet hstage rfl) ?_
      split_ifs <;> rfl
  | withdraw hstage => exact h.exclusive_onward (hquiet hstage rfl) (.inl rfl)
  | granted hstage hheld => exact h.exclusive_onward (hquiet hstage rfl) rfl
  | use hstage hopen => exact h.exclusive_onward (hquiet hstage rfl) rfl
  | reconnect hstage hclosed => exact h.exclusive_onward (hquiet hstage rfl) rfl
  | again hstage => exact h.exclusive_onward (hquiet hstage rfl) rfl
  | attempt hstage hattempted =>
      refine exclusive_of_attempted ?_ hattempted
      have hbefore := h.exclusive_of_quiet (hquiet hstage rfl)
      rw [Custody.note, occurrences_cons, occurrences_reset]
      refine (hbefore.append_between ?_).between (by simp)
      split_ifs <;> simp
  | opening hstage hattempted =>
      exact exclusive_of_attempted (h.exclusive_of_quiet (hquiet hstage rfl)) hattempted
  | @fail item error events hexchanging hpending herror hevents =>
      obtain ⟨channel, hfits, hexclusive⟩ := h.exclusive
      have hchannel : channel = .free ∨ channel = .exchanging item := by
        cases hstage : c.stage <;> simp_all [Stage.exchanging?, Channel.Fits]
      refine ⟨channel, hchannel, ?_⟩
      rw [occurrences_notes]
      exact hexclusive.append_chunk hchannel hevents
  | send hstage hopen => exact absurd hstage (hsilent _)
  | @read item received stage events hstage hlater hevents =>
      refine ⟨.exchanging item, ?_, ?_⟩
      · rcases hlater with ⟨received, rfl⟩ | ⟨received, expiresAt, rfl⟩ <;> rfl
      · rw [occurrences_notes]
        exact (h.exclusive_of_receiving hstage).append_chunk (.inr rfl) hevents
  | @complete item received reply chunk hstage hopen =>
      refine ⟨.exchanging item, .inr rfl, ?_⟩
      rw [occurrences_notes]
      exact (h.exclusive_of_receiving (.inl hstage)).append_chunk (.inr rfl) (.inr ⟨chunk, rfl⟩)
  | keep hstage =>
      obtain ⟨channel, hfits, hexclusive⟩ := h.exclusive
      rw [hstage] at hfits
      exact ⟨channel, hfits.imp_right .inl, hexclusive⟩
  | spare hstage herror =>
      obtain ⟨channel, hfits, hexclusive⟩ := h.exclusive
      rw [hstage] at hfits
      exact ⟨channel, hfits.imp_right .inl, hexclusive⟩
  | @drop item error hstage herror =>
      obtain ⟨channel, hfits, hexclusive⟩ := h.exclusive
      rw [hstage] at hfits
      simp only [Custody.close, occurrences_reset]
      split_ifs with hopen
      · rcases hfits with rfl | rfl
        · exact ⟨.free, .inl rfl, hexclusive.between (by simp)⟩
        · exact ⟨.closed item, .inr (.inr rfl), hexclusive.close⟩
      · rw [List.append_nil]
        exact ⟨channel, hfits.imp_right .inl, hexclusive⟩
  | @deliver item result stage hstage hlater =>
      obtain ⟨channel, hfits, hexclusive⟩ := h.exclusive
      rw [hstage] at hfits
      refine ⟨.free, ?_, ?_⟩
      · rcases hlater with rfl | ⟨until_, rfl⟩ <;> rfl
      · rw [Custody.note, occurrences_cons]
        rcases hfits with rfl | hchannel
        · exact hexclusive.between (by simp)
        · exact hexclusive.deliver result hchannel
  | @spend deadline hwaits htimer hheld =>
      obtain ⟨_, _, _, _, hspent⟩ := c.exists_spend_eq deadline
      obtain ⟨events, hadded, hevents⟩ := occurrences_spend c deadline
      have hcalm := h.quiet_of_other hheld (by decide) hwaits
      refine ⟨.free, ?_, ?_⟩
      · rw [hspent]
        exact Channel.fits_of_quiet hcalm
      · rw [hadded]
        exact (h.exclusive_of_quiet hcalm).append_between hevents
  | unlink hwaits hdisposal hheld =>
      have hcalm := h.quiet_of_other hheld (by decide) hwaits
      refine ⟨.free, Channel.fits_of_quiet hcalm, ?_⟩
      simp only [Custody.close, occurrences_reset]
      refine (h.exclusive_of_quiet hcalm).append_between ?_
      split_ifs <;> simp
  | aside hwaits haside =>
      obtain ⟨channel, hfits, hexclusive⟩ := h.exclusive
      refine ⟨channel, hfits, ?_⟩
      rw [Custody.note, occurrences_cons]
      exact hexclusive.append_aside hfits hwaits haside
  | _ => exact h.exclusive

/-- A link that goes down by itself leaves no trace. -/
lemma lose (h : Held sent c) : Held sent { c with connected := false } :=
  ⟨h.inLine.lose, h.exclusive⟩

/-- **A request is sent**, if the link is open. -/
lemma of_send [Peer σ] {connection : Connection σ α} (h : Held sent connection.custody)
    (hworker : connection.worker = .sending item) :
    Held (sent ++ if connection.wire.connected then [item] else [])
      (Worker.send connection item).custody := by
  have hbefore : Exclusive sent (occurrences connection.custody.history) .free :=
    h.exclusive_of_quiet (by simp [custody, hworker, isQuiet])
  refine ⟨h.inLine.of_shift (Worker.shift_of_send hworker), ?_⟩
  rcases Worker.custody_send connection item with ⟨hopen, hsent⟩ | ⟨hclosed, hrefused⟩
  · rw [hopen, if_pos rfl, hsent]
    refine ⟨.exchanging item, rfl, ?_⟩
    rw [occurrences_notes]
    exact hbefore.send item
  · rw [hclosed, if_neg Bool.false_ne_true, List.append_nil, hrefused]
    exact ⟨.free, .inl rfl, hbefore⟩

end Held

/-! ## What a history of exchanges says -/

namespace Exclusive

variable {sent : List Queued} {trace : List Occurrence} {channel : Channel}

/-- The frames on the link are the requests that were sent. -/
lemma frames (h : Exclusive sent trace channel) :
    Connection.frames trace = sent.map Queued.request := by
  have hsilent {trace : List Occurrence} {occurrence : Occurrence}
      (hsent : ∀ frame, occurrence ≠ .wire (.sent frame)) :
      Connection.frames (trace ++ [occurrence]) = Connection.frames trace := by
    cases occurrence with
    | wire event => cases event <;> simp_all [Connection.frames]
    | _ => simp [Connection.frames]
  induction h with
  | nothing => rfl
  | between h hsent ih => rw [hsilent hsent, ih]
  | send item h ih =>
      rw [List.map_append, ← ih]
      simp [Connection.frames]
  | beside h hbeside ih =>
      rw [hsilent (by rintro frame rfl; simp [isBeside] at hbeside), ih]
  | close h ih => rw [hsilent (by simp), ih]
  | deliver h result hchannel ih => rw [hsilent (by simp), ih]

/-- **The beginning of a history of exchanges** is one. -/
lemma of_append (h : Exclusive sent trace channel) : ∀ {before after : List Occurrence},
    trace = before ++ after →
      ∃ earlier channel', earlier <+: sent ∧ Exclusive earlier before channel' := by
  have hconcat {sent later : List Queued} {trace : List Occurrence} {occurrence : Occurrence}
      {channel : Channel} (hsent : sent <+: later)
      (hall : Exclusive later (trace ++ [occurrence]) channel)
      (ih : ∀ {before after : List Occurrence}, trace = before ++ after →
        ∃ earlier channel', earlier <+: sent ∧ Exclusive earlier before channel')
      {before after : List Occurrence} (hsplit : trace ++ [occurrence] = before ++ after) :
      ∃ earlier channel', earlier <+: later ∧ Exclusive earlier before channel' := by
    rcases List.eq_nil_or_concat after with rfl | ⟨rest, last, rfl⟩
    · rw [List.append_nil] at hsplit
      exact ⟨later, channel, List.prefix_refl _, hsplit ▸ hall⟩
    · rw [List.concat_eq_append, ← List.append_assoc] at hsplit
      obtain ⟨earlier, channel', hearlier, hbefore⟩ := ih (List.append_inj_left' hsplit rfl)
      exact ⟨earlier, channel', hearlier.trans hsent, hbefore⟩
  induction h with
  | nothing =>
      intro before after hsplit
      obtain ⟨rfl, -⟩ := List.append_eq_nil_iff.mp hsplit.symm
      exact ⟨[], .free, List.prefix_refl _, .nothing⟩
  | between h hsent ih => exact hconcat (List.prefix_refl _) (h.between hsent) ih
  | send item h ih => exact hconcat (List.prefix_append _ _) (h.send item) ih
  | beside h hbeside ih => exact hconcat (List.prefix_refl _) (h.beside hbeside) ih
  | close h ih => exact hconcat (List.prefix_refl _) h.close ih
  | deliver h result hchannel ih =>
      exact hconcat (List.prefix_refl _) (h.deliver result hchannel) ih

/-- The last occurrence of a history is the one that splits it, or comes behind. -/
lemma concat_eq_split {trace before between : List Occurrence} {last middle : Occurrence}
    (h : trace ++ [last] = before ++ middle :: between) :
    (between = [] ∧ before = trace ∧ middle = last) ∨
      ∃ rest, between = rest ++ [last] ∧ trace = before ++ middle :: rest := by
  rcases List.eq_nil_or_concat between with rfl | ⟨rest, final, rfl⟩
  · obtain ⟨rfl, hlast⟩ := List.append_inj' h rfl
    exact .inl ⟨rfl, rfl, (List.singleton_inj.mp hlast).symm⟩
  · rw [List.concat_eq_append, ← List.cons_append, ← List.append_assoc] at h
    obtain ⟨rfl, hlast⟩ := List.append_inj' h rfl
    rw [List.concat_eq_append, List.singleton_inj.mp hlast]
    exact .inr ⟨rest, rfl, rfl⟩

/-- **Since a request was sent and until its result is told**, the link is its own: only a close
that ends the exchange can come in between. -/
lemma since (h : Exclusive sent trace channel) :
    ∀ {before between : List Occurrence} {frame : Bytes},
      trace = before ++ .wire (.sent frame) :: between →
      (∀ occurrence ∈ between, isDelivered occurrence = false) →
        ∃ earlier item, sent = earlier ++ [item] ∧ item.request = frame ∧
          Connection.frames before = earlier.map Queued.request ∧
          ((channel = .exchanging item ∧ ∀ occurrence ∈ between, isBeside occurrence = true) ∨
            (channel = .closed item ∧ ∃ quiet, between = quiet ++ [.wire .closed] ∧
              ∀ occurrence ∈ quiet, isBeside occurrence = true)) := by
  induction h with
  | nothing => intro before between frame hsplit; simp at hsplit
  | between h hsent ih =>
      intro before between frame hsplit htold
      rcases concat_eq_split hsplit with ⟨-, -, hlast⟩ | ⟨rest, rfl, htrace⟩
      · exact absurd hlast.symm (hsent frame)
      · obtain ⟨earlier, item, -, -, -, hchannel⟩ :=
          ih htrace fun occurrence hin => htold occurrence (List.mem_append_left _ hin)
        simp at hchannel
  | send item h ih =>
      intro before between frame hsplit htold
      rcases concat_eq_split hsplit with ⟨rfl, rfl, hlast⟩ | ⟨rest, rfl, htrace⟩
      · simp only [Occurrence.wire.injEq, Wire.Event.sent.injEq] at hlast
        exact ⟨_, item, rfl, hlast.symm, h.frames, .inl ⟨rfl, by simp⟩⟩
      · obtain ⟨earlier, other, -, -, -, hchannel⟩ :=
          ih htrace fun occurrence hin => htold occurrence (List.mem_append_left _ hin)
        simp at hchannel
  | beside h hbeside ih =>
      intro before between frame hsplit htold
      rcases concat_eq_split hsplit with ⟨-, -, rfl⟩ | ⟨rest, rfl, htrace⟩
      · simp [isBeside] at hbeside
      · obtain ⟨earlier, item, hsent, hrequest, hframes, hchannel⟩ :=
          ih htrace fun occurrence hin => htold occurrence (List.mem_append_left _ hin)
        rcases hchannel with ⟨hchannel, hquiet⟩ | ⟨hchannel, -⟩
        · refine ⟨earlier, item, hsent, hrequest, hframes,
            .inl ⟨hchannel, fun occurrence hin => ?_⟩⟩
          rcases List.mem_append.mp hin with hearly | hlast
          · exact hquiet occurrence hearly
          · exact List.mem_singleton.mp hlast ▸ hbeside
        · simp at hchannel
  | close h ih =>
      intro before between frame hsplit htold
      rcases concat_eq_split hsplit with ⟨-, -, hlast⟩ | ⟨rest, rfl, htrace⟩
      · simp at hlast
      · obtain ⟨earlier, item, hsent, hrequest, hframes, hchannel⟩ :=
          ih htrace fun occurrence hin => htold occurrence (List.mem_append_left _ hin)
        rcases hchannel with ⟨hchannel, hquiet⟩ | ⟨hchannel, -⟩
        · rw [Channel.exchanging.injEq] at hchannel
          exact ⟨earlier, item, hsent, hrequest, hframes,
            .inr ⟨congrArg Channel.closed hchannel, rest, rfl, hquiet⟩⟩
        · simp at hchannel
  | deliver h result hchannel ih =>
      intro before between frame hsplit htold
      rcases concat_eq_split hsplit with ⟨-, -, hlast⟩ | ⟨rest, rfl, htrace⟩
      · simp at hlast
      · simpa [isDelivered] using htold _ (List.mem_append_right _ (List.mem_singleton_self _))

/-- **A result is told** of the request whose exchange it ends, or of none that was sent. -/
lemma of_delivered {ticket : Nat} {result : Result Bytes}
    (h : Exclusive sent (trace ++ [.delivered ticket result]) channel) :
    ∃ channel', Exclusive sent trace channel' ∧ (channel' = .free ∨
      ∃ item : Queued, item.ticket = ticket ∧
        (channel' = .exchanging item ∨ channel' = .closed item)) := by
  generalize hall : trace ++ [.delivered ticket result] = all at h
  cases h with
  | nothing => simp at hall
  | between h hsent =>
      obtain ⟨rfl, -⟩ := List.append_inj' hall rfl
      exact ⟨.free, h, .inl rfl⟩
  | deliver h result hchannel =>
      obtain ⟨rfl, hlast⟩ := List.append_inj' hall rfl
      simp only [List.cons.injEq, Occurrence.delivered.injEq, and_true] at hlast
      exact ⟨_, h, .inr ⟨_, hlast.1.symm, hchannel⟩⟩
  | send item h =>
      obtain ⟨-, hlast⟩ := List.append_inj' hall rfl
      simp at hlast
  | beside h hbeside =>
      obtain ⟨-, hlast⟩ := List.append_inj' hall rfl
      rw [← List.singleton_inj.mp hlast] at hbeside
      simp [isBeside] at hbeside
  | close h =>
      obtain ⟨-, hlast⟩ := List.append_inj' hall rfl
      simp at hlast

variable {before between after : List Occurrence} {frame : Bytes}

lemma undisturbed (h : Exclusive sent trace channel)
    (htrace : trace = before ++ .wire (.sent frame) :: (between ++ after))
    (htold : ∀ occurrence ∈ between, isDelivered occurrence = false) :
    ∀ occurrence ∈ between, isBeside occurrence = true ∨ occurrence = .wire .closed := by
  rw [← List.cons_append, ← List.append_assoc] at htrace
  obtain ⟨earlier, channel', -, hbefore⟩ := h.of_append htrace
  obtain ⟨-, -, -, -, -, ⟨-, hquiet⟩ | ⟨-, quiet, rfl, hquiet⟩⟩ := hbefore.since rfl htold
  · exact fun occurrence hin => .inl (hquiet occurrence hin)
  · intro occurrence hin
    rcases List.mem_append.mp hin with hearly | hlast
    · exact .inl (hquiet occurrence hearly)
    · exact .inr (List.mem_singleton.mp hlast)

/-- A close in an exchange is followed by the result. -/
lemma delivered_of_closed (h : Exclusive sent trace channel) {next : Occurrence}
    (htrace : trace = before ++ .wire (.sent frame) :: (between ++ .wire .closed :: next :: after))
    (htold : ∀ occurrence ∈ between, isDelivered occurrence = false) :
    isDelivered next = true := by
  by_contra hnext
  have hsplit : between ++ .wire .closed :: next :: after
      = (between ++ [.wire .closed, next]) ++ after := by simp
  have hall : ∀ occurrence ∈ between ++ [.wire .closed, next], isDelivered occurrence = false := by
    intro occurrence hin
    simp only [List.mem_append, List.mem_cons, List.not_mem_nil, or_false] at hin
    rcases hin with hearly | rfl | rfl
    · exact htold occurrence hearly
    · rfl
    · simpa using hnext
  rw [hsplit, ← List.cons_append, ← List.append_assoc] at htrace
  obtain ⟨earlier, channel', -, hbefore⟩ := h.of_append htrace
  obtain ⟨-, -, -, -, -, ⟨-, hquiet⟩ | ⟨-, quiet, hsame, hquiet⟩⟩ := hbefore.since rfl hall
  · simpa [isBeside] using hquiet (.wire .closed) (by simp)
  · rw [List.append_cons] at hsame
    obtain ⟨rfl, -⟩ := List.append_inj' hsame rfl
    simpa [isBeside] using hquiet (.wire .closed) (by simp)

/-- **The result that ends an exchange** is told of the request that was sent. -/
lemma own (h : Exclusive sent trace channel) {ticket : Nat} {result : Result Bytes}
    (htrace : trace
      = before ++ .wire (.sent frame) :: (between ++ .delivered ticket result :: after))
    (htold : ∀ occurrence ∈ between, isDelivered occurrence = false) :
    ∃ item, sent[(Connection.frames before).length]? = some item ∧ item.request = frame ∧
      item.ticket = ticket := by
  have hsplit : before ++ .wire (.sent frame) :: (between ++ .delivered ticket result :: after)
      = (before ++ .wire (.sent frame) :: between ++ [.delivered ticket result]) ++ after := by simp
  obtain ⟨earlier, channel', hearlier, hbefore⟩ := h.of_append (htrace.trans hsplit)
  obtain ⟨middle, hmiddle, htells⟩ := hbefore.of_delivered
  obtain ⟨others, item, rfl, hrequest, hframes, hchannel⟩ := hmiddle.since rfl htold
  refine ⟨item, ?_, hrequest, ?_⟩
  · obtain ⟨later, rfl⟩ := hearlier
    rw [hframes, List.length_map]
    simp
  · rcases hchannel with ⟨rfl, -⟩ | ⟨rfl, -⟩
    · simp only [reduceCtorEq, Channel.exchanging.injEq, or_false, false_or] at htells
      obtain ⟨other, hticket, rfl⟩ := htells
      exact hticket
    · simp only [reduceCtorEq, Channel.closed.injEq, false_or] at htells
      obtain ⟨other, hticket, rfl⟩ := htells
      exact hticket

end Exclusive

end Modbus.Connection
