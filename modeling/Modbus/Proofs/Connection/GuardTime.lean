import Modbus.Proofs.Connection.Beats
import Modbus.Proofs.Connection.Disposal

/-!
# The guard time between two requests

On a serial link frames are told apart by silence, so the worker leaves the link alone for some time
after each request.  This file shows that it does so however the request came to its end, whatever
is asked of the connection meanwhile and whatever the link does (`guardTime_of_run`): no use of the
link comes sooner than a guard time after a delivery, and before the first request there is no pause.

The worker is either in its pause, which ends a guard time after the last delivery, or all deliveries
are that long ago already (`Spaced.rested`); every beat keeps that, and so what is added to the
history keeps its distance (`Chronicle.append`).  That the first request is not kept waiting rests on
time itself, which passes only when nobody has anything to do: as long as nothing has been delivered
and the link has not been used, a connection with a request pending is not at rest
(`pending_eq_nil_of_settled`), and so its requests were all accepted just now (`Prompt`).
-/

namespace Modbus

/-- The worker has used the link, and waits for what comes of it or is about to look. -/
def Stage.isUnderWay : Stage → Bool
  | .opening _ _ _ _ => true
  | .backingOff _ _ _ => true
  | .receiving _ _ => true
  | .stalled _ _ _ => true
  | _ => false

namespace Connection

variable {σ α : Type}

/-! ## Histories that keep their distance -/

/-- **Every delivery was at least a guard time before.** -/
def Rested (guard : Duration) (history : List Entry) (time : Nat) : Prop :=
  ∀ entry ∈ history, isDelivered entry.occurrence = true → entry.time + guard.ticks ≤ time

lemma Rested.mono {guard : Duration} {history : List Entry} {time later : Nat}
    (h : Rested guard history time) (hlater : time ≤ later) : Rested guard history later :=
  fun entry hentry hdelivered => Nat.le_trans (h entry hentry hdelivered) hlater

/-- **A history up to now, newest first**, in which no use of the link comes too soon after a
delivery. -/
structure Chronicle (guard : Duration) (now : Nat) (history : List Entry) : Prop where
  past : ∀ entry ∈ history, entry.time ≤ now
  order : history.Pairwise fun later earlier => earlier.time ≤ later.time
  apart : history.Pairwise fun later earlier => isUse later.occurrence = true →
    isDelivered earlier.occurrence = true → earlier.time + guard.ticks ≤ later.time

namespace Chronicle

variable {guard : Duration} {now : Nat} {history news : List Entry}

lemma mono {later : Nat} (h : Chronicle guard now history) (hlater : now ≤ later) :
    Chronicle guard later history :=
  ⟨fun entry hentry => Nat.le_trans (h.past entry hentry) hlater, h.order, h.apart⟩

/-- When a pause is over that begins now, every delivery was a guard time before. -/
lemma rested (h : Chronicle guard now history) : Rested guard history (now + guard.ticks) :=
  fun entry hentry _ => Nat.add_le_add_right (h.past entry hentry) guard.ticks

/-- What happens now, if the link is used only when every delivery is long enough ago. -/
lemma append (h : Chronicle guard now history) (htime : ∀ entry ∈ news, entry.time = now)
    (hinterim : ∀ entry ∈ news, IsInterim entry.occurrence)
    (hrested : ∀ entry ∈ news, isUse entry.occurrence = true → Rested guard history now) :
    Chronicle guard now (news ++ history) where
  past entry hentry := by
    rcases List.mem_append.mp hentry with hnew | hold
    · exact Nat.le_of_eq (htime entry hnew)
    · exact h.past entry hold
  order := by
    refine List.pairwise_append.mpr ⟨List.pairwise_of_forall_mem_list fun a ha b hb => ?_, h.order,
      fun a ha b hb => ?_⟩
    · rw [htime a ha, htime b hb]
    · exact htime a ha ▸ h.past b hb
  apart := by
    refine List.pairwise_append.mpr ⟨List.pairwise_of_forall_mem_list fun a _ b hb _ htold => ?_,
      h.apart, fun a ha b hb huse htold => ?_⟩
    · exact absurd htold (by rw [hinterim b hb]; simp)
    · exact htime a ha ▸ hrested a ha huse b hb htold

/-- A delivery now. -/
lemma deliver (h : Chronicle guard now history) (ticket : Nat) (result : Result Bytes) :
    Chronicle guard now (⟨now, .delivered ticket result⟩ :: history) where
  past entry hentry := by
    rcases List.mem_cons.mp hentry with rfl | hold
    · exact Nat.le_refl now
    · exact h.past entry hold
  order := List.pairwise_cons.mpr ⟨h.past, h.order⟩
  apart := List.pairwise_cons.mpr ⟨fun _ _ huse => absurd huse (by simp [isUse]), h.apart⟩

end Chronicle

/-! ## The worker's pause -/

/-- **When the worker may use the link**, if it has not stopped: now, or when its pause is over. -/
def ready? (connection : Connection σ α) : Option Nat :=
  match connection.worker with
  | .guarding until_ => some until_
  | .stopped => none
  | _ => some connection.now

/-- **The worker keeps its distance.** -/
structure Spaced (guard : Duration) (connection : Connection σ α) : Prop where
  timing : connection.timing.guardTime = guard
  chronicle : Chronicle guard connection.now connection.history
  rested : ∀ time, connection.ready? = some time → Rested guard connection.history time
  /-- Only after a delivery there is a pause, and it lasts no longer than it has to. -/
  pause : ∀ until_, connection.worker = .guarding until_ → ∃ entry ∈ connection.history,
    isDelivered entry.occurrence = true ∧ until_ = entry.time + guard.ticks

lemma ready?_of_item {connection : Connection σ α} {item : Queued}
    (hitem : (phase connection.worker).item? = some item) :
    connection.ready? = some connection.now := by
  rw [ready?]
  cases hworker : connection.worker with
  | guarding until_ => simp [hworker, phase, Phase.item?] at hitem
  | stopped => simp [hworker, phase, Phase.item?] at hitem
  | _ => rfl

lemma not_guarding_of_item {stage : Stage} {item : Queued}
    (hitem : (phase stage).item? = some item) (until_ : Nat) : stage ≠ .guarding until_ := by
  rintro rfl
  simp [phase, Phase.item?] at hitem

lemma ready?_congr {c c' : Connection σ α} (hworker : c'.worker = c.worker)
    (hnow : c'.now = c.now) : c'.ready? = c.ready? := by
  simp only [ready?, hworker, hnow]

namespace Spaced

variable {guard : Duration} {c c' : Connection σ α}

/-- The worker pauses a guard time from now, or goes on at once if that is no time at all. -/
lemma ready?_of_delivered (h : Spaced guard c) (hclock : c'.clock = c.clock)
    (hafter : c'.worker = Worker.afterDelivery c) : c'.ready? = some (c.now + guard.ticks) := by
  have hnow : c'.now = c.now := congrArg Prod.fst hclock
  rw [Worker.afterDelivery, h.timing] at hafter
  split_ifs at hafter with hzero
  · simp [ready?, hafter, hnow, hzero, Duration.zero, Duration.ticks]
  · simp [ready?, hafter]

/-- Nothing is delivered, the link is used only by a worker that may use it, and no worker may use it
sooner than before. -/
lemma onward {may : Occurrence → Prop} (h : Spaced guard c) (hnotes : Notes may c c')
    (hinterim : ∀ occurrence, may occurrence → IsInterim occurrence)
    (huse : ∀ occurrence, may occurrence → isUse occurrence = true → c.ready? = some c.now)
    (hready : ∀ time, c'.ready? = some time → ∃ sooner ≤ time, c.ready? = some sooner)
    (hpause : ∀ until_, c'.worker = .guarding until_ → c.worker = .guarding until_) :
    Spaced guard c' := by
  obtain ⟨hclock, news, hhistory, hnews⟩ := hnotes
  obtain ⟨hnow, htiming⟩ := Prod.mk.inj hclock
  refine ⟨htiming ▸ h.timing, ?_, fun time htime => ?_, fun until_ hguarding => ?_⟩
  · rw [hhistory, hnow]
    refine h.chronicle.append (fun entry hentry => (hnews entry hentry).1)
      (fun entry hentry => hinterim _ (hnews entry hentry).2) fun entry hentry hused => ?_
    exact h.rested c.now (huse _ (hnews entry hentry).2 hused)
  · obtain ⟨sooner, hsooner, hbefore⟩ := hready time htime
    intro entry hentry hdelivered
    rw [hhistory] at hentry
    rcases List.mem_append.mp hentry with hnew | hold
    · exact absurd hdelivered (by rw [hinterim _ (hnews entry hnew).2]; simp)
    · exact (h.rested sooner hbefore).mono hsooner entry hold hdelivered
  · obtain ⟨entry, hentry, hlast⟩ := h.pause until_ (hpause until_ hguarding)
    exact ⟨entry, hhistory ▸ List.mem_append_right news hentry, hlast⟩

/-- The worker leaves the link alone. -/
lemma away (h : Spaced guard c) (hnotes : Notes IsForeign c c')
    (hready : ∀ time, c'.ready? = some time → ∃ sooner ≤ time, c.ready? = some sooner)
    (hpause : ∀ until_, c'.worker = .guarding until_ → c.worker = .guarding until_) :
    Spaced guard c' := by
  refine h.onward hnotes (fun _ hforeign => hforeign.2) (fun occurrence hforeign huse => ?_)
    hready hpause
  rw [hforeign.1] at huse
  exact absurd huse Bool.false_ne_true

/-- **Every beat keeps the worker's distance.** -/
lemma of_beat [Peer σ] (h : Spaced guard c) (hbeat : Beat c c') : Spaced guard c' := by
  cases hbeat with
  | aside hworker hnotes =>
      have hsame : c'.ready? = c.ready? := ready?_congr hworker (congrArg Prod.fst hnotes.1)
      exact h.away hnotes (fun time htime => ⟨time, Nat.le_refl time, hsame ▸ htime⟩)
        fun until_ hguarding => hworker ▸ hguarding
  | take hbefore hafter hclock hhistory =>
      have hnow : c'.now = c.now := congrArg Prod.fst hclock
      have hsame : c'.ready? = c.ready? := by simp only [ready?, hbefore, hafter, hnow]
      exact h.away (.same hclock hhistory)
        (fun time htime => ⟨time, Nat.le_refl time, hsame ▸ htime⟩) (by simp [hafter])
  | work hbefore hworks =>
      obtain ⟨hafter, hnotes⟩ := hworks
      have hready : c.ready? = some c.now := ready?_of_item hbefore
      have hnow : c'.now = c.now := congrArg Prod.fst hnotes.1
      refine h.onward hnotes (fun _ hinterim => hinterim) (fun _ _ _ => hready)
        (fun time htime => ?_)
        fun until_ hguarding => absurd hguarding (not_guarding_of_item hafter until_)
      rw [ready?_of_item hafter, hnow] at htime
      exact ⟨time, Nat.le_refl time, hready.trans htime⟩
  | @release until_ hbefore hdue hafter hclock hhistory =>
      have hnow : c'.now = c.now := congrArg Prod.fst hclock
      refine h.away (.same hclock hhistory) (fun time htime => ?_) (by simp [hafter])
      simp only [ready?, hafter, Option.some.injEq] at htime
      exact ⟨until_, by omega, by rw [ready?, hbefore]⟩
  | stop hbefore hshutdown hafter hclock hhistory =>
      exact h.away (.same hclock hhistory) (by simp [ready?, hafter]) (by simp [hafter])
  | @deliver item result hbefore hafter hclock hhistory =>
      obtain ⟨hnow, htiming⟩ := Prod.mk.inj hclock
      have hdelivered := h.chronicle.deliver item.ticket result
      have hready := h.ready?_of_delivered hclock hafter
      refine ⟨htiming ▸ h.timing, ?_, fun time htime => ?_, fun until_ hguarding => ?_⟩
      · rw [hhistory, hnow]
        exact hdelivered
      · rw [hready, Option.some.injEq] at htime
        rw [hhistory, ← htime]
        exact hdelivered.rested
      · rw [ready?, hguarding] at hready
        rw [hhistory]
        exact ⟨_, List.mem_cons_self, rfl, Option.some.inj hready⟩
  | @tick now hsettled hlater hafter =>
      subst hafter
      refine ⟨h.timing, h.chronicle.mono hlater, fun time htime => ?_, h.pause⟩
      cases hworker : c.worker with
      | guarding until_ =>
          simp only [ready?, hworker, Option.some.injEq] at htime
          exact htime ▸ h.rested until_ (by rw [ready?, hworker])
      | stopped => simp [ready?, hworker] at htime
      | _ =>
          simp only [ready?, hworker, Option.some.injEq] at htime
          exact (h.rested c.now (by rw [ready?, hworker])).mono (htime ▸ hlater)

lemma of_run [Peer σ] : ∀ (happenings : List (Happening α)) {connection : Connection σ α},
    Spaced guard connection → Spaced guard (connection.runOver happenings)
  | [], _, h => h
  | happening :: happenings, connection, h =>
      of_run happenings (h.of_beat (beat_of_happening connection happening))

lemma of_create (name : String) (timing : Timing) (framing : Framing) (wire : Wire σ) :
    Spaced timing.guardTime (create name timing framing wire : Connection σ α) :=
  ⟨rfl, ⟨nofun, .nil, .nil⟩, fun _ _ => nofun, nofun⟩

end Spaced

/-! ## The first request -/

/-- **A worker that waits on the link has used it.** -/
def Custody.Begun (c : Custody) : Prop :=
  c.stage.isUnderWay = true → ∃ entry ∈ c.history, isUse entry.occurrence = true

namespace Custody.Begun

variable {c c' : Custody}

/-- Nothing is forgotten, and the worker waits for nothing new. -/
lemma keep (h : c.Begun) (hstage : c'.stage.isUnderWay = true → c.stage.isUnderWay = true)
    (hhistory : c.history ⊆ c'.history) : c'.Begun := by
  intro hafter
  obtain ⟨entry, hentry, huse⟩ := h (hstage hafter)
  exact ⟨entry, hhistory hentry, huse⟩

lemma idle (hidle : c.stage.isUnderWay = false) : c.Begun :=
  fun hunderWay => absurd (hidle.symm.trans hunderWay) Bool.false_ne_true

lemma notes_subset (c : Custody) (events : List Wire.Event) :
    c.history ⊆ (c.notes events).history :=
  List.subset_append_right _ _

lemma spend_subset (c : Custody) (deadline : Nat) : c.history ⊆ (c.spend deadline).history := by
  rw [Custody.spend]
  split_ifs
  · exact fun entry hentry => List.mem_append_right _ (List.mem_cons_of_mem _ hentry)
  · exact List.Subset.refl _
  · exact List.Subset.refl _

/-- **Every shift keeps it.** -/
lemma of_shift (h : c.Begun) (hshift : Shift c c') : c'.Begun := by
  cases hshift with
  | attempt hstage hattempted =>
      obtain ⟨stage, state, connected, events, -, rfl⟩ := hattempted.exists_eq
      exact fun _ => ⟨⟨c.now, .attempted⟩, List.mem_append_right _ List.mem_cons_self, rfl⟩
  | opening hstage hattempted =>
      obtain ⟨stage, state, connected, events, -, rfl⟩ := hattempted.exists_eq
      exact h.keep (fun _ => by rw [hstage]; rfl) (notes_subset c events)
  | @send item hstage hopen =>
      exact fun _ => ⟨⟨c.now, .wire (.sent item.request)⟩, List.mem_cons_self, rfl⟩
  | read hstage hlater hevents =>
      refine h.keep (fun _ => ?_) (notes_subset c _)
      rcases hstage with hstage | ⟨expiresAt, hstage⟩ <;> rw [hstage] <;> rfl
  | @away stage hbefore hlater hstopped =>
      refine idle ?_
      rcases hlater with hlater | ⟨item, error, rfl⟩
      · cases stage <;> first | rfl | exact absurd hlater (by simp [Stage.isAway])
      · rfl
  | request hstage =>
      refine idle ?_
      simp only
      split_ifs <;> rfl
  | deliver hstage hlater =>
      refine idle ?_
      rcases hlater with rfl | ⟨until_, rfl⟩ <;> rfl
  | @spend deadline hwaits htimer hheld =>
      refine h.keep (fun hafter => ?_) (spend_subset c deadline)
      obtain ⟨_, _, _, _, hspent⟩ := c.exists_spend_eq deadline
      rw [hspent] at hafter
      exact hafter
  | unlink hwaits hdisposal hheld => exact h.keep id (notes_subset c _)
  | aside hwaits haside => exact h.keep id (List.subset_cons_self _ _)
  -- Either the worker stays where it is, or it goes where it waits for nothing.
  | _ => first | exact h | exact idle rfl

lemma of_run [Peer σ] (name : String) (timing : Timing) (framing : Framing) (wire : Wire σ)
    (happenings : List (Happening α)) :
    ((create name timing framing wire : Connection σ α).runOver happenings).custody.Begun :=
  custody_induction (fun _ _ h hshift => h.of_shift hshift) happenings _ (fun _ _ h => h) (idle rfl)

end Custody.Begun

/-- **The link has not been used, and nothing delivered.** -/
def Fresh (history : List Entry) : Prop :=
  ∀ entry ∈ history, IsForeign entry.occurrence

/-- At rest nobody waits for a link that is not in use: whoever has it is about to do something. -/
lemma not_awaiting_of_settled [Peer σ] {connection : Connection σ α}
    (hline : InLine connection.custody) (hsettled : connection.isSettled = true) (item : Queued) :
    connection.worker ≠ .awaitingLink item := by
  intro hstage
  have hin : Holder.worker ∈ connection.link.line :=
    (hline.wants .worker).mpr (by simp [Custody.Wants, custody, hstage, Stage.isInLine])
  obtain ⟨holder, hholder⟩ := LinkLock.exists_holder hline.sound hin
  have hheld : connection.link.isHeldBy holder = true := beq_iff_eq.mpr hholder
  have hwants := (hline.wants holder).mp (LinkLock.mem_line_of_holder hholder)
  cases holder with
  | worker =>
      have hworker := worker_waits_of_settled hsettled
      simp only [Worker.step?, hstage, hheld, if_true] at hworker
      split at hworker <;> simp at hworker
  | idleTimer =>
      obtain ⟨deadline, htimer⟩ := hwants
      have htimer : connection.timer = .awaitingLink deadline := htimer
      simpa [IdleTimer.step?, htimer, hheld] using timer_waits_of_settled hsettled .rearmed
  | disposal =>
      have hdisposal : connection.disposal = .awaitingLink := hwants
      simpa [Disposing.step?, hdisposal, hheld] using disposal_waits_of_settled hsettled

/-- **At rest a queued request waits for nothing** but the request in the worker's hands, or for the
rest of a pause. -/
lemma waits_of_settled [Peer σ] {connection : Connection σ α}
    (haccounts : connection.docket.Accounts) (hsettled : connection.isSettled = true)
    (hworking : connection.worker ≠ .stopped) (hqueued : connection.queue.items ≠ []) :
    (∃ item, (phase connection.worker).item? = some item) ∨
      ∃ until_, connection.worker = .guarding until_ ∧ connection.now < until_ := by
  have hworker := worker_waits_of_settled hsettled
  cases hstage : connection.worker with
  | fetching =>
      simp only [Worker.step?, hstage, Worker.fetch?] at hworker
      split_ifs at hworker with hshutdown hwaiting
      · have hparked : connection.docket.parked = true := by simpa [docket] using hwaiting
        exact absurd (haccounts.closing.parked hparked) hqueued
      · split at hworker <;> simp at hworker
  | guarding until_ =>
      simp only [Worker.step?, hstage] at hworker
      split_ifs at hworker with hshutdown hdue
      exact .inr ⟨until_, rfl, Nat.lt_of_not_le hdue⟩
  | stopped => exact absurd hstage hworking
  | _ => exact .inl ⟨_, rfl⟩

/-- A worker at rest with a request in its hands has used the link for it. -/
lemma isUnderWay_of_settled [Peer σ] {connection : Connection σ α}
    (hline : InLine connection.custody) (hsettled : connection.isSettled = true) {item : Queued}
    (hitem : (phase connection.worker).item? = some item) :
    connection.worker.isUnderWay = true := by
  have hworker := worker_waits_of_settled hsettled
  cases hstage : connection.worker with
  | awaitingLink item => exact absurd hstage (not_awaiting_of_settled hline hsettled item)
  | opening item attempts opensAt expiresAt => rfl
  | backingOff item attempts until_ => rfl
  | receiving item received => rfl
  | stalled item received expiresAt => rfl
  | fetched item =>
      simp only [Worker.step?, hstage] at hworker
      split at hworker <;> simp at hworker
  | linked item =>
      simp only [Worker.step?, hstage] at hworker
      split_ifs at hworker
  | attempting item attempts => simp [Worker.step?, hstage] at hworker
  | sending item => simp [Worker.step?, hstage] at hworker
  | concluding item result => simp [Worker.step?, hstage] at hworker
  | delivering item result => simp [Worker.step?, hstage] at hworker
  | _ => simp [hstage, phase, Phase.item?] at hitem

/-- Nobody is at rest who has a request, as long as nothing has been delivered or used. -/
lemma pending_eq_nil_of_settled [Peer σ] {guard : Duration} {connection : Connection σ α}
    (hline : InLine connection.custody) (haccounts : connection.docket.Accounts)
    (hbegun : connection.custody.Begun) (hspaced : Spaced guard connection)
    (hsettled : connection.isSettled = true) (hfresh : Fresh connection.history)
    (hworking : connection.worker ≠ .stopped) : connection.docket.pending = [] := by
  have hnone : (phase connection.worker).item? = none := by
    refine Option.eq_none_iff_forall_ne_some.mpr fun item hitem => ?_
    obtain ⟨entry, hentry, huse⟩ := hbegun (isUnderWay_of_settled hline hsettled hitem)
    rw [(hfresh entry hentry).1] at huse
    exact Bool.false_ne_true huse
  have hqueue : connection.queue.items = [] := by
    by_contra hqueued
    rcases waits_of_settled haccounts hsettled hworking hqueued with
      ⟨item, hitem⟩ | ⟨until_, hguarding, -⟩
    · rw [hnone] at hitem
      exact nomatch hitem
    · obtain ⟨entry, hentry, hdelivered, -⟩ := hspaced.pause until_ hguarding
      rw [(hfresh entry hentry).2] at hdelivered
      exact Bool.false_ne_true hdelivered
  rw [Docket.pending, show connection.docket.phase.item? = none from hnone,
    show connection.docket.queue = [] from hqueue]
  rfl

/-- **A request that comes to be pending** is accepted with that. -/
lemma mem_pending_of_amendment {d d' : Docket α} (hamendment : Amendment d d') {item : Queued}
    (hitem : item ∈ d'.pending) :
    item ∈ d.pending ∨ d'.noted = d.noted ++ [.accepted item.ticket item.call] := by
  have hqueued {queue : List Queued} (hin : item ∈ queue) (hkept : queue ⊆ d.queue) :
      item ∈ d.pending := List.mem_append_right _ (hkept hin)
  cases hamendment with
  | take hphase hqueue =>
      exact .inl (by simpa [Docket.pending, hphase, hqueue, Phase.item?] using hitem)
  | work hbefore hafter hheld hresult =>
      exact .inl (by simpa [Docket.pending, hbefore, hafter] using hitem)
  | deliver hphase => exact .inl (hqueued hitem fun _ h => h)
  | breakDown hphase => exact .inl (hqueued hitem fun _ h => h)
  | refuseQueued hdisposal =>
      exact .inl (List.mem_append_left _ (by simpa [Docket.pending] using hitem))
  | resume hcall hresumes hticket hnews =>
      rcases List.mem_append.mp hitem with hhand | hkept
      · exact .inl (List.mem_append_left _ hhand)
      · exact .inl (hqueued hkept List.filter_sublist.subset)
  | accept hcall hprogress hopen =>
      rcases List.mem_append.mp hitem with hhand | hin
      · exact .inl (List.mem_append_left _ hhand)
      · rcases List.mem_append.mp hin with hold | hnew
        · exact .inl (List.mem_append_right _ hold)
        · rw [List.mem_singleton.mp hnew]
          exact .inr rfl
  | _ => exact .inl hitem

/-- What is added to the history of a connection, of calls. -/
lemma noted_append {c c' : Connection σ α} {news : List Entry}
    (hhistory : c'.history = news ++ c.history) :
    c'.docket.noted = c.docket.noted ++ (occurrences news).filter isAside := by
  simp only [docket, hhistory, occurrences, List.reverse_append, List.map_append,
    List.filter_append]

/-- **The first use of the link serves a request that was accepted at that time.** -/
def ServedAtOnce (history : List Entry) : Prop :=
  ∀ later earlier entry, history = later ++ entry :: earlier → isUse entry.occurrence = true →
    Fresh earlier → ∃ ticket call, ⟨entry.time, .accepted ticket call⟩ ∈ earlier

lemma ServedAtOnce.append {news history : List Entry} (h : ServedAtOnce history)
    (hnews : ∀ entry ∈ news, isUse entry.occurrence = true → Fresh history →
      ∃ ticket call, ⟨entry.time, .accepted ticket call⟩ ∈ history) :
    ServedAtOnce (news ++ history) := by
  intro later earlier entry hsplit huse hfresh
  rcases List.append_eq_append_iff.mp hsplit with ⟨between, -, hold⟩ | ⟨between, hnew, hold⟩
  · exact h between earlier entry hold huse hfresh
  · cases between with
    | nil => exact h [] earlier entry hold.symm huse hfresh
    | cons first rest =>
        obtain ⟨rfl, rfl⟩ := List.cons.inj hold
        obtain ⟨ticket, call, haccepted⟩ := hnews entry (by simp [hnew]) huse
          fun other hother => hfresh other (List.mem_append_right rest hother)
        exact ⟨ticket, call, List.mem_append_right rest haccepted⟩

/-- **As long as nothing has been delivered or used, all requests were accepted just now**, and so
the first of them is not kept waiting. -/
structure Prompt (connection : Connection σ α) : Prop where
  pending : Fresh connection.history → connection.worker ≠ .stopped →
    ∀ item ∈ connection.docket.pending,
      ⟨connection.now, .accepted item.ticket item.call⟩ ∈ connection.history
  served : ServedAtOnce connection.history

/-- **Every happening keeps a connection prompt.** -/
lemma Prompt.of_happening [Peer σ] {guard : Duration} {c : Connection σ α} (h : Prompt c)
    (hline : InLine c.custody) (haccounts : c.docket.Accounts) (hbegun : c.custody.Begun)
    (hspaced : Spaced guard c) (happening : Happening α) : Prompt (c.happen happening) := by
  have hbeat := beat_of_happening c happening
  obtain ⟨news, hhistory, hnews⟩ := hbeat.history
  have hfreshBefore (hfresh : Fresh (c.happen happening).history) : Fresh c.history :=
    fun entry hentry => hfresh entry (hhistory ▸ List.mem_append_right news hentry)
  refine ⟨fun hfresh hworking item hitem => ?_, ?_⟩
  · have hworkingBefore : c.worker ≠ .stopped := fun hstopped =>
      hworking (stopped_of_happening happening hstopped)
    rcases hbeat.clock with hclock | ⟨now, hsettled, hafter⟩
    · rw [show (c.happen happening).now = c.now from congrArg Prod.fst hclock]
      rcases mem_pending_of_amendment (amendment_of_happening c happening) hitem with
        hbefore | haccepted
      · rw [hhistory]
        exact List.mem_append_right news
          (h.pending (hfreshBefore hfresh) hworkingBefore item hbefore)
      · -- What was added to the history, of calls, is that the request was accepted.
        rw [noted_append hhistory] at haccepted
        have hadded := List.append_cancel_left haccepted
        have hin : .accepted item.ticket item.call ∈ (occurrences news).filter isAside :=
          hadded ▸ List.mem_singleton_self _
        obtain ⟨entry, hentry, hsame⟩ := List.mem_map.mp (List.mem_filter.mp hin).1
        have hnew : entry ∈ news := List.mem_reverse.mp hentry
        rw [hhistory, ← (hnews entry hnew).1, ← hsame]
        exact List.mem_append_left _ hnew
    · have hnone := pending_eq_nil_of_settled hline haccounts hbegun hspaced hsettled
        (hfreshBefore hfresh) hworkingBefore
      have hsame : (c.happen happening).docket.pending = c.docket.pending := by rw [hafter]; rfl
      rw [hsame, hnone] at hitem
      exact absurd hitem List.not_mem_nil
  · rw [hhistory]
    refine h.served.append fun entry hentry huse hfresh => ?_
    obtain ⟨htime, hown⟩ := hnews entry hentry
    obtain ⟨item, hitem, -⟩ := hown huse
    have hpending : item ∈ c.docket.pending :=
      List.mem_append_left _ (Option.mem_toList.mpr hitem)
    have hworking : c.worker ≠ .stopped := by
      intro hstopped
      simp [hstopped, phase, Phase.item?] at hitem
    exact ⟨item.ticket, item.call, htime ▸ h.pending hfresh hworking item hpending⟩

lemma Prompt.of_create (name : String) (timing : Timing) (framing : Framing) (wire : Wire σ) :
    Prompt (create name timing framing wire : Connection σ α) where
  pending _ _ item hitem := by
    simp [Docket.pending, docket, create, phase, Phase.item?] at hitem
  served later earlier entry hsplit := by
    simp [create] at hsplit

/-! ## Runs -/

lemma spaced_of_run [Peer σ] (name : String) (timing : Timing) (framing : Framing) (wire : Wire σ)
    (happenings : List (Happening α)) :
    Spaced timing.guardTime
      ((create name timing framing wire).runOver happenings : Connection σ α) :=
  Spaced.of_run happenings (.of_create name timing framing wire)

lemma prompt_of_run [Peer σ] (name : String) (timing : Timing) (framing : Framing) (wire : Wire σ)
    (happenings : List (Happening α)) :
    Prompt ((create name timing framing wire).runOver happenings : Connection σ α) := by
  induction happenings using List.reverseRecOn with
  | nil => exact .of_create name timing framing wire
  | append_singleton happenings happening ih =>
      rw [runOver_concat]
      exact ih.of_happening (InLine.of_run name timing framing wire happenings)
        (accounts_of_run name timing framing wire happenings)
        (Custody.Begun.of_run name timing framing wire happenings)
        (spaced_of_run name timing framing wire happenings) happening

/-- **A worker that has stopped** was told to. -/
lemma shutdown_of_stopped [Peer σ] (name : String) (timing : Timing) (framing : Framing)
    (wire : Wire σ) (happenings : List (Happening α)) :
    ((create name timing framing wire).runOver happenings : Connection σ α).worker = .stopped →
      ((create name timing framing wire).runOver happenings : Connection σ α).shutdown = true := by
  induction happenings using List.reverseRecOn with
  | nil => exact fun hstopped => nomatch (hstopped : Stage.fetching = .stopped)
  | append_singleton happenings happening ih =>
      let before : Connection σ α := (create name timing framing wire).runOver happenings
      have honward := (amendment_of_happening before happening).onward
      rw [runOver_concat]
      intro hstopped
      rcases stops_of_happening before happening hstopped with hbefore | hshutdown
      · exact honward.shutdown (ih hbefore)
      · exact honward.shutdown hshutdown

/-- As long as nobody disposes of a connection, its worker goes on. -/
lemma working_of_untouched [Peer σ] (name : String) (timing : Timing) (framing : Framing)
    (wire : Wire σ) (happenings : List (Happening α))
    (huntouched : ((create name timing framing wire).runOver happenings : Connection σ α).disposal
      = .untouched) :
    ((create name timing framing wire).runOver happenings : Connection σ α).worker ≠ .stopped :=
  fun hstopped => (accounts_of_run name timing framing wire happenings).closing.begun
    (.inl (shutdown_of_stopped name timing framing wire happenings hstopped)) huntouched

/-- **The guard time is kept.**  It is given in microseconds, and the clock counts milliseconds. -/
structure GuardTime [Peer σ] (guard : Duration) (connection : Connection σ α) : Prop where
  /-- Nothing that was told before a delivery happened later than it did, and from the delivery on
  the worker leaves the link alone for the guard time. -/
  apart : ∀ later earlier time ticket result,
    connection.history = later ++ ⟨time, .delivered ticket result⟩ :: earlier →
      (∀ entry ∈ earlier, entry.time ≤ time) ∧
        ∀ entry ∈ later, isUse entry.occurrence = true →
          time * 1000 + guard.micros ≤ entry.time * 1000
  /-- The link is used only for a request that the worker has in its hands all the while. -/
  own : ∀ happening, ∃ news,
    (connection.happen happening).history = news ++ connection.history ∧ ∀ entry ∈ news,
      entry.time = connection.now ∧ (isUse entry.occurrence = true → ∃ item,
        (phase connection.worker).item? = some item ∧
          (phase (connection.happen happening).worker).item? = some item)
  /-- However it ends, a request stays in the worker's hands until its result is delivered. -/
  held : ∀ happening item, (phase connection.worker).item? = some item →
    (phase (connection.happen happening).worker).item? = some item ∨
      ∃ result, (connection.happen happening).history
        = ⟨connection.now, .delivered item.ticket result⟩ :: connection.history
  /-- The worker has no request in its hands before the guard time is over. -/
  taken : ∀ item, (phase connection.worker).item? = some item → ∀ entry ∈ connection.history,
    isDelivered entry.occurrence = true →
      entry.time * 1000 + guard.micros ≤ connection.now * 1000
  /-- It pauses only after a delivery, and no longer than it has to. -/
  pause : ∀ until_, connection.worker = .guarding until_ → ∃ entry ∈ connection.history,
    isDelivered entry.occurrence = true ∧ until_ = entry.time + guard.ticks
  /-- The first request has no pause before it: when the link is first used, with nothing delivered
  before, it is used at the time at which a request was accepted. -/
  first : ∀ later earlier entry, connection.history = later ++ entry :: earlier →
    isUse entry.occurrence = true →
      (∀ before ∈ earlier, isUse before.occurrence = false ∧ isDelivered before.occurrence = false) →
        ∃ ticket call, ⟨entry.time, .accepted ticket call⟩ ∈ earlier
  /-- Nor does the pause keep a request longer than it has to: when time passes, a queued request
  waits for the one in the worker's hands or for the rest of a pause, if nobody has disposed of the
  connection. -/
  waits : connection.isSettled = true → connection.disposal = .untouched →
    connection.queue.items ≠ [] →
      (∃ item, (phase connection.worker).item? = some item) ∨
        ∃ until_, connection.worker = .guarding until_ ∧ connection.now < until_
  /-- And so no time passes before the link is used for the first request. -/
  prompt : connection.isSettled = true → connection.disposal = .untouched →
    (∀ entry ∈ connection.history,
      isUse entry.occurrence = false ∧ isDelivered entry.occurrence = false) →
      connection.docket.pending = []

/-- **In every state that a connection can come to, over any link and whatever becomes of its
requests, the guard time is kept** between a request and the next, no more of it than there has to
be, and none before the first. -/
theorem guardTime_of_run [Peer σ] (name : String) (timing : Timing) (framing : Framing)
    (wire : Wire σ) (happenings : List (Happening α)) :
    GuardTime timing.guardTime
      ((create name timing framing wire).runOver happenings : Connection σ α) := by
  let reached : Connection σ α := (create name timing framing wire).runOver happenings
  have hspaced : Spaced timing.guardTime reached :=
    spaced_of_run name timing framing wire happenings
  have hprompt : Prompt reached := prompt_of_run name timing framing wire happenings
  have haccounts : reached.docket.Accounts := accounts_of_run name timing framing wire happenings
  have hworking (huntouched : reached.disposal = .untouched) : reached.worker ≠ .stopped :=
    working_of_untouched name timing framing wire happenings huntouched
  refine ⟨fun later earlier time ticket result hsplit => ?_,
    fun happening => (beat_of_happening reached happening).history,
    fun happening item hitem => (beat_of_happening reached happening).held hitem,
    fun item hitem entry hentry hdelivered => ?_, hspaced.pause, hprompt.served,
    fun hsettled huntouched => waits_of_settled haccounts hsettled (hworking huntouched),
    fun hsettled huntouched hfresh => ?_⟩
  · have horder := hspaced.chronicle.order
    have hapart := hspaced.chronicle.apart
    rw [hsplit] at horder hapart
    refine ⟨(List.pairwise_cons.mp (List.pairwise_append.mp horder).2.1).1, ?_⟩
    intro entry hentry huse
    exact micros_le_of_ticks ((List.pairwise_append.mp hapart).2.2 entry hentry _
      List.mem_cons_self huse rfl)
  · exact micros_le_of_ticks
      (hspaced.rested reached.now (ready?_of_item hitem) entry hentry hdelivered)
  · exact pending_eq_nil_of_settled (InLine.of_run name timing framing wire happenings) haccounts
      (Custody.Begun.of_run name timing framing wire happenings) hspaced hsettled hfresh
      (hworking huntouched)

/-- Two requests at once: the second is sent when the guard time of 1750 microseconds is over. -/
example :
    let ask (frame : Bytes) : Operation Bytes := .invoke frame (fun bytes => !bytes.isEmpty) .done
    let initial : Connection Responder Bytes := create "line" .serial .rtu { peer := .echo [] }
    let posts : List (Action Bytes) :=
      [.start (ask [0x0A]) false, .start (ask [0x0B]) false, .caller 0, .caller 1]
    let rests : List (Action Bytes) :=
      List.replicate 9 .worker ++ [.caller 0, .caller 0] ++ List.replicate 3 (.timer .rearmed)
    let waits : List (Action Bytes) := [.worker, .advance 1, .worker, .advance 3, .advance 2]
    let reached := initial.run (posts ++ rests ++ waits ++ List.replicate 7 .worker)
    (reached.history.reverse.filter fun entry =>
        match entry.occurrence with
        | .wire (.sent _) => true
        | .delivered _ _ => true
        | _ => false).map Entry.time = [0, 0, 2] := by
  cbv

end Connection

end Modbus
