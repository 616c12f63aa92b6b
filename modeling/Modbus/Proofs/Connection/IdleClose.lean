import Mathlib.Data.Option.Basic
import Modbus.Proofs.Connection.Coherence

/-!
# When an unused link is closed

The idle timer waits for a deadline that it read at some time, and for the link after that; in the
meantime requests may be completed and put the deadline off, or fail and close the link, which may
then be opened again.  This file shows that the timer closes the link in time all the same
(`idleClose_of_run`): never while an exchange is in progress, never before the link has been unused
for as long as it may be, and never later.  Only a link that somebody else had opened is not closed
before something has been completed over it (`open_link_never_closed`).

Two facts carry the argument.  The deadline, as long as there is one, is that of the last completed
request (`Dated`): it is set when one is completed, before the link is handed on, and every other
end of an exchange closes the link.  And a timer that watches another deadline than this one has been
woken to read it (`Watchful`), so that at rest it watches the right one.
-/

namespace Modbus

/-- A request has been completed, and its reply is about to be delivered. -/
def Stage.isCompleting : Stage → Bool
  | .delivering _ (.ok _) => true
  | _ => false

/-- When a request was completed, if this is what happened. -/
def Entry.completion? (entry : Entry) : Option Nat :=
  match entry.occurrence with
  | .delivered _ (.ok _) => some entry.time
  | _ => none

namespace Connection

variable {σ α : Type}

/-- **When a request was last completed**, if one has been. -/
def lastCompletion? (history : List Entry) : Option Nat :=
  history.findSome? Entry.completion?

variable {c c' : Custody}

lemma lastCompletion?_note {occurrence : Occurrence}
    (hother : ∀ ticket reply, occurrence ≠ .delivered ticket (.ok reply)) :
    lastCompletion? (c.note occurrence).history = lastCompletion? c.history := by
  have hnone : Entry.completion? ⟨c.now, occurrence⟩ = none := by
    rw [Entry.completion?]
    split
    · rename_i ticket reply hsame
      exact absurd hsame (hother ticket reply)
    · rfl
  rw [lastCompletion?, Custody.note, List.findSome?_cons, hnone, lastCompletion?]

/-- What happens on the link completes no request. -/
lemma lastCompletion?_notes (c : Custody) (events : List Wire.Event) :
    lastCompletion? (c.notes events).history = lastCompletion? c.history := by
  have hnone : (events.map fun event => (⟨c.now, .wire event⟩ : Entry)).reverse.findSome?
      Entry.completion? = none := by
    simp [Entry.completion?]
  rw [lastCompletion?, Custody.notes, List.findSome?_append, hnone, Option.none_or, lastCompletion?]

/-- An attempt to open the link changes nothing but where the worker is and what the link is. -/
lemma Attempted.exists_eq {item : Queued} (h : Attempted item c c') :
    ∃ stage state connected events, stage.exchanging? = some item ∧
      c' = { c.notes events with stage, state, connected } := by
  cases h with
  | opened => exact ⟨_, _, _, [.opened], rfl, rfl⟩
  | opening => exact ⟨_, c.state, c.connected, [], rfl, rfl⟩
  | failed hevents => exact ⟨_, c.state, c.connected, _, rfl, rfl⟩
  | gaveUp hevents => exact ⟨_, _, c.connected, _, rfl, rfl⟩

/-! ## The deadline -/

/-- **The deadline is that of the last completed request**, and there is one as long as the link is
open and not in use.  Only of a link that somebody else had opened there is none before a request is
completed. -/
structure Dated (wasOpen : Prop) (c : Custody) : Prop where
  known : ∀ deadline, c.deadline = some deadline →
    (c.stage.isCompleting = true ∧ deadline = c.now + c.allowance) ∨
      (c.stage.isCompleting = false ∧
        ∃ done, lastCompletion? c.history = some done ∧ deadline = done + c.allowance)
  armed : c.connected = true → c.stage.exchanging? = none → c.shutdown = false →
    c.deadline.isSome = true ∨
      (wasOpen ∧ c.stage.isCompleting = false ∧ lastCompletion? c.history = none)

namespace Dated

variable {wasOpen : Prop}

/-- No request is completed, and none of the deadline's conditions arises. -/
lemma keep (h : Dated wasOpen c) (hdeadline : c'.deadline = c.deadline)
    (hallowance : c'.allowance = c.allowance)
    (hcompleting : c'.stage.isCompleting = c.stage.isCompleting)
    (hnow : c.stage.isCompleting = true → c'.now = c.now)
    (hlast : lastCompletion? c'.history = lastCompletion? c.history)
    (harmed : c'.connected = true → c'.stage.exchanging? = none → c'.shutdown = false →
      c.connected = true ∧ c.stage.exchanging? = none ∧ c.shutdown = false) :
    Dated wasOpen c' where
  known deadline h' := by
    rw [hcompleting, hlast, hallowance]
    rcases h.known deadline (hdeadline ▸ h') with ⟨hbusy, hdate⟩ | hdone
    · exact .inl ⟨hbusy, hnow hbusy ▸ hdate⟩
    · exact .inr hdone
  armed hopen hidle hrunning := by
    obtain ⟨hopen, hidle, hrunning⟩ := harmed hopen hidle hrunning
    rw [hdeadline, hcompleting, hlast]
    exact h.armed hopen hidle hrunning

/-- Nothing changes that has to do with the deadline. -/
lemma aside (h : Dated wasOpen c) (hdeadline : c'.deadline = c.deadline)
    (hallowance : c'.allowance = c.allowance) (hstage : c'.stage = c.stage) (hnow : c'.now = c.now)
    (hlast : lastCompletion? c'.history = lastCompletion? c.history)
    (hconnected : c'.connected = c.connected) (hshutdown : c'.shutdown = c.shutdown) :
    Dated wasOpen c' :=
  h.keep hdeadline hallowance (hstage ▸ rfl) (fun _ => hnow) hlast fun hopen hidle hrunning =>
    ⟨hconnected ▸ hopen, hstage ▸ hidle, hshutdown ▸ hrunning⟩

/-- The worker goes on with its exchange. -/
lemma onward (h : Dated wasOpen c) {stage : Stage} (state : LinkState) (connected : Bool)
    (events : List Wire.Event) (hbefore : c.stage.exchanging?.isSome = true)
    (hafter : stage.exchanging?.isSome = true) :
    Dated wasOpen { c.notes events with stage, state, connected } := by
  have hbusy {stage : Stage} (hexchanging : stage.exchanging?.isSome = true) :
      stage.isCompleting = false := by
    cases stage <;> first | rfl | simp [Stage.exchanging?] at hexchanging
  refine h.keep rfl rfl ((hbusy hafter).trans (hbusy hbefore).symm) (fun _ => rfl)
    (lastCompletion?_notes c events) fun _ hidle _ => ?_
  simp [show stage.exchanging? = none from hidle] at hafter

/-- An attempt to open the link is part of an exchange. -/
lemma of_attempted (h : Dated wasOpen c) {item : Queued}
    (hbefore : c.stage.exchanging?.isSome = true) (hattempted : Attempted item c c') :
    Dated wasOpen c' := by
  obtain ⟨stage, state, connected, events, hexchanging, rfl⟩ := hattempted.exists_eq
  exact h.onward state connected events hbefore (by simp [hexchanging])

/-- The link is closed. -/
lemma reset (h : Dated wasOpen c) : Dated wasOpen c.reset :=
  h.keep rfl rfl rfl (fun _ => rfl) (lastCompletion?_notes c _) fun hopen _ _ =>
    absurd hopen Bool.false_ne_true

lemma note (h : Dated wasOpen c) {occurrence : Occurrence}
    (hother : ∀ ticket reply, occurrence ≠ .delivered ticket (.ok reply)) :
    Dated wasOpen (c.note occurrence) :=
  h.aside rfl rfl rfl rfl (lastCompletion?_note hother) rfl rfl

/-- With no deadline there is nothing to know about it. -/
lemma cleared (hdeadline : c.deadline = none) (hrest : c.connected = true → c.shutdown = true) :
    Dated wasOpen c where
  known deadline hsome := by simp [hdeadline] at hsome
  armed hopen _ hrunning := by simp [hrest hopen] at hrunning

lemma spend (h : Dated wasOpen c) (deadline : Nat) : Dated wasOpen (c.spend deadline) := by
  rw [Custody.spend]
  split_ifs with hsame hopen
  · exact cleared rfl fun hopen => absurd hopen Bool.false_ne_true
  · exact cleared rfl fun hopen' => absurd hopen' hopen
  · exact h

lemma isCompleting_of_waits {stage : Stage} (hwaits : stage.isRunning = false) :
    stage.isCompleting = false := by
  cases stage <;> first | rfl | simp [Stage.isRunning] at hwaits

lemma isCompleting_of_away {stage : Stage} (haway : stage.isAway = true) :
    stage.isCompleting = false := by
  cases stage <;> first | rfl | simp [Stage.isAway] at haway

/-- A result is delivered: if it is a reply, the request is now the last one that was completed. -/
lemma deliver (h : Dated wasOpen c) {item : Queued} {result : Result Bytes} {stage : Stage}
    (hstage : c.stage = .delivering item result)
    (hlater : stage = .fetching ∨ ∃ until_, stage = .guarding until_) :
    Dated wasOpen { c.note (.delivered item.ticket result) with stage } := by
  have hidle : c.stage.exchanging? = none := by simp [hstage, Stage.exchanging?]
  have hafter : stage.isCompleting = false := by
    rcases hlater with rfl | ⟨until_, rfl⟩ <;> rfl
  cases result with
  | ok reply =>
      have hbefore : c.stage.isCompleting = true := by simp [hstage, Stage.isCompleting]
      refine ⟨fun deadline hset => .inr ⟨hafter, c.now, rfl, ?_⟩, fun hopen _ hrunning => ?_⟩
      · rcases h.known deadline hset with ⟨-, hdate⟩ | ⟨hnot, -⟩
        · exact hdate
        · simp [hbefore] at hnot
      · rcases h.armed hopen hidle hrunning with hset | ⟨-, hnot, -⟩
        · exact .inl hset
        · simp [hbefore] at hnot
  | error error =>
      have hbefore : c.stage.isCompleting = false := by simp [hstage, Stage.isCompleting]
      exact h.keep rfl rfl (hafter.trans hbefore.symm) (fun _ => rfl)
        (lastCompletion?_note (by simp)) fun hopen _ hrunning => ⟨hopen, hidle, hrunning⟩

/-- **Every shift keeps the deadline that of the last completed request.** -/
lemma of_shift (h : Dated wasOpen c) (htidy : c.Tidy)
    (hdisposing : c.disposal ≠ .untouched → c.shutdown = true) (hshift : Shift c c') :
    Dated wasOpen c' := by
  cases hshift with
  | away hbefore hafter hstopped =>
      have hidle := exchanging_of_away hbefore
      refine h.keep rfl rfl ?_ (fun _ => rfl) rfl fun hopen _ hrunning => ⟨hopen, hidle, hrunning⟩
      rcases hafter with hafter | ⟨item, error, rfl⟩
      · exact (isCompleting_of_away hafter).trans (isCompleting_of_away hbefore).symm
      · exact (isCompleting_of_away hbefore).symm
  | request hstage =>
      refine h.keep rfl rfl ?_ (fun _ => rfl) rfl fun hopen _ hrunning =>
        ⟨hopen, by simp [hstage, Stage.exchanging?], hrunning⟩
      simp only [hstage]
      split_ifs <;> rfl
  | withdraw hstage =>
      exact h.keep rfl rfl (by simp [hstage, Stage.isCompleting]) (fun _ => rfl) rfl
        fun hopen _ hrunning => ⟨hopen, by simp [hstage, Stage.exchanging?], hrunning⟩
  | granted hstage hheld =>
      exact h.keep rfl rfl (by simp [hstage, Stage.isCompleting]) (fun _ => rfl) rfl
        fun hopen _ hrunning => ⟨hopen, by simp [hstage, Stage.exchanging?], hrunning⟩
  | use hstage hopen =>
      exact h.onward c.state c.connected [] (by simp [hstage, Stage.exchanging?]) rfl
  | reconnect hstage hclosed =>
      exact h.onward .connecting c.connected [] (by simp [hstage, Stage.exchanging?]) rfl
  | attempt hstage hattempted =>
      refine (h.reset.note (by simp)).of_attempted ?_ hattempted
      change c.stage.exchanging?.isSome = true
      simp [hstage, Stage.exchanging?]
  | opening hstage hattempted =>
      exact h.of_attempted (by simp [hstage, Stage.exchanging?]) hattempted
  | again hstage => exact h.onward c.state c.connected [] (by simp [hstage, Stage.exchanging?]) rfl
  | fail hexchanging hpending herror hevents =>
      exact h.onward c.state c.connected _ (by simp [hexchanging]) rfl
  | send hstage hopen =>
      exact h.onward c.state c.connected _ (by simp [hstage, Stage.exchanging?]) rfl
  | read hstage hlater hevents =>
      refine h.onward c.state c.connected _ ?_ ?_
      · rcases hstage with hstage | ⟨expiresAt, hstage⟩ <;> simp [hstage, Stage.exchanging?]
      · rcases hlater with ⟨received, rfl⟩ | ⟨received, expiresAt, rfl⟩ <;> rfl
  | complete hstage hopen =>
      exact h.onward c.state c.connected _ (by simp [hstage, Stage.exchanging?]) rfl
  | keep hstage =>
      refine ⟨fun deadline hset => .inl ⟨rfl, ?_⟩, fun _ _ _ => .inl rfl⟩
      exact (Option.some.inj hset).symm
  | drop hstage herror =>
      exact h.keep rfl rfl (by simp [hstage, Stage.isCompleting]) (fun _ => rfl)
        (lastCompletion?_notes c _) fun hopen _ _ => absurd hopen Bool.false_ne_true
  | spare hstage herror => simp [htidy _ _ hstage] at herror
  | deliver hstage hlater => exact h.deliver hstage hlater
  | spend hwaits htimer hheld => exact (h.spend _).aside rfl rfl rfl rfl rfl rfl rfl
  | dispose hwaits hdisposal =>
      exact h.keep rfl rfl rfl (fun _ => rfl) rfl fun _ _ hrunning =>
        absurd hrunning.symm Bool.false_ne_true
  | joinTimer hwaits hdisposal htimer =>
      exact cleared rfl fun _ => hdisposing (by simp [hdisposal])
  | unlink hwaits hdisposal hheld => exact h.reset.aside rfl rfl rfl rfl rfl rfl rfl
  | aside hwaits haside =>
      refine h.note fun ticket reply hsame => ?_
      simp [hsame, isAside] at haside
  | tick hwaits hlater =>
      exact h.keep rfl rfl rfl (fun hbusy => by simp [isCompleting_of_waits hwaits] at hbusy) rfl
        fun hopen hidle hrunning => ⟨hopen, hidle, hrunning⟩
  | _ => exact h.aside rfl rfl rfl rfl rfl rfl rfl

end Dated

/-! ## The idle timer -/

/-- **The idle timer watches the deadline**, or has been woken to read it again. -/
structure Watchful (c : Custody) : Prop where
  read : ∀ deadline, c.timer = .watching deadline → deadline ≠ c.deadline →
    c.rearmed.waiter = .woken
  waits : ∀ deadline, c.timer = .watching deadline → c.rearmed.waiter ≠ .absent
  /-- It asks for the link only after a deadline has passed. -/
  passed : ∀ deadline, c.timer = .awaitingLink deadline → deadline ≤ c.now
  onDuty : c.timer = .stopped → c.shutdown = true
  /-- Only a disposal tells it to stop. -/
  disposing : c.disposal ≠ .untouched ↔ c.shutdown = true

namespace Watchful

/-- Nothing changes that has to do with the idle timer. -/
lemma aside (h : Watchful c) (htimer : c'.timer = c.timer) (hdeadline : c'.deadline = c.deadline)
    (hrearmed : c'.rearmed = c.rearmed) (hnow : c.now ≤ c'.now)
    (hdisposal : c'.disposal = c.disposal) (hshutdown : c'.shutdown = c.shutdown) :
    Watchful c' where
  read := by rw [htimer, hdeadline, hrearmed]; exact h.read
  waits := by rw [htimer, hrearmed]; exact h.waits
  passed deadline hawaiting := Nat.le_trans (h.passed deadline (htimer ▸ hawaiting)) hnow
  onDuty := by rw [htimer, hshutdown]; exact h.onDuty
  disposing := by rw [hdisposal, hshutdown]; exact h.disposing

lemma of_attempted (h : Watchful c) {item : Queued} (hattempted : Attempted item c c') :
    Watchful c' := by
  obtain ⟨stage, state, connected, events, -, rfl⟩ := hattempted.exists_eq
  exact h.aside rfl rfl rfl (Nat.le_refl _) rfl rfl

/-- Notice of a new deadline wakes whoever waits. -/
lemma waiter_notify {signal : Signal} (hwaits : signal.waiter ≠ .absent) :
    signal.notify.waiter = .woken := by
  obtain ⟨permit, waiter⟩ := signal
  cases waiter <;> simp [Signal.notify] at hwaits ⊢

lemma waiter_await (signal : Signal) : signal.await.waiter ≠ .absent := by
  rw [Signal.await]
  split_ifs <;> simp

/-- **Every shift keeps the idle timer watchful.** -/
lemma of_shift (h : Watchful c) (hshift : Shift c c') : Watchful c' := by
  cases hshift with
  | attempt hstage hattempted =>
      have hbegun : Watchful (c.reset.note .attempted) :=
        h.aside rfl rfl rfl (Nat.le_refl _) rfl rfl
      exact hbegun.of_attempted hattempted
  | opening hstage hattempted => exact h.of_attempted hattempted
  | keep hstage =>
      refine ⟨fun deadline hwatching _ => waiter_notify (h.waits deadline hwatching),
        fun deadline hwatching => ?_, h.passed, h.onDuty, h.disposing⟩
      have hwoken : c.rearmed.notify.waiter = .woken := waiter_notify (h.waits deadline hwatching)
      exact hwoken ▸ (by simp)
  | look hwaits htimer =>
      refine ⟨?_, fun _ _ => waiter_await _, nofun, nofun, h.disposing⟩
      rintro deadline ⟨⟩ hother
      exact absurd rfl hother
  | relieve hwaits htimer hshutdown => exact ⟨nofun, nofun, nofun, fun _ => hshutdown, h.disposing⟩
  | wake hwaits htimer hwoken => exact ⟨nofun, nofun, nofun, nofun, h.disposing⟩
  | expire hwaits htimer hdue =>
      refine ⟨nofun, nofun, ?_, nofun, h.disposing⟩
      rintro deadline ⟨⟩
      exact hdue
  | @spend deadline hwaits htimer hheld =>
      obtain ⟨_, _, _, _, hspent⟩ := c.exists_spend_eq deadline
      rw [hspent]
      exact ⟨nofun, nofun, nofun, nofun, h.disposing⟩
  | dispose hwaits hdisposal =>
      exact ⟨h.read, h.waits, h.passed, fun _ => rfl, by simp⟩
  | joinWorker hdisposal hstage =>
      have hshutdown : c.shutdown = true := h.disposing.mp (by simp [hdisposal])
      exact ⟨h.read, h.waits, h.passed, h.onDuty, by simp [hshutdown]⟩
  | joinTimer hwaits hdisposal htimer =>
      have hshutdown : c.shutdown = true := h.disposing.mp (by simp [hdisposal])
      refine ⟨fun deadline hwatching => ?_, h.waits, h.passed, h.onDuty, by simp [hshutdown]⟩
      exact absurd (htimer.symm.trans hwatching) (by simp)
  | unlink hwaits hdisposal hheld =>
      have hshutdown : c.shutdown = true := h.disposing.mp (by simp [hdisposal])
      have hclosed : c.close.shutdown = true := hshutdown
      exact ⟨h.read, h.waits, h.passed, h.onDuty, by simp [hclosed]⟩
  | tick hwaits hlater => exact h.aside rfl rfl rfl hlater rfl rfl
  | _ => exact h.aside rfl rfl rfl (Nat.le_refl _) rfl rfl

end Watchful

/-! ## The clock -/

/-- When a span counted in ticks is over, so is the span. -/
lemma micros_le_of_ticks {span : Duration} {start now : Nat} (h : start + span.ticks ≤ now) :
    start * 1000 + span.micros ≤ now * 1000 := by
  rw [Duration.ticks] at h
  omega

/-- While a span counted in ticks is not over, neither is the span. -/
lemma lt_micros_of_ticks {span : Duration} {start now : Nat}
    (h : now < start + span.ticks) : now * 1000 < start * 1000 + span.micros := by
  rw [Duration.ticks] at h
  omega

/-! ## At rest -/

lemma worker_waits_of_settled [Peer σ] {connection : Connection σ α}
    (hsettled : connection.isSettled = true) : Worker.step? connection = none := by
  rw [isSettled, Option.isNone_iff_eq_none, taskStep?, Option.orElse_eq_none] at hsettled
  exact hsettled.1

lemma timer_waits_of_settled [Peer σ] {connection : Connection σ α}
    (hsettled : connection.isSettled = true) (wakeup : IdleTimer.Wakeup) :
    IdleTimer.step? connection wakeup = none := by
  rw [isSettled, Option.isNone_iff_eq_none, taskStep?, Option.orElse_eq_none,
    Option.orElse_eq_none, List.findSome?_eq_none_iff] at hsettled
  exact hsettled.2.1 wakeup (by cases wakeup <;> simp [IdleTimer.wakeups])

/-- Nobody is at rest with a reply to deliver. -/
lemma not_completing_of_settled [Peer σ] {connection : Connection σ α}
    (hsettled : connection.isSettled = true) : connection.worker.isCompleting = false := by
  have hworker := worker_waits_of_settled hsettled
  cases hstage : connection.worker with
  | delivering item result => simp [Worker.step?, hstage] at hworker
  | _ => rfl

/-- **At rest, with the link open and unused, the timer watches the deadline**, and it has not
passed. -/
lemma deadline_of_settled [Peer σ] {connection : Connection σ α}
    (hline : InLine connection.custody) (hwatchful : Watchful connection.custody)
    (hsettled : connection.isSettled = true) (huntouched : connection.disposal = .untouched)
    (hidle : connection.worker.exchanging? = none) :
    ∀ deadline, connection.idleDeadline = some deadline → connection.now < deadline := by
  intro deadline hdeadline
  have hworker := worker_waits_of_settled hsettled
  have htimer := timer_waits_of_settled hsettled
  cases hwatch : connection.timer with
  | looking => simpa [IdleTimer.step?, hwatch] using htimer .rearmed
  | watching watched =>
      have hsame : watched = connection.idleDeadline := by
        by_contra hother
        have hwoken : connection.rearmed.waiter = .woken := hwatchful.read watched hwatch hother
        simpa [IdleTimer.step?, hwatch, IdleTimer.wake?, hwoken] using htimer .rearmed
      rw [hdeadline] at hsame
      subst hsame
      simpa [IdleTimer.step?, hwatch, IdleTimer.wake?] using htimer .deadline
  | awaitingLink passed =>
      -- Whoever has the link is about to do something.
      have hin : Holder.idleTimer ∈ connection.link.line := (hline.wants .idleTimer).mpr ⟨_, hwatch⟩
      obtain ⟨holder, hholder⟩ := LinkLock.exists_holder hline.sound hin
      have hheld : connection.link.isHeldBy holder = true := beq_iff_eq.mpr hholder
      have hwants := (hline.wants holder).mp (LinkLock.mem_line_of_holder hholder)
      cases holder with
      | idleTimer => simpa [IdleTimer.step?, hwatch, hheld] using htimer .rearmed
      | disposal => exact absurd (huntouched.symm.trans hwants) (by simp)
      | worker =>
          cases hstage : connection.worker with
          | awaitingLink item =>
              simp only [Worker.step?, hstage, hheld, if_true] at hworker
              split at hworker <;> simp at hworker
          | _ => simp_all [custody, Custody.Wants, Stage.isInLine, Stage.exchanging?]
  | stopped =>
      have hshutdown : connection.shutdown = true := hwatchful.onDuty hwatch
      exact absurd huntouched (hwatchful.disposing.mpr hshutdown)

/-- Waking up does nothing to the link. -/
lemma IdleTimer.wire_of_wake {connection after : Connection σ α} {deadline : Option Nat}
    {wakeup : IdleTimer.Wakeup} (hwake : IdleTimer.wake? connection deadline wakeup = some after) :
    after.wire = connection.wire := by
  cases wakeup with
  | shutdown =>
      simp only [IdleTimer.wake?] at hwake
      split_ifs at hwake
      rw [← Option.some.inj hwake]
  | rearmed =>
      simp only [IdleTimer.wake?] at hwake
      split_ifs at hwake
      rw [← Option.some.inj hwake]
  | deadline =>
      cases deadline with
      | none => simp [IdleTimer.wake?] at hwake
      | some deadline =>
          simp only [IdleTimer.wake?] at hwake
          split_ifs at hwake
          rw [← Option.some.inj hwake]

/-- **The idle timer closes the link only when it has it**, and only if the deadline that passed is
still the one that is set. -/
lemma IdleTimer.closes [Peer σ] {connection : Connection σ α} {wakeup : IdleTimer.Wakeup}
    (hopen : connection.wire.connected = true)
    (hclosed : (connection.step (.timer wakeup)).wire.connected = false) :
    connection.worker.isRunning = false ∧ connection.link.isHeldBy .idleTimer = true ∧
      ∃ deadline, connection.timer = .awaitingLink deadline ∧
        connection.idleDeadline = some deadline := by
  simp only [step] at hclosed
  split_ifs at hclosed with hrunning
  · simp [hopen] at hclosed
  · refine ⟨by simpa using hrunning, ?_⟩
    cases htimer : connection.timer with
    | awaitingLink deadline =>
        simp only [IdleTimer.step?, htimer] at hclosed
        split_ifs at hclosed with hheld
        · refine ⟨hheld, deadline, rfl, ?_⟩
          by_contra hother
          simp [IdleTimer.expire, hother, releaseLink, hopen] at hclosed
        · simp [hopen] at hclosed
    | looking => simp [IdleTimer.step?, htimer, hopen] at hclosed
    | stopped => simp [IdleTimer.step?, htimer, hopen] at hclosed
    | watching deadline =>
        simp only [IdleTimer.step?, htimer] at hclosed
        cases hwake : IdleTimer.wake? connection deadline wakeup with
        | none => simp [hwake, hopen] at hclosed
        | some after => simp [hwake, IdleTimer.wire_of_wake hwake, hopen] at hclosed

/-! ## Runs -/

/-- The time allowed for an unused link never changes. -/
lemma Shift.allowance (hshift : Shift c c') : c'.allowance = c.allowance := by
  cases hshift with
  | attempt hstage hattempted =>
      obtain ⟨stage, state, connected, events, -, rfl⟩ := hattempted.exists_eq
      rfl
  | opening hstage hattempted =>
      obtain ⟨stage, state, connected, events, -, rfl⟩ := hattempted.exists_eq
      rfl
  | @spend deadline hwaits htimer hheld =>
      obtain ⟨_, _, _, _, hspent⟩ := c.exists_spend_eq deadline
      rw [hspent]
  | _ => rfl

/-- What holds of the idle timer after every run, over any link. -/
structure Timed (wasOpen : Prop) (allowance : Nat) (c : Custody) : Prop where
  line : InLine c
  tidy : c.Tidy
  dated : Dated wasOpen c
  watchful : Watchful c
  allowance : c.allowance = allowance

lemma timed_of_run [Peer σ] (name : String) (timing : Timing) (framing : Framing) (wire : Wire σ)
    (happenings : List (Happening α)) :
    Timed (wire.connected = true) timing.idleTimeout.ticks
      ((create name timing framing wire).runOver happenings).custody := by
  refine custody_induction (fun c c' h hshift => ?_) happenings _ (fun _ c h => ?_) ?_
  · exact ⟨h.line.of_shift hshift, h.tidy.of_shift hshift,
      h.dated.of_shift h.tidy h.watchful.disposing.mp hshift, h.watchful.of_shift hshift,
      hshift.allowance.trans h.allowance⟩
  · exact ⟨h.line.lose, h.tidy, h.dated.keep rfl rfl rfl (fun _ => rfl) rfl
      fun hopen _ _ => absurd hopen Bool.false_ne_true, h.watchful.aside rfl rfl rfl
      (Nat.le_refl _) rfl rfl, h.allowance⟩
  · refine ⟨InLine.of_run name timing framing wire [], nofun, ⟨nofun, ?_⟩,
      ⟨nofun, nofun, nofun, nofun, by simp [custody, create]⟩, rfl⟩
    exact fun hopen _ _ => .inr ⟨hopen, rfl, rfl⟩

/-- **The idle timer closes the link only while nobody else has it**, and no earlier than it may. -/
lemma due_of_run [Peer σ] (name : String) (timing : Timing) (framing : Framing) (wire : Wire σ)
    (happenings : List (Happening α)) {wakeup : IdleTimer.Wakeup} :
    let reached : Connection σ α := (create name timing framing wire).runOver happenings
    reached.wire.connected = true → (reached.step (.timer wakeup)).wire.connected = false →
      reached.worker.exchanging? = none ∧ reached.link.holder = some .idleTimer ∧
        ∃ done, lastCompletion? reached.history = some done ∧
          done * 1000 + timing.idleTimeout.micros ≤ reached.now * 1000 := by
  intro reached hopen hclosed
  have h : Timed (wire.connected = true) timing.idleTimeout.ticks reached.custody :=
    timed_of_run name timing framing wire happenings
  obtain ⟨hwaits, hheld, deadline, htimer, hdeadline⟩ := IdleTimer.closes hopen hclosed
  have hidle : reached.custody.stage.exchanging? = none := by
    simpa using h.line.idle hheld (by decide)
  have hpassed : deadline ≤ reached.now := h.watchful.passed deadline htimer
  rcases h.dated.known deadline hdeadline with ⟨hbusy, -⟩ | ⟨-, done, hdone, hdate⟩
  · exact Bool.noConfusion (hbusy.symm.trans (Dated.isCompleting_of_waits hwaits))
  · rw [h.allowance] at hdate
    exact ⟨hidle, beq_iff_eq.mp hheld, done, hdone, micros_le_of_ticks (hdate ▸ hpassed)⟩

/-- **At rest an open link that is not in use has not been unused for too long**, unless it was open
at first and nothing has been completed over it. -/
lemma inTime_of_run [Peer σ] (name : String) (timing : Timing) (framing : Framing) (wire : Wire σ)
    (happenings : List (Happening α)) :
    let reached : Connection σ α := (create name timing framing wire).runOver happenings
    reached.isSettled = true → reached.disposal = .untouched → reached.wire.connected = true →
      reached.worker.exchanging? = none →
        (∃ done, lastCompletion? reached.history = some done ∧
          reached.now * 1000 < done * 1000 + timing.idleTimeout.micros) ∨
        (wire.connected = true ∧ lastCompletion? reached.history = none) := by
  intro reached hsettled huntouched hopen hidle
  have h : Timed (wire.connected = true) timing.idleTimeout.ticks reached.custody :=
    timed_of_run name timing framing wire happenings
  have hrunning : reached.shutdown = false := by
    by_contra hshutdown
    rw [Bool.not_eq_false] at hshutdown
    exact h.watchful.disposing.mpr hshutdown huntouched
  rcases h.dated.armed hopen hidle hrunning with hset | ⟨hwasOpen, -, hnone⟩
  · obtain ⟨deadline, hdeadline⟩ := Option.isSome_iff_exists.mp hset
    have hahead := deadline_of_settled h.line h.watchful hsettled huntouched hidle
      deadline hdeadline
    rcases h.dated.known deadline hdeadline with ⟨hbusy, -⟩ | ⟨-, done, hdone, hdate⟩
    · exact Bool.noConfusion (hbusy.symm.trans (not_completing_of_settled hsettled))
    · rw [h.allowance] at hdate
      exact .inl ⟨done, hdone, lt_micros_of_ticks (hdate ▸ hahead)⟩
  · exact .inr ⟨hwasOpen, hnone⟩

/-- **An unused link is closed in time**, where the time allowed is `idleTimeout` and both it and the
clock are taken in microseconds. -/
structure IdleClose [Peer σ] (idleTimeout : Duration) (connection : Connection σ α) : Prop where
  /-- The idle timer closes the link only while nobody else has it, and no earlier than it may. -/
  due : ∀ wakeup, connection.wire.connected = true →
    (connection.step (.timer wakeup)).wire.connected = false →
      connection.worker.exchanging? = none ∧ connection.link.holder = some .idleTimer ∧
        ∃ done, lastCompletion? connection.history = some done ∧
          done * 1000 + idleTimeout.micros ≤ connection.now * 1000
  /-- At rest, an open link that is not in use has not been unused for too long. -/
  inTime : connection.isSettled = true → connection.disposal = .untouched →
    connection.wire.connected = true → connection.worker.exchanging? = none →
      ∃ done, lastCompletion? connection.history = some done ∧
        connection.now * 1000 < done * 1000 + idleTimeout.micros

/-- **In every state that a connection can come to, an unused link is closed neither too early nor
too late**, over any link that is closed at first. -/
theorem idleClose_of_run [Peer σ] (name : String) (timing : Timing) (framing : Framing)
    {wire : Wire σ} (hclosed : wire.connected = false) (happenings : List (Happening α)) :
    IdleClose timing.idleTimeout
      ((create name timing framing wire).runOver happenings : Connection σ α) := by
  refine ⟨fun wakeup => due_of_run name timing framing wire happenings,
    fun hsettled huntouched hopen hidle => ?_⟩
  rcases inTime_of_run name timing framing wire happenings hsettled huntouched hopen hidle with
    hdone | ⟨hwasOpen, -⟩
  · exact hdone
  · exact absurd (hwasOpen.symm.trans hclosed) Bool.noConfusion

/-- A request completed at once, and its link closed when it has not been used for five
milliseconds. -/
theorem closed_after_five_milliseconds :
    let ask : Operation Bytes := .invoke [0x0A] (fun bytes => !bytes.isEmpty) .done
    let wire : Wire Responder := { peer := .echo [] }
    let initial : Connection Responder Bytes :=
      create "link" { idleTimeout := .ofMillis 5 } .rtu wire
    let exchange : List (Action Bytes) := [.start ask false, .caller 0]
      ++ List.replicate 9 .worker ++ [.caller 0, .caller 0]
    let watch : List (Action Bytes) := [.timer .rearmed, .timer .rearmed, .timer .rearmed,
      .advance 9, .advance 5, .timer .deadline]
    let happenings : List (Happening Bytes) := (exchange ++ watch).map .act
    let watched := initial.runOver happenings
    let closed := watched.step (.timer .deadline)
    wire.connected = false ∧ IdleClose (.ofMillis 5) watched ∧
      (watched.wire.connected, lastCompletion? watched.history, closed.wire.connected, closed.now)
        = (true, some 0, false, 5) := by
  intro ask wire initial exchange watch happenings watched closed
  have hclosed : wire.connected = false := rfl
  refine ⟨hclosed, idleClose_of_run "link" { idleTimeout := .ofMillis 5 } .rtu hclosed happenings,
    ?_⟩
  unfold closed watched happenings exchange watch initial wire ask
  decide +kernel

/-- **A link that was open at first stays open** for as long as nothing is completed over it: nobody
has used it for a thousand seconds, and it may be unused for five milliseconds. -/
theorem open_link_never_closed :
    let wire : Wire Responder := { peer := .silent, connected := true }
    let initial : Connection Responder Bytes :=
      create "link" { idleTimeout := .ofMillis 5 } .rtu wire
    let actions : List (Action Bytes) := [.worker, .timer .rearmed, .advance 1000000]
    let reached := initial.runOver (actions.map .act)
    (reached.isSettled = true ∧ reached.disposal = .untouched ∧ reached.wire.connected = true ∧
        reached.worker.exchanging? = none ∧ lastCompletion? reached.history = none) ∧
      (reached.now = 1000000 ∧ reached.deadlines = []) ∧ ¬ IdleClose (.ofMillis 5) reached := by
  intro wire initial actions reached
  have hreached : reached.isSettled = true ∧ reached.disposal = .untouched ∧
      reached.wire.connected = true ∧ reached.worker.exchanging? = none ∧
        lastCompletion? reached.history = none :=
    ⟨rfl, rfl, rfl, rfl, rfl⟩
  have hforever : reached.now = 1000000 ∧ reached.deadlines = [] := ⟨rfl, rfl⟩
  refine ⟨hreached, hforever, fun h => ?_⟩
  obtain ⟨hsettled, huntouched, hopen, hidle, hnone⟩ := hreached
  obtain ⟨done, hdone, -⟩ := h.inTime hsettled huntouched hopen hidle
  rw [hnone] at hdone
  cases hdone

end Connection

end Modbus
