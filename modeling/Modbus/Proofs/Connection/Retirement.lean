import Modbus.Proofs.Connection.IdleClose
import Modbus.Proofs.Connection.Outcomes

/-!
# The end of a connection

A disposal may begin while the worker opens the link, waits for a reply or waits out its guard time,
and while the idle timer waits for its turn.  This file shows what becomes of the link all the same:
nothing is sent once a disposal has begun (`Unsent`), and once it is finished the link is closed and
nothing that anybody does brings it back (`finished_of_run`).

When a connection is to stop, the worker can only wind up (`Worker.Unwinds`): wherever it waits, the
first thing that it finds is that the request is over.  How far the disposal has come then says which
of the tasks have stopped (`Retired`), and with both of them stopped no shift touches the link.
-/

namespace Modbus

/-- A stage of a worker that winds up: it will not send anything. -/
def Stage.isWinding : Stage → Bool
  | .fetched _ | .linked _ | .attempting _ _ | .sending _ => false
  | _ => true

/-- The worker has been waited for. -/
def Disposal.joinedWorker : Disposal → Bool
  | .joiningTimer | .awaitingLink | .finished => true
  | _ => false

/-- Both tasks have been waited for. -/
def Disposal.joinedTimer : Disposal → Bool
  | .awaitingLink | .finished => true
  | _ => false

namespace Connection

variable {σ α : Type} {connection : Connection σ α}

/-! ## The worker winds up -/

/-- The worker of a connection that is to stop finds every request interrupted. -/
lemma interrupted_of_shutdown (hshutdown : connection.shutdown = true) (item : Queued) :
    ∃ error, connection.interruption? item = some error := by
  cases hinterruption : connection.interruption? item with
  | some error => exact ⟨error, rfl⟩
  | none =>
      have hrunning : connection.shutdown = false :=
        (fired?_eq_none.mp (Option.map_eq_none_iff.mp hinterruption)).2.1
      simp [hrunning] at hshutdown

/-- **What is left for a worker to do** whose connection is to stop. -/
inductive Worker.Unwinds (connection : Connection σ α) : Stage → Stage → Prop where
  | stop {stage : Stage} (hidle : phase stage = .idle) : Unwinds connection stage .stopped
  /-- A request that it waits with is over. -/
  | interrupt {before after : Stage} {item : Queued} {error : Error}
      (hinterruption : connection.interruption? item = some error)
      (hbefore : (phase before).item? = some item)
      (hafter : after = .concluding item (.error error) ∨ after = .delivering item (.error error)) :
      Unwinds connection before after
  /-- A read that it was woken for is gone through with. -/
  | read {item : Queued} {received : Bytes} {after : Stage} (hwinding : after.isWinding = true) :
      Unwinds connection (.receiving item received) after
  | conclude {item : Queued} {result : Result Bytes} :
      Unwinds connection (.concluding item result) (.delivering item result)
  | deliver {item : Queued} {result : Result Bytes} {after : Stage} (hidle : phase after = .idle) :
      Unwinds connection (.delivering item result) after

namespace Worker

lemma unwinds_of_resume {item : Queued} {continue_ : Option (Connection σ α)}
    {c' : Connection σ α} (hshutdown : connection.shutdown = true)
    (hbefore : (phase connection.worker).item? = some item)
    (hstep : resumeExchange connection item continue_ = some c') :
    Unwinds connection connection.worker c'.worker := by
  obtain ⟨error, hinterruption⟩ := interrupted_of_shutdown hshutdown item
  simp only [resumeExchange, hinterruption] at hstep
  exact Option.some.inj hstep ▸ .interrupt hinterruption hbefore (.inl rfl)

/-- **Every move of the worker** of a connection that is to stop winds up. -/
lemma unwinds_of_step [Peer σ] {c' : Connection σ α} (hshutdown : connection.shutdown = true)
    (hwinding : connection.worker.isWinding = true) (hstep : step? connection = some c') :
    Unwinds connection connection.worker c'.worker := by
  cases hworker : connection.worker with
  | fetching =>
      simp only [step?, hworker, fetch?, hshutdown, if_true] at hstep
      exact Option.some.inj hstep ▸ .stop rfl
  | awaitingLink item =>
      obtain ⟨error, hinterruption⟩ := interrupted_of_shutdown hshutdown item
      simp only [step?, hworker, hinterruption] at hstep
      exact Option.some.inj hstep ▸ .interrupt hinterruption rfl (.inr rfl)
  | opening item attempts opensAt expiresAt =>
      simp only [step?, hworker] at hstep
      exact hworker ▸ unwinds_of_resume hshutdown (by rw [hworker]; rfl) hstep
  | backingOff item attempts until_ =>
      simp only [step?, hworker] at hstep
      exact hworker ▸ unwinds_of_resume hshutdown (by rw [hworker]; rfl) hstep
  | stalled item received expiresAt =>
      simp only [step?, hworker] at hstep
      exact hworker ▸ unwinds_of_resume hshutdown (by rw [hworker]; rfl) hstep
  | receiving item received =>
      simp only [step?, hworker, Option.some.injEq] at hstep
      refine .read (hstep ▸ ?_)
      simp only [receive]
      split
      · rfl
      · rfl
      · rfl
      · split_ifs <;> rfl
  | concluding item result =>
      simp only [step?, hworker, Option.some.injEq] at hstep
      exact hstep ▸ .conclude
  | delivering item result =>
      simp only [step?, hworker, Option.some.injEq] at hstep
      refine hstep ▸ .deliver ?_
      simp only [moveTo, afterDelivery]
      split_ifs <;> rfl
  | guarding until_ =>
      simp only [step?, hworker, hshutdown, if_true] at hstep
      exact Option.some.inj hstep ▸ .stop rfl
  | stopped => simp [step?, hworker] at hstep
  | fetched item => simp [hworker, Stage.isWinding] at hwinding
  | linked item => simp [hworker, Stage.isWinding] at hwinding
  | attempting item attempts => simp [hworker, Stage.isWinding] at hwinding
  | sending item => simp [hworker, Stage.isWinding] at hwinding

lemma isWinding_of_idle {stage : Stage} (h : phase stage = .idle) : stage.isWinding = true := by
  cases stage <;> first | rfl | simp [phase] at h

lemma Unwinds.isWinding {before after : Stage} (h : Unwinds connection before after) :
    after.isWinding = true := by
  cases h with
  | stop hidle => rfl
  | interrupt hinterruption hbefore hafter => rcases hafter with rfl | rfl <;> rfl
  | read hwinding => exact hwinding
  | conclude => rfl
  | deliver hidle => exact isWinding_of_idle hidle

/-- A worker that winds up does not begin to read. -/
lemma Unwinds.ne_receiving {before after : Stage} (h : Unwinds connection before after)
    (hbefore : ∀ item received, before ≠ .receiving item received) (item : Queued)
    (received : Bytes) : after ≠ .receiving item received := by
  cases h with
  | stop hidle => simp
  | interrupt hinterruption hitem hafter => rcases hafter with rfl | rfl <;> simp
  | @read other earlier _ hwinding => exact absurd rfl (hbefore other earlier)
  | conclude => simp
  | deliver hidle =>
      rintro rfl
      simp [phase] at hidle

/-- **A worker that winds up** comes to no result but that its request was interrupted, unless it
reads. -/
lemma Unwinds.result {before after : Stage} (h : Unwinds connection before after)
    (hbefore : ∀ item received, before ≠ .receiving item received) {item : Queued}
    {result : Result Bytes} (hitem : (phase after).item? = some item)
    (hresult : (phase after).result? = some result) :
    (phase before).item? = some item ∧ ((phase before).result? = some result ∨
      ∃ error, result = .error error ∧ connection.interruption? item = some error) := by
  cases h with
  | stop hidle => simp [phase, Phase.item?] at hitem
  | @interrupt _ _ other error hinterruption hother hafter =>
      have hsame : other = item ∧ .error error = result := by
        rcases hafter with rfl | rfl <;>
          exact ⟨Option.some.inj hitem, Option.some.inj hresult⟩
      obtain ⟨rfl, rfl⟩ := hsame
      exact ⟨hother, .inr ⟨error, rfl, hinterruption⟩⟩
  | @read other earlier _ hwinding => exact absurd rfl (hbefore other earlier)
  | conclude => exact ⟨hitem, .inl hresult⟩
  | deliver hidle => simp [hidle, Phase.item?] at hitem

end Worker

/-- Whoever waits can be told to stop. -/
lemma isWinding_of_waits {stage : Stage} (h : stage.isRunning = false) :
    stage.isWinding = true := by
  cases stage <;> first | rfl | simp [Stage.isRunning] at h

/-- **A connection that is to stop has a worker that winds up.** -/
def Winding (connection : Connection σ α) : Prop :=
  connection.shutdown = true → connection.worker.isWinding = true

/-- Only a disposal that begins tells a connection to stop, and then the worker waits. -/
lemma shutdown_of_shift {c c' : Custody} (hshift : Shift c c') (hafter : c'.shutdown = true) :
    c.shutdown = true ∨ (c.stage.isRunning = false ∧ c'.stage = c.stage) := by
  cases hshift with
  | dispose hwaits hdisposal => exact .inr ⟨hwaits, rfl⟩
  | attempt hstage hattempted =>
      obtain ⟨stage, state, connected, events, -, rfl⟩ := hattempted.exists_eq
      exact .inl hafter
  | opening hstage hattempted =>
      obtain ⟨stage, state, connected, events, -, rfl⟩ := hattempted.exists_eq
      exact .inl hafter
  | @spend deadline hwaits htimer hheld =>
      obtain ⟨_, _, _, _, hspent⟩ := c.exists_spend_eq deadline
      rw [hspent] at hafter
      exact .inl hafter
  | _ => exact .inl hafter

/-- A link that goes on, or fails, does not make the worker send. -/
lemma isWinding_of_whim (connection : Connection σ α) (whim : Whim)
    (hwinding : connection.worker.isWinding = true) :
    (connection.indulge whim).worker.isWinding = true := by
  have hindulged := connection.indulged whim
  generalize connection.indulge whim = after at hindulged ⊢
  cases hindulged with
  | unopened fault hworker hclear =>
      rw [Worker.attemptFailed]
      split <;> rfl
  | unheeded => exact hwinding
  | lost => exact hwinding
  | _ => rfl

/-- **Every happening** leaves the worker winding up. -/
lemma Winding.of_happening [Peer σ] (h : Winding connection) (happening : Happening α) :
    Winding (connection.happen happening) := by
  intro hafter
  by_cases hlose : happening = .whim .lose
  · subst hlose
    exact h hafter
  rcases shutdown_of_shift (shift_of_happening connection hlose) hafter with hbefore |
    ⟨hwaits, hsame⟩
  · cases happening with
    | act action =>
        by_cases haction : action = .worker
        · subst haction
          change ((Worker.step? connection).getD connection).worker.isWinding = true
          cases hstep : Worker.step? connection with
          | none => exact h hbefore
          | some moved => exact (Worker.unwinds_of_step hbefore (h hbefore) hstep).isWinding
        · change (connection.step action).worker.isWinding = true
          rw [worker_of_step connection haction]
          exact h hbefore
    | whim whim => exact isWinding_of_whim connection whim (h hbefore)
  · have hworker : (connection.happen happening).worker = connection.worker := hsame
    rw [hworker]
    exact isWinding_of_waits hwaits

lemma Winding.of_run [Peer σ] : ∀ (happenings : List (Happening α)) (connection : Connection σ α),
    Winding connection → Winding (connection.runOver happenings)
  | [], _, h => h
  | happening :: happenings, connection, h =>
      Winding.of_run happenings (connection.happen happening) (h.of_happening happening)

/-! ## Nothing is sent -/

/-- **Nothing is sent between two custodies**, and the link is not opened. -/
def Unsent (c c' : Custody) : Prop :=
  ∃ events, c'.events = c.events ++ events ∧ .opened ∉ events ∧ ∀ frame, .sent frame ∉ events

namespace Unsent

variable {c middle c' : Custody}

lemma trans (h : Unsent c middle) (h' : Unsent middle c') : Unsent c c' := by
  obtain ⟨first, hfirst, hunopened, hunsent⟩ := h
  obtain ⟨second, hsecond, hunopened', hunsent'⟩ := h'
  refine ⟨first ++ second, by rw [hsecond, hfirst, List.append_assoc], ?_, fun frame => ?_⟩
  · simp [hunopened, hunopened']
  · simp [hunsent frame, hunsent' frame]

lemma stay (hevents : c'.events = c.events) : Unsent c c' :=
  ⟨[], by rw [hevents, List.append_nil], by simp, by simp⟩

lemma notes {events : List Wire.Event} (hevents : c'.events = c.events ++ events)
    (hother : events = [] ∨ events = [.closed] ∨ events = [.refused] ∨
      ∃ chunk, events = [.received chunk]) : Unsent c c' := by
  refine ⟨events, hevents, ?_, fun frame => ?_⟩
  · rcases hother with rfl | rfl | rfl | ⟨chunk, rfl⟩ <;> simp
  · rcases hother with rfl | rfl | rfl | ⟨chunk, rfl⟩ <;> simp

lemma of_reset (hevents : c'.events = c.reset.events) : Unsent c c' := by
  refine notes (hevents.trans (events_notes c _)) ?_
  split_ifs
  · exact .inr (.inl rfl)
  · exact .inl rfl

/-- **A shift of a worker that winds up** sends nothing. -/
lemma of_shift (hbefore : c.stage.isWinding = true) (hafter : c'.stage.isWinding = true)
    (hshift : Shift c c') : Unsent c c' := by
  cases hshift with
  | attempt hstage hattempted => simp [hstage, Stage.isWinding] at hbefore
  | send hstage hopen => simp [hstage, Stage.isWinding] at hbefore
  | opening hstage hattempted =>
      cases hattempted with
      | opened => simp [Stage.isWinding] at hafter
      | opening => exact stay rfl
      | failed hevents =>
          exact notes (events_notes c _) (hevents.imp_right fun h => .inr (.inl h))
      | gaveUp hevents =>
          exact notes (events_notes c _) (hevents.imp_right fun h => .inr (.inl h))
  | fail hexchanging hpending herror hevents =>
      exact notes (events_notes c _) (hevents.imp_right fun h => .inr (.inr h))
  | read hstage hlater hevents =>
      exact notes (events_notes c _) (hevents.imp_right fun h => .inr (.inr h))
  | complete hstage hopen => exact notes (events_notes c _) (.inr (.inr (.inr ⟨_, rfl⟩)))
  | drop hstage herror => exact of_reset rfl
  | unlink hwaits hdisposal hheld => exact of_reset rfl
  | deliver hstage hlater => exact stay (events_note c (by simp))
  | @spend deadline hwaits htimer hheld =>
      have hspent : Unsent c (c.spend deadline) := by
        rw [Custody.spend]
        split_ifs
        · have hnoted : Unsent c ({ c with deadline := none }.note .expired) :=
            stay (events_note _ (by simp))
          exact hnoted.trans (of_reset rfl)
        · exact stay rfl
        · exact stay rfl
      exact hspent.trans (stay rfl)
  | aside hwaits haside =>
      refine stay (events_note c fun event hwire => ?_)
      simp [hwire, isAside] at haside
  | _ => exact stay rfl

/-- **A run of a connection that is to stop** sends nothing. -/
lemma of_run [Peer σ] : ∀ (happenings : List (Happening α)) (connection : Connection σ α),
    connection.shutdown = true → Winding connection →
      Unsent connection.custody (connection.runOver happenings).custody
  | [], _, _, _ => stay rfl
  | happening :: happenings, connection, hshutdown, hwinding => by
      have hstays : (connection.happen happening).shutdown = true :=
        (amendment_of_happening connection happening).onward.shutdown hshutdown
      have hlater := of_run happenings (connection.happen happening) hstays
        (hwinding.of_happening happening)
      refine trans ?_ hlater
      by_cases hlose : happening = .whim .lose
      · subst hlose
        exact stay rfl
      · exact of_shift (hwinding hshutdown) (hwinding.of_happening happening hstays)
          (shift_of_happening connection hlose)

end Unsent

/-! ## What has stopped -/

/-- **How far a disposal has come** says which of the tasks have stopped. -/
structure Custody.Retired (c : Custody) : Prop where
  worker : c.disposal.joinedWorker = true → c.stage = .stopped
  timer : c.disposal.joinedTimer = true → c.timer = .stopped ∧ c.deadline = none
  link : c.disposal = .finished → c.connected = false ∧ c.state = .disconnected

lemma joinedWorker_of_joinedTimer {disposal : Disposal} (h : disposal.joinedTimer = true) :
    disposal.joinedWorker = true := by
  cases disposal <;> first | rfl | exact h

namespace Custody.Retired

variable {c c' : Custody}

/-- While the worker is at work, or the idle timer, there is nothing that has stopped. -/
lemma busy (h : c.Retired) (hstage : c.stage ≠ .stopped) (hdisposal : c'.disposal = c.disposal) :
    c'.Retired where
  worker hjoined := absurd (h.worker (hdisposal ▸ hjoined)) hstage
  timer hjoined := absurd (h.worker (joinedWorker_of_joinedTimer (hdisposal ▸ hjoined))) hstage
  link hfinished := absurd (h.worker (by rw [← hdisposal, hfinished]; rfl)) hstage

lemma watching (h : c.Retired) (htimer : c.timer ≠ .stopped) (hdisposal : c'.disposal = c.disposal)
    (hstage : c'.stage = c.stage) : c'.Retired where
  worker hjoined := hstage.trans (h.worker (hdisposal ▸ hjoined))
  timer hjoined := absurd (h.timer (hdisposal ▸ hjoined)).1 htimer
  link hfinished := absurd (h.timer (by rw [← hdisposal, hfinished]; rfl)).1 htimer

/-- **Every shift** leaves stopped what has stopped. -/
lemma of_shift (h : c.Retired) (hstays : c.stage = .stopped → c'.stage = .stopped)
    (hshift : Shift c c') : c'.Retired := by
  cases hshift with
  | rest => exact h
  | away hbefore hafter hstopped =>
      exact ⟨fun hjoined => hstays (h.worker hjoined), h.timer, h.link⟩
  | request hstage => exact h.busy (by simp [hstage]) rfl
  | withdraw hstage => exact h.busy (by simp [hstage]) rfl
  | granted hstage hheld => exact h.busy (by simp [hstage]) rfl
  | use hstage hopen => exact h.busy (by simp [hstage]) rfl
  | reconnect hstage hclosed => exact h.busy (by simp [hstage]) rfl
  | attempt hstage hattempted => exact h.busy (by simp [hstage]) hattempted.tasks.2.2
  | opening hstage hattempted => exact h.busy (by simp [hstage]) hattempted.tasks.2.2
  | again hstage => exact h.busy (by simp [hstage]) rfl
  | fail hexchanging hpending herror hevents =>
      refine h.busy (fun hstopped => ?_) rfl
      simp [hstopped, Stage.exchanging?] at hexchanging
  | send hstage hopen => exact h.busy (by simp [hstage]) rfl
  | read hstage hlater hevents =>
      refine h.busy ?_ rfl
      rcases hstage with hstage | ⟨expiresAt, hstage⟩ <;> simp [hstage]
  | complete hstage hopen => exact h.busy (by simp [hstage]) rfl
  | keep hstage => exact h.busy (by simp [hstage]) rfl
  | drop hstage herror => exact h.busy (by simp [hstage]) rfl
  | spare hstage herror => exact h.busy (by simp [hstage]) rfl
  | deliver hstage hlater => exact h.busy (by simp [hstage]) rfl
  | look hwaits htimer => exact h.watching (by simp [htimer]) rfl rfl
  | relieve hwaits htimer hshutdown => exact h.watching (by simp [htimer]) rfl rfl
  | wake hwaits htimer hwoken => exact h.watching (by simp [htimer]) rfl rfl
  | expire hwaits htimer hdue => exact h.watching (by simp [htimer]) rfl rfl
  | @spend deadline hwaits htimer hheld =>
      obtain ⟨_, _, _, _, hspent⟩ := c.exists_spend_eq deadline
      rw [hspent]
      exact h.watching (by simp [htimer]) rfl rfl
  | dispose hwaits hdisposal =>
      exact ⟨by simp [Disposal.joinedWorker], by simp [Disposal.joinedTimer], by simp⟩
  | joinWorker hdisposal hstage =>
      exact ⟨fun _ => hstage, by simp [Disposal.joinedTimer], by simp⟩
  | joinTimer hwaits hdisposal htimer =>
      exact ⟨fun _ => h.worker (by rw [hdisposal]; rfl), fun _ => ⟨htimer, rfl⟩, by simp⟩
  | unlink hwaits hdisposal hheld =>
      exact ⟨fun _ => h.worker (by rw [hdisposal]; rfl), fun _ => h.timer (by rw [hdisposal]; rfl),
        fun _ => ⟨rfl, rfl⟩⟩
  | aside hwaits haside => exact ⟨h.worker, h.timer, h.link⟩
  | tick hwaits hlater => exact ⟨h.worker, h.timer, h.link⟩

lemma lose (h : c.Retired) : ({ c with connected := false } : Custody).Retired :=
  ⟨h.worker, h.timer, fun hfinished => ⟨rfl, (h.link hfinished).2⟩⟩

/-- **After a disposal is finished** nothing happens but on the side of the calls. -/
lemma aside_of_shift (h : c.Retired) (hfinished : c.disposal = .finished) (hshift : Shift c c') :
    c'.disposal = .finished ∧ ∃ entries, c'.history = entries ++ c.history ∧
      ∀ entry ∈ entries, isAside entry.occurrence = true := by
  have hstopped : c.stage = .stopped := h.worker (by rw [hfinished]; rfl)
  have htimer : c.timer = .stopped := (h.timer (by rw [hfinished]; rfl)).1
  have hquiet {later : Custody} (hdisposal : later.disposal = c.disposal)
      (hhistory : later.history = c.history) :
      later.disposal = .finished ∧ ∃ entries, later.history = entries ++ c.history ∧
        ∀ entry ∈ entries, isAside entry.occurrence = true :=
    ⟨hdisposal.trans hfinished, [], hhistory, by simp⟩
  cases hshift with
  | rest => exact hquiet rfl rfl
  | away hbefore hafter hleft => exact hquiet rfl rfl
  | tick hwaits hlater => exact hquiet rfl rfl
  | aside hwaits haside => exact ⟨hfinished, [⟨c.now, _⟩], rfl, by simpa using haside⟩
  | fail hexchanging hpending herror hevents => simp [hstopped, Stage.exchanging?] at hexchanging
  | read hstage hlater hevents => simp [hstopped] at hstage
  | look hwaits hlooking => simp [htimer] at hlooking
  | relieve hwaits hwatching hshutdown => simp [htimer] at hwatching
  | wake hwaits hwatching hwoken => simp [htimer] at hwatching
  | expire hwaits hwatching hdue => simp [htimer] at hwatching
  | spend hwaits hawaiting hheld => simp [htimer] at hawaiting
  | dispose hwaits hdisposal => simp [hfinished] at hdisposal
  | joinWorker hdisposal hstage => simp [hfinished] at hdisposal
  | joinTimer hwaits hdisposal hjoined => simp [hfinished] at hdisposal
  | unlink hwaits hdisposal hheld => simp [hfinished] at hdisposal
  | request hstage => simp [hstopped] at hstage
  | withdraw hstage => simp [hstopped] at hstage
  | granted hstage hheld => simp [hstopped] at hstage
  | use hstage hopen => simp [hstopped] at hstage
  | reconnect hstage hclosed => simp [hstopped] at hstage
  | attempt hstage hattempted => simp [hstopped] at hstage
  | opening hstage hattempted => simp [hstopped] at hstage
  | again hstage => simp [hstopped] at hstage
  | send hstage hopen => simp [hstopped] at hstage
  | complete hstage hopen => simp [hstopped] at hstage
  | keep hstage => simp [hstopped] at hstage
  | drop hstage herror => simp [hstopped] at hstage
  | spare hstage herror => simp [hstopped] at hstage
  | deliver hstage hlater => simp [hstopped] at hstage

end Custody.Retired

/-- **A worker that has stopped** stays so. -/
lemma stopped_of_happening [Peer σ] (happening : Happening α)
    (hstopped : connection.worker = .stopped) :
    (connection.happen happening).worker = .stopped := by
  cases happening with
  | act action =>
      by_cases haction : action = .worker
      · subst haction
        change ((Worker.step? connection).getD connection).worker = .stopped
        simp [Worker.step?, hstopped]
      · exact (worker_of_step connection haction).trans hstopped
  | whim whim => cases whim <;> simp [happen, indulge, modifyWire, hstopped]

lemma retired_of_happening [Peer σ] (happening : Happening α)
    (h : connection.custody.Retired) : (connection.happen happening).custody.Retired := by
  by_cases hlose : happening = .whim .lose
  · subst hlose
    rw [custody_lose]
    exact h.lose
  · exact h.of_shift (stopped_of_happening happening) (shift_of_happening connection hlose)

lemma retired_of_run [Peer σ] : ∀ (happenings : List (Happening α)) (connection : Connection σ α),
    connection.custody.Retired → (connection.runOver happenings).custody.Retired
  | [], _, h => h
  | happening :: happenings, connection, h =>
      retired_of_run happenings (connection.happen happening) (retired_of_happening happening h)

/-- **A finished disposal stays finished**, whatever happens, and nothing happens on the link. -/
lemma finished_of_run [Peer σ] : ∀ (happenings : List (Happening α)) (connection : Connection σ α),
    connection.custody.Retired → connection.disposal = .finished →
      (connection.runOver happenings).disposal = .finished ∧
        ∃ entries, (connection.runOver happenings).history = entries ++ connection.history ∧
          ∀ entry ∈ entries, isAside entry.occurrence = true
  | [], _, _, hfinished => ⟨hfinished, [], rfl, by simp⟩
  | happening :: happenings, connection, h, hfinished => by
      have hstep : (connection.happen happening).disposal = .finished ∧
          ∃ entries, (connection.happen happening).history = entries ++ connection.history ∧
            ∀ entry ∈ entries, isAside entry.occurrence = true := by
        by_cases hlose : happening = .whim .lose
        · subst hlose
          exact ⟨hfinished, [], rfl, by simp⟩
        · exact h.aside_of_shift hfinished (shift_of_happening connection hlose)
      obtain ⟨hstill, first, hfirst, haside⟩ := hstep
      obtain ⟨hend, second, hsecond, haside'⟩ :=
        finished_of_run happenings (connection.happen happening) (retired_of_happening happening h)
          hstill
      refine ⟨hend, second ++ first, ?_, fun entry hentry => ?_⟩
      · rw [List.append_assoc, ← hfirst]
        exact hsecond
      · exact (List.mem_append.mp hentry).elim (haside' entry) (haside entry)

end Connection

end Modbus
