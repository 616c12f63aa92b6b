import Modbus.Connection.Range
import Modbus.Proofs.Connection.Attempting
import Modbus.Proofs.Connection.Shifts
import Modbus.Settings.Link

/-!
# Short spans stay in range

The spans of a link's settings are whole numbers of 64 bits, of milliseconds or less
(`LinkSettings.isShort_of_ofValue?`).  That is far from where spans and clocks end: a doubled pause
still fits (`Duration.IsShort.fits_doubled`), and every time that a connection puts down lies within
so many milliseconds of its clock (`InRange.of_run`).

Two facts about the worker carry the second part.  A pause is never longer than the policy allows,
since what the worker keeps for its attempts is one of the two bounds or less (`InRange.backoff`).
And each of its deadlines is the time at which it is put down and one of the spans of the policy
(`Worker.deadline_of_step`).
-/

namespace Modbus

/-! ## Short spans -/

/-- **A short span**: its milliseconds are a number of 64 bits. -/
def Duration.IsShort (span : Duration) : Prop :=
  span.micros < UInt64.size * 1000

namespace Duration.IsShort

variable {span : Duration}

lemma ofMillis {millis : Nat} (h : millis < UInt64.size) : (Duration.ofMillis millis).IsShort :=
  Nat.mul_lt_mul_of_pos_right h (by decide)

lemma ticks_le (h : span.IsShort) : span.ticks ≤ UInt64.size := by
  simp only [IsShort, UInt64.size] at h ⊢
  simp only [ticks]
  omega

/-- **A short span can be doubled.** -/
lemma fits_doubled (h : span.IsShort) : span.doubled.fits = true := by
  simp only [IsShort, UInt64.size] at h
  refine decide_eq_true ?_
  simp only [doubled, limit, UInt64.size]
  omega

lemma of_le {shorter : Duration} (h : span.IsShort) (hle : shorter.micros ≤ span.micros) :
    shorter.IsShort :=
  Nat.lt_of_le_of_lt hle h

end Duration.IsShort

namespace Timing

def spans (timing : Timing) : List Duration :=
  timing.connectTimeout.toList ++ [timing.readTimeout, timing.writeTimeout, timing.idleTimeout,
    timing.guardTime, timing.minBackoff, timing.maxBackoff]

/-- **A policy of short spans.** -/
def IsShort (timing : Timing) : Prop :=
  ∀ span ∈ timing.spans, span.IsShort

namespace IsShort

variable {timing : Timing}

lemma readTimeout (h : timing.IsShort) : timing.readTimeout.IsShort := h _ (by simp [spans])

lemma idleTimeout (h : timing.IsShort) : timing.idleTimeout.IsShort := h _ (by simp [spans])

lemma guardTime (h : timing.IsShort) : timing.guardTime.IsShort := h _ (by simp [spans])

lemma minBackoff (h : timing.IsShort) : timing.minBackoff.IsShort := h _ (by simp [spans])

lemma maxBackoff (h : timing.IsShort) : timing.maxBackoff.IsShort := h _ (by simp [spans])

end IsShort

end Timing

/-! ## Settings -/

namespace Settings.Value

lemma lt_of_natBelow? {bound number : Nat} {value : Value}
    (h : value.natBelow? bound = some number) : number < bound := by
  cases value with
  | int value =>
      simp only [natBelow?] at h
      split_ifs at h
      obtain rfl := Option.some.inj h
      omega
  | _ => cases h

lemma isShort_of_millis? {value : Value} {span : Duration} (h : value.millis? = some span) :
    span.IsShort := by
  obtain ⟨number, hnumber, rfl⟩ := Option.map_eq_some_iff.mp h
  exact .ofMillis (lt_of_natBelow? hnumber)

lemma isShort_of_micros? {value : Value} {span : Duration} (h : value.micros? = some span) :
    span.IsShort := by
  obtain ⟨number, hnumber, rfl⟩ := Option.map_eq_some_iff.mp h
  exact Nat.lt_of_lt_of_le (lt_of_natBelow? hnumber) (Nat.le_mul_of_pos_right _ (by decide))

/-- A field is read, or has its default. -/
lemma field?_induction {α : Type} {motive : α → Prop} {table : Table} {name : String}
    {read : Value → Option α} {default result : α}
    (hread : ∀ value result, read value = some result → motive result) (hdefault : motive default)
    (h : field? table name read default = some result) : motive result := by
  rw [field?] at h
  split at h
  · exact hread _ _ h
  · exact Option.some.inj h ▸ hdefault

lemma of_nullable? {α : Type} {motive : α → Prop} {read : Value → Option α}
    (hread : ∀ value result, read value = some result → motive result) (value : Value)
    (result : Option α) (h : value.nullable? read = some result) : ∀ found ∈ result, motive found := by
  rintro found rfl
  cases value with
  | null => cases h
  | _ =>
      obtain ⟨other, hother, hsame⟩ := Option.map_eq_some_iff.mp h
      exact Option.some.inj hsame ▸ hread _ _ hother

end Settings.Value

open Settings in
/-- **Settings that are read have short spans.** -/
theorem LinkSettings.isShort_of_ofValue? {value : Value} {settings : LinkSettings}
    (h : LinkSettings.ofValue? value = some settings) : settings.timing.IsShort := by
  cases value with
  | table fields =>
      simp only [ofValue?, ofTable?, Option.bind_eq_bind, Option.bind_eq_some_iff] at h
      obtain ⟨protocol, -, endpoint, -, connect, hconnect, read, hread, write, hwrite, idle, hidle,
        guard, hguard, least, hleast, most, hmost, hsettings⟩ := h
      obtain rfl := Option.some.inj hsettings
      have hspan {name : String} {default span : Duration} (hdefault : default.IsShort)
          (hfield : Value.field? fields name Value.millis? default = some span) : span.IsShort :=
        Value.field?_induction (fun _ _ => Value.isShort_of_millis?) hdefault hfield
      have hlimit : ∀ span ∈ connect, span.IsShort :=
        Value.field?_induction (Value.of_nullable? fun _ _ => Value.isShort_of_millis?) (by simp)
          hconnect
      have hpause : ∀ span ∈ guard, span.IsShort :=
        Value.field?_induction (Value.of_nullable? fun _ _ => Value.isShort_of_micros?) (by simp)
          hguard
      have hgiven : (guard.getD endpoint.timing.guardTime).IsShort := by
        cases guard with
        | some span => exact hpause span rfl
        | none =>
            cases endpoint with
            | network endpoint => exact (by decide : 0 < UInt64.size * 1000)
            | serial endpoint => exact (by decide : 1750 < UInt64.size * 1000)
      intro span hin
      simp only [Timing.spans, timing, List.mem_append, Option.mem_toList, List.mem_cons,
        List.not_mem_nil, or_false] at hin
      rcases hin with hin | rfl | rfl | rfl | rfl | rfl | rfl
      · exact hlimit span hin
      · exact hspan (.ofMillis (by decide)) hread
      · exact hspan (.ofMillis (by decide)) hwrite
      · exact hspan (.ofMillis (by decide)) hidle
      · exact hgiven
      · exact hspan (.ofMillis (by decide)) hleast
      · exact hspan (.ofMillis (by decide)) hmost
  | _ => cases h

/-! ## Times that are put down -/

namespace Connection

variable {σ α : Type}

namespace Shift

variable {c c' : Custody}

/-- The idle deadline is put off, or spent. -/
lemma deadline (h : Shift c c') : c'.deadline = c.deadline ∨ c'.deadline = none ∨
    c'.deadline = some (c.now + c.allowance) := by
  cases h with
  | attempt hstage hattempted => cases hattempted <;> exact .inl rfl
  | opening hstage hattempted => cases hattempted <;> exact .inl rfl
  | keep hstage => exact .inr (.inr rfl)
  | joinTimer hwaits hdisposal htimer => exact .inr (.inl rfl)
  | spend hwaits htimer hheld =>
      simp only [Custody.spend]
      split_ifs
      · exact .inr (.inl rfl)
      · exact .inr (.inl rfl)
      · exact .inl rfl
  | _ => exact .inl rfl

/-- The idle timer waits for the deadline that it has read. -/
lemma watching (h : Shift c c') {deadline : Option Nat} (hafter : c'.timer = .watching deadline) :
    c.timer = .watching deadline ∨ c.deadline = deadline := by
  cases h with
  | attempt hstage hattempted => cases hattempted <;> exact .inl hafter
  | opening hstage hattempted => cases hattempted <;> exact .inl hafter
  | look hwaits htimer => exact .inr (Watch.watching.inj hafter)
  | _ => first | exact .inl hafter | cases hafter

end Shift

namespace Worker

variable {c c' : Connection σ α} {item : Queued} {attempts : Attempts} {deadline : Nat}

/-- A pause is never longer than the worker has kept for it. -/
lemma micros_of_pause? {pause : Duration} (h : pause? c attempts = some pause) :
    pause.micros ≤ attempts.backoff.micros := by
  simp only [pause?] at h
  split at h
  · exact Option.some.inj h ▸ Nat.le_refl _
  · split_ifs at h
    exact Option.some.inj h ▸ Nat.min_le_left _ _

lemma deadline_of_failed {fault : TransportFault} (hbackoff : attempts.backoff.IsShort)
    (h : deadline? (attemptFailed c item attempts fault) = some deadline) :
    deadline ≤ c.now + UInt64.size := by
  rw [attemptFailed] at h
  split at h
  · rename_i pause hpause
    rw [← Option.some.inj h]
    exact Nat.add_le_add_left (hbackoff.of_le (micros_of_pause? hpause)).ticks_le _
  · cases h

lemma deadline_of_ended (hbackoff : attempts.backoff.IsShort)
    (h : deadline? (attemptEnded c item attempts) = some deadline) :
    deadline ≤ c.now + UInt64.size := by
  rcases attemptEnded_cases c item attempts with ⟨-, -, hopened⟩ | ⟨fault, -, hfailed⟩
  · rw [hopened] at h
    cases h
  · rw [hfailed] at h
    have hnow : (c.perform c.wire.open).now = c.now := congrArg Prod.fst (clock_perform _ _)
    exact hnow ▸ deadline_of_failed hbackoff h

lemma deadline_of_begun (hshort : c.timing.IsShort) (hbackoff : attempts.backoff.IsShort)
    (h : deadline? (beginAttempt c item attempts) = some deadline) :
    deadline ≤ c.now + UInt64.size := by
  have hbegun : ((c.perform c.wire.close).note .attempted).clock = c.clock := clock_perform _ _
  obtain ⟨hnow, htiming⟩ := Prod.mk.inj hbegun
  simp only [beginAttempt] at h
  split_ifs at h
  · exact hnow ▸ deadline_of_ended hbackoff h
  · rw [hnow, htiming] at h
    rw [← Option.some.inj h]
    exact Nat.le_trans (Nat.min_le_right _ _)
      (Nat.add_le_add_left hshort.readTimeout.ticks_le _)

lemma deadline_of_receive {received : Bytes} (hshort : c.timing.IsShort)
    (h : deadline? (receive c item received) = some deadline) :
    deadline ≤ c.now + UInt64.size := by
  have hread : (c.perform (c.wire.receive Limit.readBuffer)).clock = c.clock := clock_perform _ _
  obtain ⟨hnow, htiming⟩ := Prod.mk.inj hread
  simp only [receive] at h
  split at h
  · cases h
  · rw [hnow, htiming] at h
    rw [← Option.some.inj h]
    exact Nat.add_le_add_left hshort.readTimeout.ticks_le _
  · cases h
  · split_ifs at h <;> cases h

/-- An exchange that is waited for is interrupted, or goes on. -/
lemma deadline_of_resume {continue_ : Option (Connection σ α)}
    (hcontinue : ∀ after, continue_ = some after → ∀ deadline, deadline? after = some deadline →
      deadline ≤ c.now + UInt64.size)
    (hstep : resumeExchange c item continue_ = some c') (h : deadline? c' = some deadline) :
    deadline ≤ c.now + UInt64.size := by
  rw [resumeExchange] at hstep
  split at hstep
  · rw [← Option.some.inj hstep] at h
    cases h
  · exact hcontinue c' hstep deadline h

/-- **A time that the worker puts down** is its clock and a short span. -/
lemma deadline_of_step [Peer σ] (hshort : c.timing.IsShort)
    (hbackoff : ∀ item attempts, c.worker.attempts? = some (item, attempts) →
      attempts.backoff.IsShort)
    (hstep : step? c = some c') (h : deadline? c' = some deadline) :
    deadline ≤ c.now + UInt64.size := by
  cases hworker : c.worker with
  | fetching =>
      simp only [step?, hworker, fetch?] at hstep
      split_ifs at hstep
      · rw [← Option.some.inj hstep] at h
        cases h
      · split at hstep
        · rw [← Option.some.inj hstep] at h
          cases h
        · rw [← Option.some.inj hstep, deadline?] at h
          simp at h
  | fetched item =>
      simp only [step?, hworker] at hstep
      split at hstep
      · rw [← Option.some.inj hstep] at h
        cases h
      · rw [← Option.some.inj hstep] at h
        simp only [deadline?] at h
        split_ifs at h
  | awaitingLink item =>
      simp only [step?, hworker] at hstep
      split at hstep
      · rw [← Option.some.inj hstep] at h
        cases h
      · split_ifs at hstep
        rw [← Option.some.inj hstep] at h
        cases h
  | linked item =>
      simp only [step?, hworker] at hstep
      split_ifs at hstep <;>
        · rw [← Option.some.inj hstep] at h
          cases h
  | attempting item attempts =>
      simp only [step?, hworker, Option.some.injEq] at hstep
      exact deadline_of_begun hshort (hbackoff item attempts (by rw [hworker]; rfl)) (hstep ▸ h)
  | opening item attempts opensAt expiresAt =>
      have hkept : attempts.backoff.IsShort := hbackoff item attempts (by rw [hworker]; rfl)
      simp only [step?, hworker] at hstep
      refine deadline_of_resume (fun after hafter deadline hdeadline => ?_) hstep h
      split_ifs at hafter
      · exact deadline_of_ended hkept (Option.some.inj hafter ▸ hdeadline)
      · exact deadline_of_failed hkept (Option.some.inj hafter ▸ hdeadline)
  | backingOff item attempts until_ =>
      simp only [step?, hworker] at hstep
      refine deadline_of_resume (fun after hafter deadline hdeadline => ?_) hstep h
      split_ifs at hafter
      rw [← Option.some.inj hafter] at hdeadline
      cases hdeadline
  | sending item =>
      simp only [step?, hworker, Option.some.injEq] at hstep
      rw [← hstep, send] at h
      split at h <;> cases h
  | receiving item received =>
      simp only [step?, hworker, Option.some.injEq] at hstep
      exact deadline_of_receive hshort (hstep ▸ h)
  | stalled item received expiresAt =>
      simp only [step?, hworker] at hstep
      refine deadline_of_resume (fun after hafter deadline hdeadline => ?_) hstep h
      split_ifs at hafter
      rw [← Option.some.inj hafter] at hdeadline
      cases hdeadline
  | concluding item result =>
      simp only [step?, hworker, Option.some.injEq] at hstep
      rw [← hstep] at h
      cases h
  | delivering item result =>
      simp only [step?, hworker, Option.some.injEq] at hstep
      rw [← hstep, deadline?, moveTo, afterDelivery] at h
      split_ifs at h
      rw [← Option.some.inj h]
      exact Nat.add_le_add_left hshort.guardTime.ticks_le _
  | guarding until_ =>
      simp only [step?, hworker] at hstep
      split_ifs at hstep <;>
        · rw [← Option.some.inj hstep] at h
          cases h
  | stopped => simp [step?, hworker] at hstep

end Worker

/-! ## Connections in range -/

/-- **Nothing that a connection has put down is far from its clock.** -/
structure InRange (c : Connection σ α) : Prop where
  timing : c.timing.IsShort
  /-- The pause that follows the next failure can be doubled. -/
  backoff : ∀ item attempts, c.worker.attempts? = some (item, attempts) →
    attempts.backoff.IsShort
  worker : ∀ deadline, Worker.deadline? c = some deadline → deadline ≤ c.now + UInt64.size
  idle : ∀ deadline, c.idleDeadline = some deadline → deadline ≤ c.now + UInt64.size
  timer : ∀ deadline, IdleTimer.deadline? c = some deadline → deadline ≤ c.now + UInt64.size

/-- **The worker is not made to wait for longer** than a short span. -/
def Timely (c : Connection σ α) (happening : Happening α) : Prop :=
  ∀ until_, happening = .whim (.stall until_) → until_ ≤ c.now + UInt64.size

namespace InRange

variable {c c' : Connection σ α}

lemma backoff_of_trial (h : InRange c) {fault : Option TransportFault} (htrial : Trial c c' fault)
    (item : Queued) (attempts : Attempts) (hafter : c'.worker.attempts? = some (item, attempts)) :
    attempts.backoff.IsShort := by
  cases htrial with
  | rest hclock hworker => exact h.backoff item attempts (hworker ▸ hafter)
  | elsewhere hclock hbefore hnone => cases hnone.symm.trans hafter
  | start hclock hbefore hworker =>
      rw [hworker] at hafter
      obtain ⟨rfl, rfl⟩ := Prod.mk.inj (Option.some.inj hafter)
      exact h.timing.minBackoff
  | wait hclock hbefore hworker =>
      rw [hworker] at hafter
      exact h.backoff item attempts (by rw [hbefore]; exact hafter)
  | opened hclock hbefore hworker =>
      rw [hworker] at hafter
      cases hafter
  | @failed mine kept fault hclock hbefore hworker =>
      rw [hworker, Worker.attemptFailed] at hafter
      split at hafter
      · exact h.backoff item attempts (hbefore.attempts?_eq.trans hafter)
      · cases hafter
  | interrupted hclock hbefore hcause hworker =>
      rw [hworker] at hafter
      cases hafter
  | again hclock hbefore hdue hworker =>
      rw [hworker] at hafter
      obtain ⟨rfl, rfl⟩ := Prod.mk.inj (Option.some.inj hafter)
      exact h.timing.maxBackoff.of_le (Nat.min_le_right _ _)
  | pass hwaits htiming hworker hdeadline hlater => exact h.backoff item attempts (hworker ▸ hafter)

/-- The worker's deadline is the one that it had, or is put down now. -/
lemma deadline_of_happening [Peer σ] (h : InRange c) {happening : Happening α}
    (htimely : Timely c happening) {deadline : Nat}
    (hafter : Worker.deadline? (c.happen happening) = some deadline) :
    deadline ≤ c.now + UInt64.size := by
  have hkept (hworker : (c.happen happening).worker = c.worker) :
      deadline ≤ c.now + UInt64.size := by
    refine h.worker deadline (Eq.trans ?_ hafter)
    rw [Worker.deadline?, Worker.deadline?, hworker]
  cases happening with
  | act action =>
      by_cases hworker : action = .worker
      · subst hworker
        cases hstep : Worker.step? c with
        | none => exact hkept (by rw [happen, step, hstep, Option.getD_none])
        | some after =>
            rw [happen, step, hstep, Option.getD_some] at hafter
            exact Worker.deadline_of_step h.timing h.backoff hstep hafter
      · exact hkept (worker_of_step c hworker)
  | whim whim =>
      have hindulged := c.indulged whim
      simp only [happen] at hafter hkept
      generalize c.indulge whim = after at hindulged hafter hkept
      cases hindulged with
      | unheeded => exact hkept rfl
      | stalled until_ hworker => exact Option.some.inj hafter ▸ htimely until_ rfl
      | resumed hworker hclear => cases hafter
      | unopened fault hworker hclear =>
          exact Worker.deadline_of_failed (h.backoff _ _ (by rw [hworker]; rfl)) hafter
      | failed fault hworker hclear => cases hafter
      | lost => exact hkept rfl

/-- **Every happening keeps a connection in range.** -/
lemma of_happening [Peer σ] (h : InRange c) {happening : Happening α}
    (htimely : Timely c happening) : InRange (c.happen happening) := by
  have htrial := trial_of_happening c happening
  have hlater {deadline : Nat} (hnear : deadline ≤ c.now + UInt64.size) :
      deadline ≤ (c.happen happening).now + UInt64.size :=
    Nat.le_trans hnear (Nat.add_le_add_right htrial.now_le _)
  refine ⟨htrial.timing ▸ h.timing, h.backoff_of_trial htrial,
    fun deadline hafter => hlater (h.deadline_of_happening htimely hafter),
    fun deadline hafter => ?_, fun deadline hafter => ?_⟩
  · by_cases hsteady : happening = .whim .lose
    · subst hsteady
      exact h.idle deadline hafter
    · rcases (shift_of_happening c hsteady).deadline with hsame | hnone | hput
      · exact hlater (h.idle deadline (hsame.symm.trans hafter))
      · cases hnone.symm.trans hafter
      · refine hlater ?_
        rw [← Option.some.inj (hput.symm.trans hafter)]
        exact Nat.add_le_add_left h.timing.idleTimeout.ticks_le _
  · by_cases hsteady : happening = .whim .lose
    · subst hsteady
      exact h.timer deadline hafter
    · have hwatching : (c.happen happening).timer = .watching (some deadline) := by
        simp only [IdleTimer.deadline?] at hafter
        split at hafter
        · rename_i htimer
          rw [htimer, hafter]
        · cases hafter
      rcases (shift_of_happening c hsteady).watching hwatching with hbefore | hread
      · exact hlater (h.timer deadline (by rw [IdleTimer.deadline?, show c.timer = _ from hbefore]))
      · exact hlater (h.idle deadline hread)

/-- **A connection with a policy of short spans stays in range**, over any link that does not make
the worker wait for longer. -/
theorem of_run [Peer σ] : ∀ (happenings : List (Happening α)) (c : Connection σ α), InRange c →
    (∀ before happening, before ++ [happening] <+: happenings →
      Timely (c.runOver before) happening) → InRange (c.runOver happenings)
  | [], _, h, _ => h
  | happening :: happenings, c, h, htimely => by
      refine of_run happenings (c.happen happening)
        (h.of_happening (htimely [] happening (List.prefix_append _ _))) fun before later hprefix => ?_
      exact htimely (happening :: before) later (List.cons_prefix_cons.mpr ⟨rfl, hprefix⟩)

/-- A new connection has put nothing down. -/
lemma create (name : String) {timing : Timing} (framing : Framing) (wire : Wire σ)
    (hshort : timing.IsShort) : InRange (create name timing framing wire : Connection σ α) :=
  ⟨hshort, nofun, nofun, nofun, nofun⟩

end InRange

/-- **In range no sum of the worker's is too large** for a clock that tells the next times. -/
theorem overflow?_of_inRange {c : Connection σ α} (h : InRange c) {horizon : Nat}
    (hhorizon : (c.now + UInt64.size) * 1000 ≤ horizon) : Worker.overflow? horizon c = none := by
  rw [Worker.overflow?]
  split
  · have hshort := h.timing.idleTimeout
    rw [Duration.IsShort] at hshort
    rw [if_neg (by omega)]
  · rename_i item attempts until_ hworker
    have hfits := (h.backoff item attempts (by rw [hworker]; rfl)).fits_doubled
    rw [hfits, Bool.not_true, Bool.and_false]
    rfl
  · rfl

end Connection

end Modbus
