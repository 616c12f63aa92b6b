import Mathlib.Algebra.Order.Ring.Nat
import Modbus.Settings.Link

/-!
# The schedule of reconnecting

Between failed attempts to open a link there are pauses, each twice as long as the last up to a
bound, and where there is a time limit the last of them ends with it.  This file is the schedule
alone, without the worker that keeps it: `Backoff` is what it depends on, `Backoff.pause` the pause
after so many failures, `Backoff.due` the moment of the next attempt, and `Backoff.Course` what it
means that failures came as they were due.

A limit bounds the moment of every attempt (`Backoff.due_le`) and the number of attempts
(`Backoff.Course.length_lt`).  For the number, a pause that the limit does not cut short has at
least the shortest length (`Backoff.least_le_full`), and only the last one is cut short, since the
attempt after it ends when the limit is over.
-/

namespace Modbus

/-- **What a schedule depends on**, in whole milliseconds: the pause after the first failure, the
longest pause, the bound on one attempt, and when to give up. -/
structure Backoff where
  least : Nat
  most : Nat
  read : Nat
  limit? : Option Nat
  least_pos : 0 < least
  least_le_most : least ≤ most
  read_pos : 0 < read
  limit_pos : ∀ limit, limit? = some limit → 0 < limit

/-- **An attempt that failed.** -/
structure Failure where
  began : Nat
  ended : Nat
  fault : TransportFault

namespace Backoff

variable (policy : Backoff) (started : Nat)

/-- The policy of a connection that reconnects by a schedule. -/
def timing (rest : Timing) : Timing :=
  { rest with
    connectTimeout := policy.limit?.map .ofMillis
    readTimeout := .ofMillis policy.read
    minBackoff := .ofMillis policy.least
    maxBackoff := .ofMillis policy.most }

/-- The pause after the failure with this number, the first having number one, with time enough. -/
def full (number : Nat) : Nat :=
  min (policy.least * 2 ^ (number - 1)) policy.most

/-- **The pause after a failure**, `elapsed` after the first attempt began. -/
def pause (number elapsed : Nat) : Nat :=
  match policy.limit? with
  | none => policy.full number
  | some limit => min (policy.full number) (limit - elapsed)

/-- **When the next attempt is due**, after these failures, newest first. -/
def due : List Failure → Nat
  | [] => started
  | last :: earlier => last.ended + policy.pause (earlier.length + 1) (last.ended - started)

/-- There was time left after each of these failures. -/
def HasTime (failures : List Failure) : Prop :=
  ∀ limit, policy.limit? = some limit → ∀ failure ∈ failures, failure.ended < started + limit

/-- **Failures that came as they were due**, newest first: each attempt began when it was due, with
time left after the failures before it, and was over within the time allowed for one attempt. -/
inductive Course : List Failure → Prop where
  | none : Course []
  | fail {failure : Failure} {earlier : List Failure} (hearlier : Course earlier)
      (htime : policy.HasTime started earlier) (hbegan : failure.began = policy.due started earlier)
      (hended : failure.began ≤ failure.ended)
      (hread : failure.ended ≤ failure.began + policy.read) : Course (failure :: earlier)

/-! ## Pauses -/

variable {policy started} {failures : List Failure} {limit : Nat}

lemma full_one : policy.full 1 = policy.least := by
  rw [full, Nat.sub_self, Nat.pow_zero, Nat.mul_one, Nat.min_eq_left policy.least_le_most]

/-- **The next pause is twice as long**, up to the bound. -/
lemma full_succ (number : Nat) :
    min (policy.full (number + 1) * 2) policy.most = policy.full (number + 2) := by
  have hdoubled : policy.least * 2 ^ (number + 1) = policy.least * 2 ^ number * 2 := by
    rw [Nat.pow_succ, Nat.mul_assoc]
  rw [full, full, Nat.add_sub_cancel, show number + 2 - 1 = number + 1 from rfl, hdoubled]
  omega

lemma least_le_full (number : Nat) : policy.least ≤ policy.full number :=
  le_min (Nat.le_mul_of_pos_right _ (Nat.two_pow_pos _)) policy.least_le_most

lemma pause_of_none (h : policy.limit? = none) (number elapsed : Nat) :
    policy.pause number elapsed = policy.full number := by
  rw [pause, h]

lemma pause_of_limit (h : policy.limit? = some limit) (number elapsed : Nat) :
    policy.pause number elapsed = min (policy.full number) (limit - elapsed) := by
  rw [pause, h]

/-! ## When attempts are due -/

lemma HasTime.of_cons {failure : Failure} {earlier : List Failure}
    (h : policy.HasTime started (failure :: earlier)) : policy.HasTime started earlier :=
  fun limit hlimit failure hfailure => h limit hlimit failure (List.mem_cons_of_mem _ hfailure)

lemma Course.started_le (h : policy.Course started failures) :
    started ≤ policy.due started failures := by
  induction h with
  | none => exact Nat.le_refl started
  | fail _ _ hbegan hended _ ih =>
      rw [due]
      omega

/-- **No attempt is due after the limit.** -/
lemma due_le (h : policy.Course started failures) (htime : policy.HasTime started failures)
    (hlimit : policy.limit? = some limit) :
    policy.due started failures ≤ started + limit := by
  cases h with
  | none => exact Nat.le_add_right started limit
  | @fail failure earlier hearlier _ hbegan hended _ =>
      have hstarted := hearlier.started_le
      have hleft := htime limit hlimit failure List.mem_cons_self
      rw [due, pause_of_limit hlimit]
      omega

/-- No attempt that failed had begun after the limit, nor ended much later. -/
lemma Course.within (h : policy.Course started failures) (hlimit : policy.limit? = some limit) :
    ∀ failure ∈ failures,
      failure.began ≤ started + limit ∧ failure.ended ≤ started + limit + policy.read := by
  induction h with
  | none => exact fun failure hfailure => absurd hfailure List.not_mem_nil
  | fail hearlier htime hbegan hended hread ih =>
      intro failure hfailure
      rcases List.mem_cons.mp hfailure with rfl | hmem
      · have hdue := due_le hearlier htime hlimit
        omega
      · exact ih failure hmem

/-- As long as the limit cuts nothing short, every failure costs the shortest pause at least. -/
lemma Course.length_mul_le (h : policy.Course started failures)
    (htime : policy.HasTime started failures) (hlimit : policy.limit? = some limit)
    (hdue : policy.due started failures < started + limit) :
    started + failures.length * policy.least ≤ policy.due started failures := by
  induction h with
  | none =>
      rw [List.length_nil, Nat.zero_mul]
      exact Nat.le_refl started
  | @fail failure earlier hearlier hbefore hbegan hended _ ih =>
      have hleft := htime limit hlimit failure List.mem_cons_self
      have hstarted := hearlier.started_le
      have hpaused := ih hbefore (by omega)
      have hleast : policy.least ≤ policy.full (earlier.length + 1) := least_le_full _
      rw [due, pause_of_limit hlimit] at hdue ⊢
      rw [List.length_cons, Nat.succ_mul]
      omega

/-- **A limit bounds the number of attempts.** -/
lemma Course.length_lt (h : policy.Course started failures)
    (hlimit : policy.limit? = some limit) : (failures.length - 2) * policy.least < limit := by
  have hpos := policy.limit_pos limit hlimit
  cases h with
  | none => simpa using hpos
  | fail hlater htime hbegan hended _ =>
      cases hlater with
      | none => simpa using hpos
      | @fail failure earlier hearlier hbefore hbegan hended _ =>
          have hleft := htime limit hlimit failure List.mem_cons_self
          have hpaused := hearlier.length_mul_le hbefore hlimit (by omega)
          rw [List.length_cons, List.length_cons, show earlier.length + 1 + 1 - 2 = earlier.length
            from rfl]
          omega

end Backoff

/-! ## Schedules from settings -/

lemma Duration.ofMillis_millis {span : Duration} (h : span.micros % 1000 = 0) :
    Duration.ofMillis span.millis = span := by
  rw [ofMillis, millis, Nat.div_mul_cancel (Nat.dvd_of_mod_eq_zero h)]

lemma Duration.millis_pos {span : Duration} (h : span.micros % 1000 = 0) (hpos : span ≠ .zero) :
    0 < span.millis := by
  have hmicros : span.micros ≠ 0 := fun hzero => hpos (congrArg Duration.mk hzero)
  rw [millis]
  omega

/-- What settings without a fault have in order. -/
lemma LinkSettings.spans_of_validate {settings : LinkSettings}
    (h : settings.validate = .ok settings) :
    (∀ span ∈ settings.spans, span.2 ≠ .zero) ∧ settings.connectTimeout ≠ some .zero ∧
      settings.minBackoff.micros ≤ settings.maxBackoff.micros := by
  have hfault : settings.fault? = none := by
    cases hfault : settings.fault? with
    | none => rfl
    | some fault => simp [validate, hfault] at h
  simp only [fault?] at hfault
  split at hfault
  · simp at hfault
  · split at hfault
    · simp at hfault
    · rename_i hspans
      split_ifs at hfault with hconnect hbackoff
      rw [List.find?_eq_none] at hspans
      refine ⟨fun span hspan => ?_, hconnect, Nat.le_of_not_lt hbackoff⟩
      simpa using hspans span hspan

/-- **Settings without a fault have a schedule**, if their spans are whole milliseconds. -/
theorem LinkSettings.exists_backoff {settings : LinkSettings}
    (hvalid : settings.validate = .ok settings)
    (hwhole : ∀ span ∈ settings.connectTimeout.toList
      ++ [settings.readTimeout, settings.minBackoff, settings.maxBackoff],
      span.micros % 1000 = 0) :
    ∃ policy : Backoff, policy.timing settings.timing = settings.timing := by
  obtain ⟨hspans, hconnect, hbackoff⟩ := spans_of_validate hvalid
  have hread := hwhole settings.readTimeout (by simp)
  have hleast := hwhole settings.minBackoff (by simp)
  have hmost := hwhole settings.maxBackoff (by simp)
  have hlimit (span : Duration) (hspan : settings.connectTimeout = some span) :
      span.micros % 1000 = 0 := hwhole span (by simp [hspan])
  refine ⟨{
    least := settings.minBackoff.millis
    most := settings.maxBackoff.millis
    read := settings.readTimeout.millis
    limit? := settings.connectTimeout.map Duration.millis
    least_pos := Duration.millis_pos hleast (hspans ("reconnect_min_delay_ms", _) (by simp [spans]))
    least_le_most := Nat.div_le_div_right hbackoff
    read_pos := Duration.millis_pos hread (hspans ("read_timeout_ms", _) (by simp [spans]))
    limit_pos := ?_ }, ?_⟩
  · rintro limit hmap
    obtain ⟨span, hspan, rfl⟩ := Option.map_eq_some_iff.mp hmap
    refine Duration.millis_pos (hlimit span hspan) ?_
    rintro rfl
    exact hconnect hspan
  · have hconnected : (settings.connectTimeout.map Duration.millis).map Duration.ofMillis
        = settings.connectTimeout := by
      cases hspan : settings.connectTimeout with
      | none => rfl
      | some span => exact congrArg some (Duration.ofMillis_millis (hlimit span hspan))
    simp only [Backoff.timing, timing, hconnected, Duration.ofMillis_millis hread,
      Duration.ofMillis_millis hleast, Duration.ofMillis_millis hmost]

end Modbus
