/-!
# Waking a task

A `Signal` wakes the one task that waits on it.  A notice given while the task waits wakes it; one
given while nobody waits is kept as a permit, and there is never more than one permit.  The permit
is what makes "look, then wait" safe: a notice between the two is not lost.
-/

namespace Modbus

/-- Where the waiting task is. -/
inductive Waiter where
  /-- Nobody waits. -/
  | absent
  /-- The task waits. -/
  | waiting
  /-- The task has been woken and has not run since. -/
  | woken
deriving DecidableEq, Repr

/-- **A wake-up for one task.** -/
structure Signal where
  permit : Bool := false
  waiter : Waiter := .absent
deriving DecidableEq, Repr

namespace Signal

/-- **Giving notice.** -/
def notify (signal : Signal) : Signal :=
  match signal.waiter with
  | .waiting => { signal with waiter := .woken }
  | _ => { signal with permit := true }

/-- Beginning to wait; a permit wakes at once. -/
def await (signal : Signal) : Signal :=
  if signal.permit then ⟨false, .woken⟩ else { signal with waiter := .waiting }

def resume (signal : Signal) : Signal :=
  { signal with waiter := .absent }

/-- Ceasing to wait; a wake-up that was not used goes back as a permit. -/
def withdraw (signal : Signal) : Signal :=
  match signal.waiter with
  | .woken => ⟨true, .absent⟩
  | _ => { signal with waiter := .absent }

end Signal

end Modbus
