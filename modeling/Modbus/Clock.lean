/-!
# Letting time pass

A system with a clock comes to rest, and then its next timer says when something happens again.
`Clocked` is what a system needs for that, and `Clocked.pass` is the waiting itself: settle, move
the clock to the next timer, settle again, until a given time or until a condition holds.
-/

namespace Modbus

/-- **A system that moves by itself and then waits for its clock.** -/
class Clocked (τ : Type) where
  /-- The clock, in milliseconds. -/
  now : τ → Nat
  /-- Everything that can happen without time passing. -/
  settle : τ → τ
  /-- The next time at which a timer fires. -/
  nextDeadline? : τ → Option Nat
  /-- The clock moved on. -/
  advance : τ → Nat → τ

namespace Clocked

variable {τ : Type}

/-- The most moves without time passing, and the most timers in one wait; no wait that ends comes
near it. -/
def patience : Nat := 1000000

/-- Time passing until `target`, or until `stop` holds, past at most so many timers. -/
def passWithin [Clocked τ] (stop : τ → Bool) (target : Option Nat) : Nat → τ → τ
  | 0, system => system
  | timers + 1, system =>
    let system := settle system
    if stop system then system
    else
      match nextDeadline? system, target with
      | none, none => system
      | none, some target => settle (advance system target)
      | some deadline, none => passWithin stop target timers (advance system deadline)
      | some deadline, some target =>
        if target < deadline then settle (advance system target)
        else passWithin stop (some target) timers (advance system deadline)

/-- **So many milliseconds passed.** -/
def sleep [Clocked τ] (system : τ) (millis : Nat) : τ :=
  passWithin (fun _ => false) (some (now system + millis)) patience system

/-- **Time passed until a condition held**, but no more than the given milliseconds. -/
def passUntil [Clocked τ] (system : τ) (stop : τ → Bool) (millis : Option Nat) : τ :=
  passWithin stop (millis.map (now system + ·)) patience system

end Clocked

end Modbus
