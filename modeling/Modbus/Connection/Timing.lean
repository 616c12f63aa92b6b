/-!
# Time on a connection

The clock counts whole milliseconds and a timer fires on the first of them that is not too early,
so a span of time is rounded up (`Duration.ticks`).  `Timing` is the policy of a connection: how
long each kind of wait may last, and how the pauses between attempts to reconnect grow.
-/

namespace Modbus

/-- A span of time in microseconds. -/
structure Duration where
  micros : Nat
deriving DecidableEq, Repr

namespace Duration

def zero : Duration := ⟨0⟩

def ofMillis (millis : Nat) : Duration := ⟨millis * 1000⟩

def ofSeconds (seconds : Nat) : Duration := ⟨seconds * 1000000⟩

/-- **The milliseconds after which a timer of this length fires**, rounded up. -/
def ticks (span : Duration) : Nat := (span.micros + 999) / 1000

def millis (span : Duration) : Nat := span.micros / 1000

def shorter (a b : Duration) : Duration := ⟨min a.micros b.micros⟩

def doubled (span : Duration) : Duration := ⟨span.micros * 2⟩

/-- What is left of a span after so many milliseconds. -/
def minusTicks (span : Duration) (ticks : Nat) : Duration := ⟨span.micros - ticks * 1000⟩

/-- Whole milliseconds are not rounded. -/
@[simp] theorem ticks_ofMillis (millis : Nat) : (ofMillis millis).ticks = millis := by
  simp only [ticks, ofMillis]
  omega

end Duration

/-- **How long things may take.** -/
structure Timing where
  /-- When to give up reconnecting; without it, never. -/
  connectTimeout : Option Duration := none
  /-- The bound on one attempt to open the link, and on each read. -/
  readTimeout : Duration := .ofSeconds 1
  writeTimeout : Duration := .ofSeconds 1
  /-- When a link without completed requests is closed. -/
  idleTimeout : Duration := .ofSeconds 6
  /-- The guard time between two requests. -/
  guardTime : Duration := .zero
  /-- The pause after the first failed attempt to reconnect; each later one is twice as long. -/
  minBackoff : Duration := .ofSeconds 1
  /-- The longest such pause. -/
  maxBackoff : Duration := .ofSeconds 60
deriving DecidableEq, Repr

namespace Timing

def network : Timing := {}

/-- The policy of a serial link, where frames are told apart by silence. -/
def serial : Timing := { guardTime := ⟨1750⟩ }

end Timing

end Modbus
