/-!
# Who may use the link

The worker, the idle timer and a disposal take turns on the link.  `LinkLock` grants it in the order
in which it was asked for: who finds it free has it at once, the others wait, and a release hands
it to whoever has waited longest.
-/

namespace Modbus

/-- Who asks for the link. -/
inductive Holder where
  | worker
  | idleTimer
  | disposal
deriving DecidableEq, Repr

/-- **The link's turn**: who has it and who waits, longest first. -/
structure LinkLock where
  holder : Option Holder := none
  waiting : List Holder := []
deriving DecidableEq, Repr

namespace LinkLock

def request (lock : LinkLock) (asker : Holder) : LinkLock :=
  match lock.holder with
  | none => { lock with holder := some asker }
  | some _ => { lock with waiting := lock.waiting ++ [asker] }

def isHeldBy (lock : LinkLock) (asker : Holder) : Bool :=
  lock.holder == some asker

/-- **Handing the link on.** -/
def release (lock : LinkLock) : LinkLock :=
  match lock.waiting with
  | [] => ⟨none, []⟩
  | next :: rest => ⟨some next, rest⟩

/-- Ceasing to wait, or handing on a turn that was not used. -/
def withdraw (lock : LinkLock) (asker : Holder) : LinkLock :=
  if lock.isHeldBy asker then lock.release
  else { lock with waiting := lock.waiting.filter (· != asker) }

end LinkLock

end Modbus
