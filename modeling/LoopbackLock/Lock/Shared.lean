import LoopbackLock.Lock.Call
import LoopbackLock.Settings.Environment

/-!
# The shared lock of a process

All of a process can share one lock. It comes into being when it is first asked for, with the
settings of the environment at that moment; what the environment says later has no effect on it.
-/

namespace LoopbackLock

/-- The place of the shared lock; it is empty until the lock is asked for. -/
structure SharedLock where
  lock? : Option PortLock := none
  deriving DecidableEq, Repr

namespace SharedLock

/-- The shared lock, and the place with the lock in it. -/
def get (place : SharedLock) (env : Environment) : PortLock × SharedLock :=
  let lock := place.lock?.getD { settings := Settings.shared env }
  (lock, { lock? := some lock })

end SharedLock

end LoopbackLock
