import LoopbackLock.Address.Written
import LoopbackLock.Wire.Fault

/-!
# Errors of a lock

A call that wants the lock fails for one of two reasons: the port is taken by something that does
not answer like a lock, or the system refuses an operation.
-/

namespace LoopbackLock

/-- Why the lock could not be acquired. -/
inductive LockError
  /-- The occupant of the port does not speak the protocol; the reason is what was observed. -/
  | protocolMismatch (endpoint : Endpoint) (reason : String)
  /-- An operation on the port failed. -/
  | io (source : Fault) (endpoint : Endpoint) (operation : String)
  deriving DecidableEq, Repr

namespace LockError

/-- The name of an error's kind. -/
def kindName : LockError → String
  | protocolMismatch .. => "ProtocolMismatch"
  | io .. => "Io"

/-- The endpoint an error is about. -/
def endpoint : LockError → Endpoint
  | protocolMismatch endpoint _ => endpoint
  | io _ endpoint _ => endpoint

/-- The wording of an error, given how its endpoint is to be written. -/
def messageAt (place : String) : LockError → String
  | protocolMismatch _ reason =>
    "LOCK_PROTOCOL_MISMATCH: " ++ place ++ " is in use by something that is not a port lock (" ++
      reason ++ ")"
  | io source _ operation =>
    "LOCK_IO_ERROR: I/O error during " ++ operation ++ " on " ++ place ++ ": " ++ source.text

/-- The wording of an error. -/
def message (e : LockError) : String := e.messageAt e.endpoint.text

end LockError

end LoopbackLock
