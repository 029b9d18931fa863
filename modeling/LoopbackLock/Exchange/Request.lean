import LoopbackLock.Network.Basic
import LoopbackLock.Wire.Message

/-!
# Requests and replies

A call of a lock runs in steps. Each step is one access to what is shared: a request to the system
and the reply to it, or a look at the lock's own gate and state. This module holds the requests a
call can make and the replies it can get.
-/

namespace LoopbackLock

/-- A holder, by number. -/
abbrev HolderId := Nat

/-- What a call asks of the system. -/
inductive Request
  /-- Nothing: the step concerns the lock alone. -/
  | nothing
  /-- To choose the sleeper that an opening gate rouses. -/
  | choose
  /-- To listen at an endpoint. -/
  | bind (endpoint : Endpoint)
  /-- To make waiting for connections return at once. -/
  | unblock (listener : ListenerId)
  /-- To set a holder to work on a listener. -/
  | found (listener : ListenerId)
  /-- To stop listening. -/
  | unbind (listener : ListenerId)
  /-- To connect within a time limit. -/
  | connect (endpoint : Endpoint) (limit : UInt64)
  /-- To limit the time of each read and write. -/
  | limit (link : LinkId) (limit : UInt64)
  | send (link : LinkId) (m : Message)
  /-- To read what has come, or comes within a time limit. -/
  | read (link : LinkId) (limit : UInt64)
  /-- To close the calling end of a connection. -/
  | hangUp (link : LinkId)
  /-- To empty a holder's registry. -/
  | drain (holder : HolderId)
  /-- To write to a drained connection. -/
  | write (link : LinkId) (bytes : Bytes)
  /-- To end both directions of a drained connection. -/
  | shut (link : LinkId)
  /-- To give up a drained connection. -/
  | discard (link : LinkId)
  /-- To tell a holder's workers to stop. -/
  | stop (holder : HolderId)
  /-- To wait until the accepting worker of a holder is gone. -/
  | join (holder : HolderId)
  /-- To give up a holder. -/
  | abandon (holder : HolderId)
  deriving DecidableEq, Repr

/-- What the system replies. -/
inductive Reply
  | done
  | failed (f : Fault)
  | chosen (choice : Nat)
  | bound (listener : ListenerId)
  | founded (holder : HolderId)
  | connected (link : LinkId)
  /-- Bytes came; none at the end of the stream. -/
  | heard (bytes : Bytes)
  | drained (links : List LinkId)
  /-- A write took so many bytes. -/
  | took (count : Nat)
  deriving DecidableEq, Repr

/-- An activity after a step: it goes on, or it is over with a result. -/
inductive Progress (Stage Result : Type)
  | going (stage : Stage)
  | over (result : Result)
  deriving DecidableEq, Repr

end LoopbackLock
