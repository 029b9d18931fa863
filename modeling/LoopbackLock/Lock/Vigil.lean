import LoopbackLock.Lock.Challenge
import LoopbackLock.Lock.Error

/-!
# Waiting for the holder

A waiter first challenges the occupant on a connection that it closes again, then on a second one
that it keeps. On that one it listens for the release. Each time it hears nothing for the wait
time, it challenges the occupant again: a confirmed holder is waited for further, and one that is
not confirmed has vanished. What it hears before the release is ignored.
-/

namespace LoopbackLock

/-- How waiting ended. -/
inductive WaitOutcome
  /-- The holder announced its release. -/
  | released
  /-- The connection to the holder was lost. -/
  | disconnected
  /-- The holder did not answer when it was challenged again. -/
  | vanished
  deriving DecidableEq, Repr

/-- Where waiting stands. -/
inductive Vigil
  | probing (c : Challenge)
  /-- The occupant is confirmed; the connection of the first challenge is to be closed. -/
  | dismissing (link : LinkId)
  | joining (c : Challenge)
  /-- The kept connection is to get the wait time as its limit. -/
  | limiting (link : LinkId) (reader : LineReader)
  /-- The next line is to be looked for. -/
  | listening (link : LinkId) (reader : LineReader)
  /-- A read is due; `begun` tells whether this line has taken any byte. -/
  | awaiting (link : LinkId) (reader : LineReader) (begun : Bool)
  | rechecking (link : LinkId) (reader : LineReader) (c : Challenge)
  /-- The holder is confirmed again; the connection it was challenged on is to be closed. -/
  | excusing (link : LinkId) (reader : LineReader) (spare : LinkId)
  /-- Waiting is over; the kept connection is to be closed. -/
  | closing (link : LinkId) (outcome : WaitOutcome)
  /-- Waiting cannot begin; the kept connection is to be closed. -/
  | failing (link : LinkId) (why : LockError)
  deriving DecidableEq, Repr

namespace Vigil

/-- What the waiter asks of the system next. -/
def request (s : Settings) : Vigil → Request
  | probing c | joining c | rechecking _ _ c => c.request s
  | dismissing link | excusing _ _ link | closing link _ | failing link _ => .hangUp link
  | limiting link _ => .limit link s.waitTimeout
  | listening .. => .nothing
  | awaiting link _ _ => .read link s.waitTimeout

/-- What becomes of waiting when one of the first two challenges is refused. -/
def refused (s : Settings) : Refusal → Except LockError WaitOutcome
  | .departed => .ok .disconnected
  | .mismatch m => .error (.protocolMismatch s.endpoint m.reason)

/-- A line of the holder, or what came instead of it, is heard. -/
def hear (link : LinkId) (reader : LineReader) : Received → Vigil
  | .ok (.message .release) => closing link .released
  | .ok .closed => closing link .disconnected
  | .ok _ => listening link reader
  | .error k =>
    if k.isTimeout then rechecking link reader .connecting
    else closing link .disconnected

/-- Goes on from a turn of the reader. -/
def turn (link : LinkId) : Turn → Vigil
  | .done result reader => hear link reader result
  | .starved reader begun => awaiting link reader begun

/-- The waiter takes the system's reply to its request. -/
def step (s : Settings) : Vigil → Reply → Progress Vigil (Except LockError WaitOutcome)
  | probing c, reply =>
    match c.step s reply with
    | .going c => .going (probing c)
    | .over (.ok (link, _)) => .going (dismissing link)
    | .over (.error why) => .over (refused s why)
  | dismissing _, .done => .going (joining .connecting)
  | joining c, reply =>
    match c.step s reply with
    | .going c => .going (joining c)
    | .over (.ok (link, reader)) => .going (limiting link reader)
    | .over (.error why) => .over (refused s why)
  | limiting link reader, .done => .going (listening link reader)
  | limiting link _, .failed f =>
    .going (failing link (.io f s.endpoint "configure wait connection"))
  | listening link reader, .done => .going (turn link reader.start)
  | awaiting link reader begun, .heard bytes =>
    .going (turn link (reader.supply begun (.ok bytes)))
  | awaiting link reader begun, .failed f =>
    .going (turn link (reader.supply begun (.error f.kind)))
  | rechecking link reader c, reply =>
    match c.step s reply with
    | .going c => .going (rechecking link reader c)
    | .over (.ok (spare, _)) => .going (excusing link reader spare)
    | .over (.error _) => .going (closing link .vanished)
  | excusing link reader _, .done => .going (listening link reader)
  | closing _ outcome, .done => .over (.ok outcome)
  | failing _ why, .done => .over (.error why)
  | v, _ => .going v

end Vigil

end LoopbackLock
