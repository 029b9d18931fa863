import LoopbackLock.Exchange.Chance
import LoopbackLock.Wire.LineReader

/-!
# Attendants

A holder has one attendant for each connection it accepts. The attendant reads the first line
within the challenge time. If that line is a check it answers with success and then seeks to have
the connection registered; in any other case the connection is given up unanswered.

The attendant owns the called end of its connection twice, once for reading and once for writing.
Registering passes one of the two on to the registry.
-/

namespace LoopbackLock

/-- Where an attendant stands. -/
inductive Attendance
  /-- The time limits are to be set and the connection is to be shared. -/
  | preparing
  /-- The first line is being read; `begun` tells whether any byte of it has come. -/
  | reading (reader : LineReader) (begun : Bool)
  /-- The answer is being written; `rest` is not written yet. -/
  | answering (rest : Bytes)
  /-- The registry is to be locked. -/
  | queuing
  /-- The registry is locked; it is to be seen whether the holder is stopping. -/
  | deciding
  /-- The registry is locked; the connection is to be filed. -/
  | admitting
  /-- So many handles of the connection are to be given up. -/
  | parting (handles : Nat)
  | gone
  deriving DecidableEq, Repr

namespace Attendance

/-- The line that answers a check. -/
def answer : Bytes := Text.encode Message.success.line

/-- Goes on from a turn of the reader. -/
def turn : Turn → Attendance
  | .done (.ok (.message .check)) _ => answering answer
  | .done _ _ => parting 2
  | .starved reader begun => reading reader begun

/-- What follows when the answer or a part of it was to be written. -/
def written (rest : Bytes) : Reply → Attendance
  | .took count =>
    if count = 0 then parting 2
    else if rest.length ≤ count then queuing
    else answering (rest.drop count)
  | .failed f => if f.kind = .interrupted then answering rest else parting 2
  | _ => answering rest

end Attendance

/-- An attendant: its connection, the port of the peer, and where it stands. -/
structure Attendant where
  link : LinkId
  port : UInt16
  stage : Attendance := .preparing
  deriving DecidableEq, Repr

namespace Attendant

/-- Sets the limits and shares the connection. No limit of zero can be set. -/
def prepare (a : Attendant) (limit : UInt64) (n : Network) : Chance → Attendance × Network
  | .fail _ => (.parting 1, n)
  | _ => if limit = 0 then (.parting 1, n)
    else (.reading {} false, n.modifyLink a.link (·.share .callee))

/-- A step that concerns the connection alone; nothing if it has to wait or does not. -/
def serve? (a : Attendant) (limit : UInt64) (n : Network) (chance : Chance) :
    Option (Attendance × Network) :=
  match a.stage with
  | .preparing => some (a.prepare limit n chance)
  | .reading reader begun => do
    match ← n.hear? a.link .callee chance with
    | (.heard bytes, n) => some (.turn (reader.supply begun (.ok bytes)), n)
    | (.failed f, n) => some (.turn (reader.supply begun (.error f.kind)), n)
    | _ => none
  | .answering rest =>
    let (reply, n) := n.say a.link .callee rest chance
    some (.written rest reply, n)
  | _ => none

end Attendant

end LoopbackLock
