import LoopbackLock.Address.Host
import LoopbackLock.Wire.LineReader

/-!
# Connections

A connection has a calling and a called end. Each end holds the bytes that have arrived and were
not read, and knows whether the other end has said its last or the connection was reset. Bytes keep
their order and arrive at once. An end is closed when its last handle is given up; if it then still
holds unread bytes, the other end is reset, otherwise the other end sees the end of the stream.
-/

namespace LoopbackLock

/-- The two ends of a connection. -/
inductive Side
  | caller | callee
  deriving DecidableEq, Repr

/-- The opposite end. -/
def Side.other : Side → Side
  | caller => callee
  | callee => caller

/-- One end of a connection. -/
structure End where
  /-- The bytes that have arrived and were not read. -/
  inbox : Bytes := []
  /-- The other end has said that it sends no more. -/
  ended : Bool := false
  /-- The connection was reset by the other end. -/
  reset : Bool := false
  /-- This end has said that it sends no more. -/
  finished : Bool := false
  /-- How many owners this end has. -/
  handles : Nat := 1
  /-- All that this end has written, whether it arrived or not. -/
  said : Bytes := []
  deriving DecidableEq, Repr

namespace End

/-- Nobody owns this end any more. -/
def isClosed (e : End) : Bool := e.handles = 0

/-- What a read finds now; nothing if it has to wait. Bytes that have arrived are found before
anything else, and the end of the stream before a reset. -/
def found (e : End) (most : Nat) : Option ReadAnswer :=
  if e.inbox ≠ [] then some (.ok (e.inbox.take most))
  else if e.ended then some (.ok [])
  else if e.reset then some (.error .connectionReset)
  else none

/-- A look that takes nothing tells whether the other end may still be there: it finds bytes, or
neither the end of the stream nor a reset. -/
def looksOpen (e : End) : Bool := e.inbox ≠ [] || !(e.ended || e.reset)

end End

/-- A connection: where it was called, from where, and its two ends. -/
structure Link where
  target : Endpoint
  source : Endpoint
  caller : End := {}
  callee : End := {}
  deriving DecidableEq, Repr

namespace Link

/-- One of the ends. -/
def atSide (l : Link) : Side → End
  | .caller => l.caller
  | .callee => l.callee

/-- Changes one of the ends. -/
def modify (l : Link) (s : Side) (f : End → End) : Link :=
  match s with
  | .caller => { l with caller := f l.caller }
  | .callee => { l with callee := f l.callee }

/-- Someone owns one of the ends. -/
def isAlive (l : Link) : Bool := !(l.caller.isClosed && l.callee.isClosed)

/-- A read takes bytes that have arrived. -/
def take (l : Link) (s : Side) (count : Nat) : Link :=
  l.modify s fun e => { e with inbox := e.inbox.drop count }

/-- A write puts bytes into the inbox of the other end. Once the other end is closed they are lost,
and the writing end is reset. -/
def write (l : Link) (s : Side) (bytes : Bytes) : Except Fault Link :=
  if (l.atSide s).finished || (l.atSide s).reset then .error .brokenPipe
  else
    let l' := l.modify s fun e => { e with said := e.said ++ bytes }
    if (l.atSide s.other).isClosed then .ok (l'.modify s fun e => { e with reset := true })
    else .ok (l'.modify s.other fun e => { e with inbox := e.inbox ++ bytes })

/-- An end says that it sends no more. -/
def finish (l : Link) (s : Side) : Except Fault Link :=
  if (l.atSide s).reset then .error .notConnected
  else .ok ((l.modify s fun e => { e with finished := true }).modify s.other
    fun e => { e with ended := true })

/-- One more owner of an end. -/
def share (l : Link) (s : Side) : Link := l.modify s fun e => { e with handles := e.handles + 1 }

/-- The other end is reset. -/
def breakOff (l : Link) (s : Side) : Link :=
  l.modify s.other fun e => { e with reset := true }

/-- An owner gives up an end. -/
def release (l : Link) (s : Side) : Link :=
  let left := (l.atSide s).handles - 1
  let l' := l.modify s fun e => { e with handles := left }
  if (l.atSide s).isClosed || left ≠ 0 then l'
  else if (l.atSide s).inbox ≠ [] then l'.breakOff s
  else l'.modify s.other fun e => { e with ended := true }

/-- An end that nobody took is closed with a reset. -/
def refuse (l : Link) (s : Side) : Link :=
  (l.modify s fun e => { e with handles := 0 }).breakOff s

end Link

end LoopbackLock
