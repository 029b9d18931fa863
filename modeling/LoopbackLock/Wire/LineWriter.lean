import LoopbackLock.Text.Utf8
import LoopbackLock.Wire.Fault
import LoopbackLock.Wire.Message

/-!
# Writing lines

Sending a message writes its line and flushes. A write may take any part of what it is given; the
rest is offered again. A write that takes nothing, or fails with anything but an interruption, ends
the sending, and so does a failed flush.
-/

namespace LoopbackLock

/-- What one write does: it takes at most so many bytes, or it fails. -/
abbrev WriteAnswer := Except FaultKind Nat

/-- A byte sink whose next writes are laid down beforehand; later writes take everything. The first
flush fails with `flushFault`, if there is one. -/
structure Sink where
  writes : List WriteAnswer := []
  flushFault : Option FaultKind := none
  written : Bytes := []
  flushes : Nat := 0

namespace Sink

/-- Offers the bytes until all are taken: the bytes taken, the writes not used, the outcome. -/
def offer : List WriteAnswer → Bytes → Bytes × List WriteAnswer × Except FaultKind Unit
  | writes, [] => ([], writes, .ok ())
  | [], bytes => (bytes, [], .ok ())
  | .error .interrupted :: writes, bytes => offer writes bytes
  | .error k :: writes, _ => ([], writes, .error k)
  | .ok 0 :: writes, _ => ([], writes, .error .writeZero)
  | .ok n :: writes, bytes =>
    let (taken, writes, result) := offer writes (bytes.drop n)
    (bytes.take n ++ taken, writes, result)

/-- Flushes the sink. -/
def flush (s : Sink) : Sink × Except FaultKind Unit :=
  let s' := { s with flushes := s.flushes + 1, flushFault := none }
  match s.flushFault with
  | some k => (s', .error k)
  | none => (s', .ok ())

/-- Writes the line of a message and flushes. -/
def send (s : Sink) (m : Message) : Sink × Except FaultKind Unit :=
  let (taken, writes, result) := offer s.writes (Text.encode m.line)
  let s := { s with writes, written := s.written ++ taken }
  match result with
  | .ok () => s.flush
  | .error k => (s, .error k)

/-- Sends messages one after the other, whatever becomes of each. -/
def sendAll (s : Sink) : List Message → Sink × List (Except FaultKind Unit)
  | [] => (s, [])
  | m :: ms =>
    let (s, result) := s.send m
    let (s, results) := s.sendAll ms
    (s, result :: results)

end Sink

end LoopbackLock
