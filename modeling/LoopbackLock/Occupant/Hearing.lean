import LoopbackLock.Exchange.Chance

/-!
# Hearing one line

A peer that does not use the library listens for one line at an end of a connection. It hears a
whole line, or it hears nothing, or a piece of a line, before the stream closes or its patience
ends. What came after the line is kept for the next time.
-/

namespace LoopbackLock

/-- What a peer heard. -/
inductive Hearing
  /-- A whole line, with its line feed. -/
  | line (text : String)
  /-- Nothing, or a piece of a line, before the stream ended or was reset. -/
  | closed (piece : String)
  /-- Nothing, or a piece of a line, before the time was over. -/
  | timedOut (piece : String)
  deriving DecidableEq, Repr

namespace Hearing

/-- The text of bytes that came. -/
def textOf (bytes : Bytes) : String := String.ofList (Text.decodeLossy bytes)

end Hearing

/-- A peer that listens at an end: what it has read and not heard yet. -/
structure Ear where
  link : LinkId
  held : Bytes := []
  deriving DecidableEq, Repr

namespace Ear

/-- One more read; the result comes with what was heard once that is decided. Nothing if the read
has to wait. -/
def listen? (e : Ear) (s : Side) (n : Network) (chance : Chance) :
    Option (Option Hearing × Ear × Network) :=
  match LineReader.splitLine e.held with
  | some (line, rest) => some (some (.line (Hearing.textOf line)), { e with held := rest }, n)
  | none =>
    match n.hear? e.link s chance with
    | some (.heard [], n) | some (.failed { kind := .connectionReset, .. }, n) =>
      some (some (.closed (Hearing.textOf e.held)), { e with held := [] }, n)
    | some (.heard bytes, n) =>
      let held := e.held ++ bytes
      match LineReader.splitLine held with
      | some (line, rest) => some (some (.line (Hearing.textOf line)), { e with held := rest }, n)
      | none => some (none, { e with held }, n)
    | some (.failed { kind := .interrupted, .. }, n) => some (none, e, n)
    | some (_, n) => some (some (.timedOut (Hearing.textOf e.held)), { e with held := [] }, n)
    | none => none

end Ear

end LoopbackLock
