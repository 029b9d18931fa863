import LoopbackLock.Exchange.Request

/-!
# Chance

What a system call does is up to the system. It may do all it can, move only a part of the bytes,
run into its time limit while there is nothing to do, or fail. Chance stands for that decision; the
network then determines the reply.
-/

namespace LoopbackLock

/-- What chance decides about one step. -/
inductive Chance
  /-- All goes as far as it can. -/
  | plain
  /-- A read or a write moves at most so many bytes. -/
  | part (count : Nat)
  /-- The time limit runs out. -/
  | expire
  /-- The operation fails. -/
  | fail (f : Fault)
  /-- An opening gate rouses this sleeper. -/
  | rouse (choice : Nat)
  /-- Looks at these connections fail. -/
  | blind (links : List LinkId)
  deriving DecidableEq, Repr

namespace Network

/-- A reply to a read. -/
def replyOf : ReadAnswer → Reply
  | .ok bytes => .heard bytes
  | .error .connectionReset => .failed .connectionReset
  | .error k => .failed ⟨k, k.name⟩

/-- A read at an end; nothing if it has to wait. It can only run out of time when it finds
nothing. -/
def hear? (n : Network) (link : LinkId) (s : Side) : Chance → Option (Reply × Network)
  | .plain => (n.read? link s readLimit).map fun (answer, n) => (replyOf answer, n)
  | .part count =>
    (n.read? link s (max 1 (min count readLimit))).map fun (answer, n) => (replyOf answer, n)
  | .expire => if (n.read? link s readLimit).isNone then some (.failed .wouldBlock, n) else none
  | .fail f => some (.failed f, n)
  | _ => none

/-- A write at an end. -/
def say (n : Network) (link : LinkId) (s : Side) (bytes : Bytes) : Chance → Reply × Network
  | .fail f => (.failed f, n)
  | .part count => attempt (bytes.take count)
  | _ => attempt bytes
where
  /-- Writes bytes, unless the end cannot be written to. -/
  attempt (bytes : Bytes) : Reply × Network :=
    match n.write link s bytes with
    | .ok n => (.took bytes.length, n)
    | .error f => (.failed f, n)

end Network

namespace Chance

/-- A look at the connection fails. -/
def blinds (chance : Chance) (link : LinkId) : Bool :=
  match chance with
  | blind links => links.contains link
  | _ => false

end Chance

/-- The called end of a connection is looked at, and found open. A look that fails finds it
closed. -/
def Network.findsOpen (n : Network) (chance : Chance) (link : LinkId) : Bool :=
  n.looksOpen link && !chance.blinds link

end LoopbackLock
