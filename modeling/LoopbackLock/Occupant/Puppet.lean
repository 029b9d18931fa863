import LoopbackLock.Occupant.Hearing

/-!
# Puppets

A puppet occupies a port and plays a list of cues: it accepts connections, reads lines from them,
writes to them and closes them. It keeps a log of what it read. Afterwards it stays as it is until
it is sent away; then it closes everything it has.
-/

namespace LoopbackLock

/-- What a puppet is to do. A connection is meant by its number in the order of acceptance, from 1
on, or is the latest. -/
inductive Cue
  /-- Waits for a connection. -/
  | accept
  /-- Reads one line within so many milliseconds and logs what was heard. -/
  | read (connection : Option Nat) (limit : Nat)
  | send (connection : Option Nat) (bytes : Bytes)
  | close (connection : Option Nat)
  /-- Stops listening and keeps the connections. -/
  | unbind
  /-- Lets so many milliseconds pass. -/
  | pause (time : Nat)
  deriving DecidableEq, Repr

/-- An entry of a puppet's log. -/
inductive Note
  | heard (h : Hearing)
  /-- There was no connection to do something with. -/
  | noConnection
  deriving DecidableEq, Repr

/-- A puppet. -/
structure Puppet where
  listener : ListenerId
  cues : List Cue
  /-- The connections in the order of acceptance; nothing for one that was closed. -/
  ears : List (Option Ear) := []
  log : List Note := []
  stopping : Bool := false
  isGone : Bool := false
  deriving DecidableEq, Repr

namespace Puppet

/-- How long a connection is waited for, in milliseconds. -/
def acceptTime : Nat := 5000

/-- The index of the connection a cue means. -/
def indexOf (p : Puppet) : Option Nat → Nat
  | some c => c - 1
  | none => p.ears.length - 1

/-- The connection a cue means. -/
def ear? (p : Puppet) (c : Option Nat) : Option Ear := (p.ears[p.indexOf c]?).join

/-- Without a connection to do something with, the play is over. -/
def abort (p : Puppet) : Puppet := { p with cues := [], log := p.log ++ [.noConnection] }

/-- Sets a connection, and goes on with these cues. -/
def setEar (p : Puppet) (c : Option Nat) (e : Option Ear) (cues : List Cue) : Puppet :=
  { p with ears := p.ears.set (p.indexOf c) e, cues }

/-- Gives everything up. -/
def leave (p : Puppet) (n : Network) : Puppet × Network :=
  ({ p with isGone := true, ears := [] },
    (n.releaseAll (p.ears.filterMap fun e => e.map (·.link))).unbind p.listener)

/-- A step of a puppet; nothing if it has to wait or is gone. -/
def step? (p : Puppet) (n : Network) (chance : Chance) : Option (Puppet × Network) :=
  match p.cues with
  | [] => if p.stopping && !p.isGone then some (p.leave n) else none
  | .accept :: cues =>
    match n.accept? p.listener, chance with
    | some (link, n), _ => some ({ p with ears := p.ears ++ [some { link }], cues }, n)
    | none, .expire => some (p.abort, n)
    | none, _ => none
  | .read c _ :: cues =>
    match p.ear? c with
    | none => some (p.abort, n)
    | some ear =>
      match ear.listen? .callee n chance with
      | some (some heard, ear, n) =>
        some ({ p.setEar c ear cues with log := p.log ++ [.heard heard] }, n)
      | some (none, ear, n) => some (p.setEar c ear p.cues, n)
      | none => none
  | .send c bytes :: cues =>
    match p.ear? c with
    | none => some (p.abort, n)
    | some ear => some ({ p with cues }, (n.say ear.link .callee bytes chance).2)
  | .close c :: cues =>
    match p.ear? c with
    | none => some (p.abort, n)
    | some ear => some (p.setEar c none cues, n.release ear.link .callee)
  | .unbind :: cues => some ({ p with cues }, n.unbind p.listener)
  | .pause _ :: cues =>
    match chance with
    | .expire => some ({ p with cues }, n)
    | _ => none

/-- How long the puppet waits for what it waits for, in milliseconds. -/
def limit? (p : Puppet) : Option Nat :=
  match p.cues with
  | .accept :: _ => some acceptTime
  | .read _ limit :: _ => some limit
  | .pause time :: _ => some time
  | _ => none

/-- The play is over. -/
def isDone (p : Puppet) : Bool := p.cues.isEmpty

end Puppet

end LoopbackLock
