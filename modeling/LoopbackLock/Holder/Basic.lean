import LoopbackLock.Holder.Attendant
import LoopbackLock.Holder.Registry
import LoopbackLock.Settings.Basic

/-!
# Holders

A holder is what answers challenges while a lock is held. Its accepting worker looks for new
connections at the listener, hands each to an attendant of its own, and sleeps for the poll time
when there is none. It looks whether it is to stop before each look for a connection, and the
listener closes when it stops. The attendants share the registry under a lock: whether the holder
is stopping is seen, and the connection filed, by one attendant at a time.

The registry belongs to the lock that founded the holder, to the worker and to the attendants
together. When the last of them is gone, the connections still registered are given up.
-/

namespace LoopbackLock

/-- Where the accepting worker stands. -/
inductive Worker
  /-- It is to be seen whether the holder is stopping. -/
  | checking
  | accepting
  /-- Nobody connected; the poll time passes. -/
  | resting
  | gone
  deriving DecidableEq, Repr

/-- A holder. -/
structure Holder where
  listener : ListenerId
  /-- The time limit of each read and write of an attendant. -/
  challengeTimeout : UInt64
  acceptPoll : UInt64
  registry : Registry := []
  /-- The attendant that has locked the registry. -/
  registrar : Option Nat := none
  /-- The workers were told to stop. -/
  stopping : Bool := false
  worker : Worker := .checking
  attendants : List Attendant := []
  /-- The lock has not given the holder up. -/
  kept : Bool := true
  deriving DecidableEq, Repr

namespace Holder

/-- A holder that has just been set to work. -/
def found (s : Settings) (listener : ListenerId) : Holder :=
  { listener, challengeTimeout := s.challengeTimeout, acceptPoll := s.acceptPoll }

/-- Nobody is left to whom the registry belongs. -/
def isForsaken (h : Holder) : Bool :=
  !h.kept && h.worker = .gone && h.attendants.all (·.stage = .gone)

/-- Gives up what is registered when nobody is left to whom it belongs. -/
def settle (h : Holder) (n : Network) : Holder × Network :=
  if h.isForsaken then ({ h with registry := [] }, n.releaseAll h.registry.links) else (h, n)

/-! ## The accepting worker -/

/-- A new attendant gets a connection. -/
def attach (h : Holder) (n : Network) (link : LinkId) : Holder :=
  let port := ((n.links[link]?).map (·.source.port)).getD 0
  { h with worker := .checking, attendants := h.attendants ++ [{ link, port }] }

/-- A step of the accepting worker; nothing if it has to wait or is gone. -/
def poll? (h : Holder) (n : Network) (chance : Chance) : Option (Holder × Network) :=
  match h.worker, chance with
  | .checking, _ =>
    if h.stopping then some (({ h with worker := .gone } : Holder).settle (n.unbind h.listener))
    else some ({ h with worker := .accepting }, n)
  | .accepting, .fail f =>
    some ({ h with worker := if f.kind = .interrupted then .checking else .resting }, n)
  | .accepting, _ =>
    match n.accept? h.listener with
    | some (link, n) => some (h.attach n link, n)
    | none => some ({ h with worker := .resting }, n)
  | .resting, .expire => some ({ h with worker := .checking }, n)
  | .resting, _ => none
  | .gone, _ => none

/-! ## The attendants -/

/-- An attendant goes to another stage. -/
def move (h : Holder) (k : Nat) (stage : Attendance) : Holder :=
  { h with attendants := h.attendants.modify k fun a => { a with stage } }

/-- Files a connection: those that are not found open are given up first, then the one that the new
entry displaces. -/
def enroll (h : Holder) (n : Network) (a : Attendant) (chance : Chance) : Holder × Network :=
  let standing := h.registry.pruned n chance
  ({ h with registry := standing.insert a.port a.link, registrar := none },
    (n.releaseAll (h.registry.hungUp n chance)).releaseAll (standing.displaced a.port))

/-- A step of an attendant; nothing if it has to wait or is gone. -/
def attend? (h : Holder) (n : Network) (k : Nat) (chance : Chance) : Option (Holder × Network) := do
  let a ← h.attendants[k]?
  match a.stage with
  | .queuing =>
    if h.registrar.isSome then none else some ({ h with registrar := some k }.move k .deciding, n)
  | .deciding =>
    if h.stopping then some ({ h with registrar := none }.move k (.parting 2), n)
    else some (h.move k .admitting, n)
  | .admitting =>
    let (h, n) := h.enroll n a chance
    some (h.move k (.parting 1), n)
  | .parting handles =>
    some ((h.move k .gone).settle (n.releaseAll (List.replicate handles a.link)))
  | .gone => none
  | _ =>
    let (stage, n) ← a.serve? h.challengeTimeout n chance
    some (h.move k stage, n)

end Holder

end LoopbackLock
