/-!
# The gate

Threads of one process share a lock through its gate: one thread owns it, as often over as it has
entered and not left, and only that thread deals with the port. A thread that finds the gate owned
by another falls asleep in it. The last leave of the owner opens the gate and rouses one sleeper;
until that thread looks again, any other may take the gate.
-/

namespace LoopbackLock

/-- A thread, by number. -/
abbrev ThreadId := Nat

/-- The gate of one lock. -/
structure Gate where
  owner : Option ThreadId := none
  /-- How many times the owner has yet to leave. -/
  holds : Nat := 0
  /-- The threads asleep in the gate, the one longest asleep first. -/
  asleep : List ThreadId := []
  deriving DecidableEq, Repr

/-- What a thread finds at the gate. -/
inductive Entry
  /-- The gate was open; the thread owns it now. -/
  | first
  /-- The thread owned it already and holds it once more. -/
  | reentered
  /-- Another thread owns it; the thread is asleep now. -/
  | barred
  deriving DecidableEq, Repr

namespace Gate

/-- A thread looks at the gate once. -/
def enter (g : Gate) (t : ThreadId) : Entry × Gate :=
  match g.owner with
  | none => (.first, { g with owner := some t, holds := 1 })
  | some o =>
    if o = t then (.reentered, { g with holds := g.holds + 1 })
    else (.barred, { g with asleep := g.asleep ++ [t] })

/-- How often a thread holds the gate. -/
def holdsOf (g : Gate) (t : ThreadId) : Nat := if g.owner = some t then g.holds else 0

/-- Rouses one sleeper if there is any; which one is not up to the gate. -/
def rouseOne (g : Gate) (choice : Nat) : Gate :=
  { g with asleep := g.asleep.eraseIdx (choice % g.asleep.length) }

/-- A thread gives up one hold; its last one opens the gate. Nothing happens when the thread does
not own the gate. -/
def leave (g : Gate) (t : ThreadId) (choice : Nat) : Gate :=
  if g.owner ≠ some t then g
  else if g.holds ≤ 1 then ({ g with owner := none, holds := 0 }).rouseOne choice
  else { g with holds := g.holds - 1 }

/-- A sleeper wakes for no reason. -/
def stir (g : Gate) (t : ThreadId) : Gate := { g with asleep := g.asleep.erase t }

end Gate

end LoopbackLock
