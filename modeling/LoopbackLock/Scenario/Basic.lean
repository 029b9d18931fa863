import LoopbackLock.World.Timed

/-!
# Scenarios

A scenario names locks, threads, clients and slots, and acts with them one after the other. A slot
stands for a port that the scenario chooses; locks with the same slot meet at the same port. Each
act has an outcome, and each outcome that concerns a call also tells the phase of the lock.
-/

namespace LoopbackLock

/-- What a thread can be asked to do with a lock. -/
inductive Errand
  | acquire
  /-- To acquire the lock and to keep a guard of it. -/
  | lock
  | release
  /-- To give the newest guard back, whichever lock it is of. -/
  | dropGuard
  deriving DecidableEq, Repr

/-- One act of a scenario; times are in milliseconds. -/
inductive Act
  /-- A thread does something with a lock, and it is waited for. -/
  | run (errand : Errand) (thread lock : String)
  /-- A thread begins to do something with a lock, and nobody waits for it. -/
  | start (errand : Errand) (thread lock : String)
  /-- Waits for a started call. -/
  | pending (thread : String) (time : Nat)
  | join (thread : String)
  | phase (lock : String)
  | awaitPhase (lock phase : String) (time : Nat)
  | waiters (lock : String) (count time : Nat)
  | awaitWaiter (lock : String)
  /-- Whether a listener can be bound at the address of a lock. -/
  | bindable (lock : String)
  | dropLock (lock : String)
  /-- A client connects to a lock, from a given address and the port of a slot if one is named. -/
  | connect (client lock : String) (origin : Option (Host × String))
  | send (client : String) (bytes : Bytes)
  | recv (client : String) (time : Nat)
  | shutdownWrite (client : String)
  | close (client : String)
  | sleep (time : Nat)
  /-- A puppet occupies the port of a slot. -/
  | occupy (slot : String) (cues : List Cue)
  /-- The puppet plays to its end and leaves. -/
  | vacate (slot : String)
  /-- A decoy occupies the port of a slot. -/
  | disguise (slot : String) (disguise : Disguise)
  | unmask (slot : String)
  deriving DecidableEq, Repr

/-- Why an act cannot be done. -/
inductive Obstacle
  /-- The thread is still in a call that nobody has waited for to its end. -/
  | threadBusy
  /-- The thread is in no call. -/
  | noCall
  | noLock
  | noClient
  | noOccupant
  /-- The system refused. -/
  | fault (f : Fault)
  deriving DecidableEq, Repr

/-- The wording of an obstacle. -/
def Obstacle.message : Obstacle → String
  | threadBusy => "thread is busy"
  | noCall => "no started call"
  | noLock => "no lock"
  | noClient => "no client"
  | noOccupant => "no occupant"
  | fault f => f.text

/-- What becomes of an act. -/
inductive Outcome
  /-- The act is done and has nothing to tell but a word. -/
  | done (word : String)
  | acquired (how : Acquisition)
  /-- The call failed; the text names the endpoint by its slot. -/
  | failed (why : LockError) (message : String)
  | phase (p : Phase)
  | count (n : Nat)
  | holds (b : Bool)
  | heard (h : Hearing)
  | log (notes : List Note)
  | cannot (why : Obstacle)
  deriving DecidableEq, Repr

/-- An outcome, with the phase of the lock where it is told. -/
structure Report where
  outcome : Outcome
  phase : Option Phase := none
  deriving DecidableEq, Repr

end LoopbackLock
